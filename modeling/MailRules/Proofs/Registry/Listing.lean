import MailRules.Proofs.Registry.Audit
import MailRules.Proofs.Registry.Confined

set_option autoImplicit false

/-!
# What is listed after a session

However a session goes that starts from a new store, the rules that can be read are those that have
been created and not deleted, going by the replies: the latest first, and as they were given back
when they were created (`session_mirrors`). Requests may fail in between, events may be written or
not, and the store may be closed and opened again.

The invariant is `Store.Holds`: the rows of the rules lie in the order of creation. That listing
them by their ranks turns this order around follows from the ranks being given out by counting.
-/

namespace MailRules

/-- What a rule says, without how certain it is. -/
def Rule.terms (r : Rule) :
    String × RuleKind × String × RuleAction × Option String × Option String :=
  (r.id, r.draft.kind, r.draft.pattern, r.draft.action, r.draft.exception, r.draft.notes)

namespace Store

/-- The store holds the rules that have been made, in order, without those that were erased. -/
structure Holds (s : Store) (made : List Rule) (erased : List String) : Prop where
  keeps : s.Keeps (made.map Rule.id) erased
  values : s.tables.rules.map Row.value = (made.filter fun r => r.id ∉ erased).map keptRule

variable {s t : Store} {made : List Rule} {erased : List String}

theorem Holds.start (m : Marks) : Holds { marks := m } [] [] :=
  ⟨Keeps.start m [], rfl⟩

/-- What leaves the rules alone does not change what is held. -/
theorem Holds.same (h : s.Holds made erased) (hmarks : t.marks = s.marks)
    (hrules : Tables.Shows Tables.ruleBook s.tables t.tables) : t.Holds made erased := by
  obtain ⟨hrows, hissued⟩ := Prod.mk.inj hrules
  refine ⟨h.keeps.same hmarks hrows hissued, ?_⟩
  rw [hrows]
  exact h.values

theorem Holds.unmoved (h : s.Holds made erased) (hst : Unmoved s t) : t.Holds made erased :=
  h.same hst.marks (congrArg Tables.ruleBook hst.tables)

/-- Rules are written. -/
theorem Holds.create (h : s.Holds made erased) (hfresh : Function.Injective s.marks.rule)
    (hmarks : t.marks = s.marks) {last : Int} {ds : List Draft}
    (htables : t.tables = s.tables.withRules last
      (rulesFrom s.marks s.tables.issued.rules ds)) :
    t.Holds (made ++ rulesFrom s.marks s.tables.issued.rules ds) erased := by
  have hkeeps := h.keeps.create hfresh hmarks htables
  rw [← List.map_append] at hkeeps
  have hnew : (rulesFrom s.marks s.tables.issued.rules ds).filter (fun r => r.id ∉ erased) =
      rulesFrom s.marks s.tables.issued.rules ds :=
    List.filter_eq_self.mpr fun r hr => by simpa using h.keeps.undeleted hfresh hr
  refine ⟨hkeeps, ?_⟩
  rw [List.filter_append, hnew, List.map_append, ← h.values, htables]
  simp only [Tables.withRules, List.map_append, map_value_rowsFrom]

/-- A rule is erased. -/
theorem Holds.erase (h : s.Holds made erased) (hmarks : t.marks = s.marks) {id : String} {r : Rule}
    (hr : s.tables.rule? id = some r) (htables : t.tables = s.tables.withoutRule id) :
    t.Holds made (erased ++ [id]) := by
  refine ⟨h.keeps.delete hmarks hr htables, ?_⟩
  have hkept : (fun q : Rule => decide (q.id ≠ id)) ∘ keptRule = fun q => decide (q.id ≠ id) :=
    rfl
  rw [htables, map_value_withoutRule, h.values, List.filter_map, hkept, List.filter_filter]
  congr 1
  refine List.filter_congr fun q _ => ?_
  simp [Bool.and_comm]

theorem Holds.insertRule (h : s.Holds made erased) (hs : s.Sound)
    (hfresh : Function.Injective s.marks.rule) {d : Draft} {a : Answer Rule}
    (hi : s.insertRule d = (.ok a, t)) : ∃ r, a = .given r ∧ t.Holds (made ++ [r]) erased := by
  obtain ⟨c, hc, -⟩ := hs.numbered
  have hfollows := insertRule_follows s d
  rw [hi] at hfollows
  obtain ⟨rfl, htables, -⟩ := insertRule_ok hs.failing hc hi
  have hone : t.tables = s.tables.withRules c (rulesFrom s.marks s.tables.issued.rules [d]) :=
    htables
  exact ⟨_, rfl, h.create hfresh hfollows.marks hone⟩

theorem Holds.insertRules (h : s.Holds made erased) (hs : s.Sound)
    (hfresh : Function.Injective s.marks.rule) {ds : List Draft}
    {a : Answer (List (Answer Rule))} (hi : s.insertRules ds = (.ok a, t)) :
    ∃ rs, a = .given (rs.map .given) ∧ t.Holds (made ++ rs) erased := by
  obtain ⟨c, hc, -⟩ := hs.numbered
  have hfollows := insertRules_follows s ds
  rw [hi] at hfollows
  obtain ⟨rfl, htables, -⟩ := insertRules_ok hs.failing hc hi
  exact ⟨_, rfl, h.create hfresh hfollows.marks htables⟩

/-- A rule that is not there is not erased either. -/
theorem Holds.deleteRule (h : s.Holds made erased) (hs : s.Sound) {id : String} {a : Answer Bool}
    (hd : s.deleteRule id = (.ok a, t)) :
    ∃ b, a = .given b ∧ t.Holds made (erased ++ if b then [id] else []) := by
  have hfollows := deleteRule_follows s id
  rw [hd] at hfollows
  obtain ⟨rfl, htables, -⟩ := deleteRule_ok hs.failing hd
  refine ⟨_, rfl, ?_⟩
  rcases hr : s.tables.rule? id with _ | r
  · have hrows : s.tables.rules.filter (·.value.id ≠ id) = s.tables.rules := by
      refine List.filter_eq_self.mpr fun row hrow => ?_
      rw [Tables.rule?, Option.map_eq_none_iff, List.find?_eq_none] at hr
      simpa using hr row hrow
    simp only [Option.isSome_none, Bool.false_eq_true, if_false, List.append_nil]
    refine h.same hfollows.marks ?_
    rw [htables]
    exact congrArg (fun rows => (rows, s.tables.issued.rules)) hrows
  · exact h.erase hfollows.marks hr htables

/-- The operations by which rules are read. -/
def readings : List Operation :=
  [.listRules, .findRule, .question, .readRule]

/-- Nothing keeps rules from being read. -/
structure Readable (s : Store) : Prop where
  isOpen : s.isOpen = true
  calm : ∀ op ∈ readings, Calm op s.disturbances

theorem Readable.follows (h : s.Readable) (hst : s.Follows t) : t.Readable :=
  ⟨hst.isOpen.trans h.isOpen, fun op hop => (h.calm op hop).recounted hst.recounted⟩

theorem openOn_readable (tables : Tables) (marks : Marks) : (openOn tables marks).Readable :=
  ⟨rfl, fun op _ => calm_nil op⟩

end Store

namespace Registry

/-! ## What has been made and erased -/

/-- The rules that a request has made, as they are given back. -/
def madeBy : Request → Except Failure Reply → List Rule
  | .change (.create ..), .ok (.rule r) => [r]
  | .change (.createBatch ..), .ok (.rules rs) => rs
  | .insertRule _, .ok (.row (.given r)) => [r]
  | .insertRules _, .ok (.rows (.given as)) => (leading as).1
  | _, _ => []

/-- The rules that a request has erased, going by the reply. -/
def erasedBy : Request → Except Failure Reply → List String
  | .change (.delete id _), .ok _ => [id]
  | .eraseRule id, .ok (.flag (.given true)) => [id]
  | _, _ => []

/-- The rules that requests have made, in order. -/
def made (g : Registry) : List Request → List Rule
  | [] => []
  | q :: qs => madeBy q (g.perform q).1 ++ (g.perform q).2.made qs

/-- The rules that requests have erased, in order. -/
def erased (g : Registry) : List Request → List String
  | [] => []
  | q :: qs => erasedBy q (g.perform q).1 ++ (g.perform q).2.erased qs

/-- The rules that requests have made and not erased, in order. -/
def held (g : Registry) (qs : List Request) : List Rule :=
  (g.made qs).filter fun r => r.id ∉ g.erased qs

theorem made_append (g : Registry) (qs more : List Request) :
    g.made (qs ++ more) = g.made qs ++ (g.afterAll qs).made more := by
  induction qs generalizing g with
  | nil => rfl
  | cons q qs ih => simp only [List.cons_append, made, ih, afterAll_cons, List.append_assoc]

theorem erased_append (g : Registry) (qs more : List Request) :
    g.erased (qs ++ more) = g.erased qs ++ (g.afterAll qs).erased more := by
  induction qs generalizing g with
  | nil => rfl
  | cons q qs ih => simp only [List.cons_append, erased, ih, afterAll_cons, List.append_assoc]

/-- A request that fails has made and erased nothing. -/
theorem heldBy_error (q : Request) (f : Failure) :
    madeBy q (.error f) = [] ∧ erasedBy q (.error f) = [] := by
  cases q with
  | change c => cases c <;> exact ⟨rfl, rfl⟩
  | _ => exact ⟨rfl, rfl⟩

/-- The requests that may change rules. -/
def Request.ChangesRules : Request → Prop
  | .change (.create ..) | .change (.createBatch ..) | .change (.delete ..) => True
  | .insertRule _ | .insertRules _ | .eraseRule _ => True
  | _ => False

theorem heldBy_none {q : Request} (h : ¬q.ChangesRules) (r : Except Failure Reply) :
    madeBy q r = [] ∧ erasedBy q r = [] := by
  cases q with
  | change c =>
    cases c with
    | create | createBatch | delete => exact absurd trivial h
    | _ => exact ⟨rfl, rfl⟩
  | insertRule | insertRules | eraseRule => exact absurd trivial h
  | _ => exact ⟨rfl, rfl⟩

/-- Rows are marked in the same way for a whole session. -/
theorem perform_marks (g : Registry) (q : Request) :
    (g.perform q).2.store.marks = g.store.marks := by
  cases q with
  | close =>
    obtain ⟨ds, isOpen, -, hclose⟩ := close_snd g.flush.store
    exact (congrArg Store.marks hclose).trans (flush_quiet.follows g).marks
  | reopen | disturb | calm => rfl
  | _ =>
    refine ((perform_steady ?_).follows g).marks
    trivial

theorem afterAll_marks (g : Registry) (qs : List Request) :
    (g.afterAll qs).store.marks = g.store.marks := by
  induction qs generalizing g with
  | nil => rfl
  | cons q qs ih => exact (ih _).trans (perform_marks g q)

theorem make_keepsRules {c : Change} (h : ¬(Request.change c).ChangesRules) :
    Confined KeepsRules fun g => (g.make c).2 := by
  cases c with
  | create | createBatch | delete => exact absurd trivial h
  | insertThread participants subject id =>
    exact withStore_confined ((Store.insertThread_confined participants subject id).mono
      fun _ _ hsame => hsame.map Prod.fst)
  | insertTask title thread id =>
    exact withStore_confined (Store.insertTask_confined title thread id)
  | deleteTask id =>
    exact withStore_confined
      ((Store.deleteTask_confined id).mono fun _ _ hpurged => hpurged.ruleBook)

theorem perform_keepsRules {q : Request} (h : ¬q.ChangesRules) :
    Confined KeepsRules fun g => (g.perform q).2 := by
  have hR := keepsRules_stepwise
  cases q with
  | change c => exact make_keepsRules h
  | insertRule | insertRules | eraseRule => exact absurd trivial h
  | get id => exact lookUp_confined hR id _
  | list action => exact list_confined hR action
  | listTasks => exact withStore_confined (Store.confined_of_unmoved hR Store.listTasks_unmoved)
  | countTasks => exact withStore_confined (Store.confined_of_unmoved hR Store.countTasks_unmoved)
  | events limit => exact Apart.keepsRules (events_apart limit)
  | sweep rules order => exact Sweep.run_keepsRules rules order
  | record kind entity entityId details actor =>
    exact Apart.keepsRules (recordAny_apart kind entity entityId details actor)
  | carryOut actor effects => exact Apart.keepsRules (carryOut_apart actor effects)
  | work => exact Apart.keepsRules work_apart
  | flush => exact Apart.keepsRules flush_apart
  | close => exact Apart.keepsRules close_apart
  | reopen | disturb | calm => exact fun g => hR.refl _

/-! ## The invariant -/

variable {g : Registry} {rs : List Rule} {ids : List String}

theorem Untouched.holds {u : Registry} (hu : Untouched g u) (h : g.store.Holds rs ids) :
    u.store.Holds rs ids :=
  h.unmoved hu.store

/-- Recording what has been done to the rules leaves them alone. -/
theorem foldl_submit_holds (h : g.store.Holds rs ids) (notes : List Audit.Note) :
    (notes.foldl submit g).store.Holds rs ids := by
  have hkeeps := Apart.keepsRules (confined_foldl apart_stepwise submit_apart notes)
  have hmarks := ((quiet_foldl submit_quiet notes).follows g).marks
  exact h.same hmarks (hkeeps g)

/-- A change keeps what is held in step with the replies. -/
theorem make_holds (hg : g.store.Sound) (hfresh : Function.Injective g.store.marks.rule)
    (h : g.store.Holds rs ids) (c : Change) :
    (g.make c).2.store.Holds (rs ++ madeBy (.change c) (g.make c).1)
      (ids ++ erasedBy (.change c) (g.make c).1) := by
  by_cases hchanges : (Request.change c).ChangesRules
  · rcases hmake : g.make c with ⟨f | reply, g'⟩
    · obtain ⟨hmade, herased⟩ := heldBy_error (.change c) f
      rw [hmade, herased, List.append_nil, List.append_nil]
      exact (make_error hg hmake).holds h
    · cases c with
      | create record actor =>
        obtain ⟨r, hcreate, rfl⟩ := replying_eq_ok hmake
        obtain ⟨u, -, hi, -, rfl⟩ := create_done hg hcreate
        obtain ⟨q, heq, hu⟩ := h.insertRule hg hfresh hi
        obtain rfl := Store.Answer.given.inj heq
        simp only [erasedBy, List.append_nil]
        exact foldl_submit_holds hu [createdNote none actor r]
      | createBatch records actor reason =>
        obtain ⟨new, hcreate, rfl⟩ := replying_eq_ok hmake
        obtain ⟨items, ds, -, -, -, hdistinct⟩ := createBatch_ok hcreate
        obtain ⟨u, hi, -, -, -, rfl⟩ := createDistinct_ok hg hdistinct
        obtain ⟨qs, heq, hu⟩ := h.insertRules hg hfresh hi
        have hnew : new = qs :=
          List.map_injective_iff.mpr (fun _ _ => Store.Answer.given.inj)
            (Store.Answer.given.inj heq)
        simp only [erasedBy, List.append_nil]
        exact foldl_submit_holds (hnew ▸ hu) _
      | delete id actor =>
        obtain ⟨⟨⟩, hdelete, rfl⟩ := replying_eq_ok hmake
        obtain ⟨r, u, hr, hprepared, htables, rfl⟩ := delete_done hg hdelete
        simp only [madeBy, List.append_nil]
        exact foldl_submit_holds (h.erase hprepared.store.marks hr htables)
          [deletedNote r id actor]
      | insertThread | insertTask | deleteTask => exact hchanges.elim
  · obtain ⟨hmade, herased⟩ := heldBy_none hchanges (g.make c).1
    rw [hmade, herased, List.append_nil, List.append_nil]
    exact h.same (perform_marks g (.change c)) (make_keepsRules hchanges g)

/-- A request keeps what is held in step with the replies. -/
theorem perform_holds (hg : g.store.Sound) (hfresh : Function.Injective g.store.marks.rule)
    (h : g.store.Holds rs ids) (q : Request) :
    (g.perform q).2.store.Holds (rs ++ madeBy q (g.perform q).1)
      (ids ++ erasedBy q (g.perform q).1) := by
  by_cases hchanges : q.ChangesRules
  · cases q with
    | change c => exact make_holds hg hfresh h c
    | insertRule d =>
      simp only [perform, withStore, replying, erasedBy, List.append_nil]
      rcases hi : g.store.insertRule d with ⟨f | a, t⟩
      · simpa [Except.map, madeBy] using h.unmoved (Store.insertRule_error hi)
      · obtain ⟨r, rfl, ht⟩ := h.insertRule hg hfresh hi
        exact ht
    | insertRules ds =>
      simp only [perform, withStore, replying, erasedBy, List.append_nil]
      rcases hi : g.store.insertRules ds with ⟨f | a, t⟩
      · simpa [Except.map, madeBy] using h.unmoved (Store.insertRules_error hi)
      · obtain ⟨new, rfl, ht⟩ := h.insertRules hg hfresh hi
        simpa [Except.map, madeBy, leading_given] using ht
    | eraseRule id =>
      simp only [perform, withStore, replying, madeBy, List.append_nil]
      rcases hd : g.store.deleteRule id with ⟨f | a, t⟩
      · simpa [Except.map, erasedBy] using h.unmoved (Store.deleteRule_error hd)
      · obtain ⟨b, rfl, ht⟩ := h.deleteRule hg hd
        cases b <;> exact ht
    | _ => exact hchanges.elim
  · obtain ⟨hmade, herased⟩ := heldBy_none hchanges (g.perform q).1
    rw [hmade, herased, List.append_nil, List.append_nil]
    exact h.same (perform_marks g q) (perform_keepsRules hchanges g)

/-- A session keeps what is held in step with the replies. -/
theorem afterAll_holds (hg : g.store.Sound) (hfresh : Function.Injective g.store.marks.rule)
    (h : g.store.Holds rs ids) (qs : List Request) :
    (g.afterAll qs).store.Sound ∧
      (g.afterAll qs).store.Holds (rs ++ g.made qs) (ids ++ g.erased qs) := by
  -- what is held before grows by what the first request makes and erases
  induction qs generalizing g rs ids with
  | nil => simpa [made, erased] using ⟨hg, h⟩
  | cons q qs ih =>
    have hnext := ih (perform_sound hg q) (perform_marks g q ▸ hfresh) (perform_holds hg hfresh h q)
    rw [List.append_assoc, List.append_assoc] at hnext
    exact hnext

/-! ## Reading -/

/-- Whether rules can surely be read after a request, given whether they could before. -/
def Request.leavesReadable (before : Bool) : Request → Bool
  | .close => false
  | .reopen => true
  | .disturb op _ _ => before && op ∉ Store.readings
  | _ => before

/-- Whether rules can surely be read after requests to an open store that nothing disturbs. -/
def readableAfter (qs : List Request) : Bool :=
  qs.foldl Request.leavesReadable true

theorem perform_readable {before : Bool} (h : before = true → g.store.Readable) {q : Request}
    (hq : q.leavesReadable before = true) : (g.perform q).2.store.Readable := by
  cases q with
  | close => cases hq
  | reopen => exact Store.openOn_readable _ _
  | disturb op trigger r =>
    obtain ⟨hbefore, hop⟩ := Bool.and_eq_true_iff.mp hq
    refine ⟨(h hbefore).isOpen, fun reading hreading d hd => ?_⟩
    rcases List.mem_append.mp hd with hd | hd
    · exact (h hbefore).calm reading hreading d (List.mem_of_mem_filter hd)
    · rw [List.mem_singleton.mp hd]
      rintro rfl
      simp [hreading] at hop
  | calm op =>
    exact ⟨(h hq).isOpen, fun reading hreading d hd =>
      (h hq).calm reading hreading d (List.mem_of_mem_filter hd)⟩
  | _ =>
    refine (h hq).follows ((perform_steady ?_).follows g)
    trivial

theorem afterAll_readable {before : Bool} (h : before = true → g.store.Readable)
    {qs : List Request} (hqs : qs.foldl Request.leavesReadable before = true) :
    (g.afterAll qs).store.Readable := by
  induction qs generalizing g before with
  | nil => exact h hqs
  | cons q qs ih => exact ih (fun hq => perform_readable h hq) hqs

/-- What is read is as it should be, unless something may keep it from being read and does. -/
def Reads {α : Type} (readable : Bool) (o expected : Except Failure α) : Prop :=
  o = expected ∨ readable = false ∧ ∃ f, o = .error f

/-- Rules as they are listed: as the store keeps them, the latest first. -/
def latestFirst (rules : List Rule) : List Rule :=
  (rules.map Store.keptRule).reverse

/-- What looking for an identifier among rules comes to. -/
def sought (id : String) (rules : List Rule) : Except Failure Rule :=
  match rules.find? (·.id = id) with
  | some r => .ok r
  | none => .error (.unknownRule id)

/-- The rules that can be read of a registry, by each way of reading them. -/
structure Mirrors (g : Registry) (rules : List Rule) (readable : Bool) : Prop where
  /-- All rules are listed, the latest first. -/
  list : Reads readable (g.list none).1 (.ok (latestFirst rules))
  /-- The rules of an action are those of the list. -/
  listOf : ∀ a, Reads readable (g.list (some a)).1
    (.ok ((latestFirst rules).filter (·.draft.action = a)))
  /-- A rule is found by its identifier if it is in the list. -/
  get : ∀ id, Reads readable (g.get id).1 (sought id (latestFirst rules))
  /-- Each rule says what it said when it was given back. -/
  terms : (latestFirst rules).map Rule.terms = (rules.map Rule.terms).reverse
  /-- No two rules have the same identifier. -/
  apart : ((latestFirst rules).map Rule.id).Nodup

/-- The rules of an action, or all. -/
def ofAction (action : Option RuleAction) (rules : List Rule) : List Rule :=
  match action with
  | some a => rules.filter (·.draft.action = a)
  | none => rules

variable {made : List Rule} {erased : List String}

/-- Listing by ranks turns the order of creation around. -/
theorem listed_of_holds (hg : g.store.Sound) (h : g.store.Holds made erased)
    (action : Option RuleAction) :
    g.store.tables.listed action =
      ofAction action (latestFirst (made.filter fun r => r.id ∉ erased)) := by
  obtain ⟨c, -, hnumbered⟩ := hg.numbered
  have hnewest : Store.newestFirst g.store.tables.rules =
      latestFirst (made.filter fun r => r.id ∉ erased) := by
    rw [Store.newestFirst_of_numbered hnumbered.rules, h.values, latestFirst]
  unfold Store.Tables.listed
  rw [hnewest]
  rfl

theorem list_reads (hg : g.store.Sound) {readable : Bool}
    (hreadable : readable = true → g.store.Readable) (action : Option RuleAction) :
    Reads readable (g.list action).1 (.ok (g.store.tables.listed action)) := by
  have hlist : (g.list action).1 =
      (g.store.listRules action).1.bind (·.takeEach "to_dict") := rfl
  rw [hlist]
  rcases hl : g.store.listRules action with ⟨f | a, t⟩
  · refine Or.inr ⟨Bool.eq_false_iff.mpr fun hr => ?_, f, rfl⟩
    have hcalm := (hreadable hr).calm
    rw [Store.listRules_of_calm (hcalm _ (by decide)) (hcalm _ (by decide)) (hcalm _ (by decide))
      (hreadable hr).isOpen] at hl
    cases hl
  · obtain rfl := Store.listRules_ok hg.failing hl
    exact Or.inl (Store.takeRows_given _ _)

/-- The rules that are looked for lie the other way round, but no two have the same identifier. -/
theorem find?_reverse {rules : List Rule} (h : (rules.map Rule.id).Nodup) (id : String) :
    rules.reverse.find? (·.id = id) = rules.find? (·.id = id) := by
  cases hfound : rules.find? (·.id = id) with
  | none =>
    rw [List.find?_eq_none] at hfound ⊢
    exact fun q hq => hfound q (List.mem_reverse.mp hq)
  | some r =>
    have hid : r.id = id := by simpa using List.find?_some hfound
    have hmem := List.mem_reverse.mpr (List.mem_of_find?_eq_some hfound)
    have hnodup : (rules.reverse.map Rule.id).Nodup := by
      rw [List.map_reverse]
      exact List.nodup_reverse.mpr h
    exact hid ▸ Store.find?_id hnodup hmem

theorem get_reads (hg : g.store.Sound) {readable : Bool}
    (hreadable : readable = true → g.store.Readable) (id : String) :
    Reads readable (g.get id).1 (sought id (g.store.tables.rules.map Store.Row.value)) := by
  simp only [get, lookUp, taking]
  rcases hf : g.store.findRule id with ⟨f | a, t⟩
  · refine Or.inr ⟨Bool.eq_false_iff.mpr fun hr => ?_, f, rfl⟩
    have hcalm := (hreadable hr).calm
    rw [Store.findRule_of_calm (hcalm _ (by decide)) (hcalm _ (by decide)) (hcalm _ (by decide))
      (hreadable hr).isOpen] at hf
    cases hf
  · obtain rfl := Store.findRule_ok hg.failing hf
    rw [Store.rule?_eq_find?, sought]
    refine Or.inl ?_
    rcases List.find? _ _ with _ | r <;> rfl

theorem apart_of_holds (hfresh : Function.Injective g.store.marks.rule)
    (h : g.store.Holds made erased) :
    ((latestFirst (made.filter fun r => r.id ∉ erased)).map Rule.id).Nodup := by
  rw [latestFirst, List.map_reverse, Store.map_id_keptRule]
  exact List.nodup_reverse.mpr
    ((h.keeps.nodup hfresh).sublist (List.filter_sublist.map Rule.id))

/-- Where rules are held, they are what is read. -/
theorem mirrors_of_holds (hg : g.store.Sound) (hfresh : Function.Injective g.store.marks.rule)
    (h : g.store.Holds made erased) {readable : Bool}
    (hreadable : readable = true → g.store.Readable) :
    Mirrors g (made.filter fun r => r.id ∉ erased) readable where
  list := by
    have hlist := list_reads hg hreadable none
    rwa [listed_of_holds hg h] at hlist
  listOf a := by
    have hlist := list_reads hg hreadable (some a)
    rwa [listed_of_holds hg h] at hlist
  get id := by
    have hget := get_reads hg hreadable id
    have hapart := apart_of_holds hfresh h
    rw [latestFirst, List.map_reverse] at hapart
    rw [h.values] at hget
    unfold sought at hget ⊢
    rwa [latestFirst, find?_reverse (List.nodup_reverse.mp hapart)]
  terms := by
    rw [latestFirst, List.map_reverse, List.map_map]
    rfl
  apart := apart_of_holds hfresh h

/-! ## Sessions from a new store -/

/-- A registry on a new store. -/
def onNew (m : Store.Marks) (isDeferred : Bool) : Registry where
  store := { marks := m }
  isDeferred := isDeferred

/-- What can be read after a session are the rules that it has made and not erased. -/
theorem session_mirrors {m : Store.Marks} (hfresh : Function.Injective m.rule)
    (isDeferred : Bool) (qs : List Request) :
    Mirrors ((onNew m isDeferred).afterAll qs) ((onNew m isDeferred).held qs)
      (readableAfter qs) := by
  have hstart : (onNew m isDeferred).store.Sound := (Reachable.start m isDeferred).sound
  obtain ⟨hsound, hholds⟩ := afterAll_holds hstart hfresh (Store.Holds.start m) qs
  rw [List.nil_append, List.nil_append] at hholds
  have hfresh' : Function.Injective ((onNew m isDeferred).afterAll qs).store.marks.rule := by
    rw [afterAll_marks]
    exact hfresh
  exact mirrors_of_holds hsound hfresh' hholds
    (afterAll_readable fun _ => ⟨rfl, fun op _ => Store.calm_nil op⟩)

/-- A session in which events cannot be written for a while: two rules are created one by one and
two as a batch, a record is refused, a rule is deleted, and one more is created once the store has
been closed and opened again. -/
def busySession : List Request :=
  [.change (.create someRecord none), .disturb .insertEvent .always ⟨.database, "locked"⟩,
    .change (.create otherRecord none), .change (.create .null none),
    .change (.createBatch (.array [otherRecord, someRecord]) none none),
    .change (.delete "||" none), .change (.delete "||" none), .close, .get "|", .reopen,
    .change (.create someRecord none)]

/-- The rules that are held then can all be read. -/
theorem session_mirrors_busy :
    ((onNew Store.strokeMarks true).held busySession).map Rule.id = ["|", "|||", "||||", "|||||"] ∧
      readableAfter busySession = true ∧
      Mirrors ((onNew Store.strokeMarks true).afterAll busySession)
        ((onNew Store.strokeMarks true).held busySession) (readableAfter busySession) :=
  ⟨by decide +kernel, by decide,
    session_mirrors Store.strokes_injective true busySession⟩

end Registry

end MailRules
