import MailRules.Proofs.Registry.Lag
import MailRules.Proofs.Store.Issued

set_option autoImplicit false

/-!
# What the audit trail says of rules

A run of requests on rules submits one note for each rule that it creates or deletes, after that has
been done, and the events are what has been kept of these notes. So the trail never says more than
has happened, and says all of it unless the log has a report on an event that could not be written.
-/

namespace MailRules

namespace Registry

/-! ## Notes that are written -/

/-- Notes have been written one after the other: those that are kept have become events, in order,
and there is a report in the log if some are not. -/
structure Tells (g : Registry) (notes : List Audit.Note) (g' : Registry) : Prop where
  follows : g.store.Follows g'.store
  rules : g'.store.tables.rules = g.store.tables.rules
  issued : g'.store.tables.issued.rules = g.store.tables.issued.rules
  events : g.store.tables.events <+: g'.store.tables.events
  log : g.log <+: g'.log
  told : ∃ kept : List Audit.Note, kept.Sublist notes ∧
    g'.trail = g.trail ++ kept.map Audit.Note.content ∧
    ((∀ n f, writeReport n f ∉ g'.log) → kept = notes)

theorem write_tells {g : Registry} (hg : g.store.Sound) (n : Audit.Note) :
    Tells g [n] (g.write n) := by
  obtain ⟨hrules, hissued⟩ := Store.insertEvent_rules hg n
  obtain ⟨-, -, -, hwritten⟩ := write_cases hg n
  rw [← write_store] at hrules hissued
  refine ⟨(write_quiet n).follows g, hrules, hissued, ?_, ?_, ?_⟩
  · rw [write_store]
    exact Store.insertEvent_events hg n
  · rcases hwritten with ⟨hlog, -⟩ | ⟨⟨f, hlog⟩, -⟩
    · exact hlog ▸ List.prefix_refl _
    · exact hlog ▸ List.prefix_append _ _
  · rcases hwritten with ⟨-, htrail⟩ | ⟨⟨f, hlog⟩, htrail⟩
    · exact ⟨[n], List.Sublist.refl _, htrail, fun _ => rfl⟩
    · refine ⟨[], List.nil_sublist _, by simp [htrail], fun hnone => ?_⟩
      -- the report on this note is in the log
      exact absurd (by rw [hlog]; simp) (hnone n f)

theorem writeAll_tells {g : Registry} (hg : g.store.Sound) (notes : List Audit.Note) :
    Tells g notes (g.writeAll notes) := by
  induction notes generalizing g with
  | nil => exact ⟨Store.Follows.refl _, rfl, rfl, List.prefix_refl _, List.prefix_refl _, [],
      List.Sublist.refl _, by simp [writeAll], fun _ => rfl⟩
  | cons n notes ih =>
    have hfirst := write_tells hg n
    have hrest := ih (write_sound hg n)
    refine ⟨hfirst.follows.trans hrest.follows, hrest.rules.trans hfirst.rules,
      hrest.issued.trans hfirst.issued, hfirst.events.trans hrest.events,
      hfirst.log.trans hrest.log, ?_⟩
    obtain ⟨kept, hkept, htrail, hall⟩ := hfirst.told
    obtain ⟨more, hmore, htrail', hall'⟩ := hrest.told
    refine ⟨kept ++ more, hkept.append hmore, ?_, fun hnone => ?_⟩
    · have hfold : g.writeAll (n :: notes) = (g.write n).writeAll notes := rfl
      rw [hfold, htrail', htrail, List.map_append, List.append_assoc]
    · have hnone' : ∀ n' f, writeReport n' f ∉ (g.write n).log :=
        fun n' f hmem => hnone n' f (hrest.log.subset hmem)
      rw [hall hnone', hall' hnone, List.singleton_append]

/-! ## Keeping account -/

/-- The identifiers that notes of a kind are on. -/
def noted (kind : Audit.Kind) (notes : List Audit.Note) : List String :=
  (notes.filter (·.kind = kind)).map Audit.Note.entityId

@[simp] theorem noted_append (kind : Audit.Kind) (notes more : List Audit.Note) :
    noted kind (notes ++ more) = noted kind notes ++ noted kind more := by
  simp [noted]

/-- The notes that have been submitted are on the rules that have been created and deleted, and the
trail is what has been kept of them. -/
structure Accounts (g : Registry) (notes : List Audit.Note) : Prop where
  isNow : g.isDeferred = false
  queue : g.queue = []
  sound : g.store.Sound
  fresh : Function.Injective g.store.marks.rule
  keeps : g.store.Keeps (noted .ruleCreated notes) (noted .ruleDeleted notes)
  told : g.trail.Sublist (notes.map Audit.Note.content)
  complete : (∀ n f, writeReport n f ∉ g.log) → g.trail = notes.map Audit.Note.content

/-- More notes have been submitted, and no event has gone. -/
structure Advances (g : Registry) (notes more : List Audit.Note) (g' : Registry) : Prop where
  accounts : Accounts g' (notes ++ more)
  events : g.store.tables.events <+: g'.store.tables.events

/-- The notes on what has been done to the rules are submitted. -/
theorem Accounts.submit {g u : Registry} {notes more : List Audit.Note} (h : Accounts g notes)
    (hu : Prepared g u) (hkeeps : u.store.Keeps (noted .ruleCreated (notes ++ more))
      (noted .ruleDeleted (notes ++ more))) :
    Advances g notes more (more.foldl Registry.submit u) := by
  have htells := writeAll_tells hu.sound more
  obtain ⟨hqueue, hnow, -⟩ := writeAll_fields hu.sound more
  obtain ⟨kept, hkept, htrail, hall⟩ := htells.told
  have htrail' : (u.writeAll more).trail = g.trail ++ kept.map Audit.Note.content := by
    rw [htrail, trail, trail, hu.events]
  rw [foldl_submit hu.sound, if_neg (by simp [hu.isDeferred, h.isNow])]
  refine ⟨⟨?_, ?_, (writeAll_quiet more).sound u hu.sound, ?_, ?_, ?_, fun hnone => ?_⟩, ?_⟩
  · rw [hnow, hu.isDeferred, h.isNow]
  · rw [hqueue, hu.queue, h.queue]
  · rw [htells.follows.marks, hu.store.marks]
    exact h.fresh
  · exact hkeeps.same htells.follows.marks htells.rules htells.issued
  · rw [htrail', List.map_append]
    exact h.told.append (hkept.map _)
  · have hbefore : ∀ n f, writeReport n f ∉ g.log :=
      fun n f hmem => hnone n f (htells.log.subset (hu.log.subset hmem))
    rw [htrail', h.complete hbefore, hall hnone, List.map_append]
  · exact hu.events ▸ htells.events

theorem Accounts.untouched {g g' : Registry} {notes : List Audit.Note} (h : Accounts g notes)
    (huntouched : Untouched g g') : Advances g notes [] g' where
  accounts := {
    isNow := huntouched.isDeferred.trans h.isNow
    queue := huntouched.queue.trans h.queue
    sound := h.sound.unmoved huntouched.store
    fresh := by
      rw [huntouched.store.marks]
      exact h.fresh
    keeps := by
      rw [List.append_nil]
      exact h.keeps.same huntouched.store.marks
        (congrArg Store.Tables.rules huntouched.store.tables)
        (congrArg (fun t => t.issued.rules) huntouched.store.tables)
    told := by
      rw [trail, huntouched.store.tables, List.append_nil]
      exact h.told
    complete := by
      rw [trail, huntouched.log, huntouched.store.tables, List.append_nil]
      exact h.complete }
  events := huntouched.store.tables ▸ List.prefix_refl _

/-! ## Requests -/

theorem noted_created (reason actor : Option String) (rs : List Rule) :
    noted .ruleCreated (rs.map (createdNote reason actor)) = rs.map Rule.id ∧
      noted .ruleDeleted (rs.map (createdNote reason actor)) = [] := by
  induction rs with
  | nil => exact ⟨rfl, rfl⟩
  | cons r rs ih => exact ⟨congrArg (r.id :: ·) ih.1, ih.2⟩

/-- Rules that have been written are accounted for once the notes on them have been submitted. -/
theorem Accounts.create {g u : Registry} {notes : List Audit.Note} (h : Accounts g notes)
    (hu : Prepared g u) {last : Int} {ds : List Draft}
    (htables : u.store.tables = g.store.tables.withRules last
      (Store.rulesFrom g.store.marks g.store.tables.issued.rules ds))
    (reason actor : Option String) :
    let new := (Store.rulesFrom g.store.marks g.store.tables.issued.rules ds).map
      (createdNote reason actor)
    Advances g notes new (new.foldl Registry.submit u) := by
  intro new
  obtain ⟨hcreated, hdeleted⟩ := noted_created reason actor
    (Store.rulesFrom g.store.marks g.store.tables.issued.rules ds)
  refine h.submit hu ?_
  rw [noted_append, noted_append, hcreated, hdeleted, List.append_nil]
  exact h.keeps.create h.fresh hu.store.marks htables

theorem create_advances {g g' : Registry} {notes : List Audit.Note} (h : Accounts g notes)
    {record : Json} {actor : Option String} {r : Rule}
    (hcreate : g.create record actor = (.ok r, g')) :
    Advances g notes [createdNote none actor r] g' := by
  obtain ⟨c, hc, -⟩ := h.sound.numbered
  obtain ⟨u, -, hw, hprepared, rfl⟩ := create_done h.sound hcreate
  obtain ⟨heq, htables, -⟩ := Store.insertRule_ok h.sound.failing hc hw
  have hnext : [g.store.nextRule r.draft] =
      Store.rulesFrom g.store.marks g.store.tables.issued.rules [r.draft] := rfl
  rw [hnext] at htables
  have hcreated := h.create hprepared htables none actor
  rwa [← hnext, ← Store.Answer.given.inj heq] at hcreated

theorem createBatch_advances {g g' : Registry} {notes : List Audit.Note} (h : Accounts g notes)
    {records : Json} {actor reason : Option String} {rs : List Rule}
    (hcreate : g.createBatch records actor reason = (.ok rs, g')) :
    Advances g notes (rs.map (createdNote reason actor)) g' := by
  obtain ⟨c, hc, -⟩ := h.sound.numbered
  obtain ⟨items, ds, -, -, -, hdistinct⟩ := createBatch_ok hcreate
  obtain ⟨u, hw, hnow, hqueue, hlog, rfl⟩ := createDistinct_ok h.sound hdistinct
  have hfollows := Store.insertRules_follows g.store (distinct [] ds)
  have hsound := Store.insertRules_sound h.sound (distinct [] ds)
  rw [hw] at hfollows hsound
  obtain ⟨heq, htables, -⟩ := Store.insertRules_ok h.sound.failing hc hw
  have hrs : Store.rulesFrom g.store.marks g.store.tables.issued.rules (distinct [] ds) = rs :=
    List.map_injective_iff.mpr (fun _ _ => Store.Answer.given.inj)
      (Store.Answer.given.inj heq).symm
  have hevents : u.store.tables.events = g.store.tables.events := by
    rw [htables, Store.Tables.events_withRules]
  have hprepared : Prepared g u :=
    ⟨hfollows, hsound, hevents, hnow, hqueue, hlog ▸ List.prefix_append _ _⟩
  have hcreated := h.create hprepared htables reason actor
  rwa [hrs] at hcreated

theorem delete_advances {g g' : Registry} {notes : List Audit.Note} (h : Accounts g notes)
    {id : String} {actor : Option String} (hdelete : g.delete id actor = (.ok (), g')) :
    ∃ r, Advances g notes [deletedNote r id actor] g' := by
  obtain ⟨r, u, hr, hprepared, htables, rfl⟩ := delete_done h.sound hdelete
  have hkeeps : u.store.Keeps (noted .ruleCreated (notes ++ [deletedNote r id actor]))
      (noted .ruleDeleted (notes ++ [deletedNote r id actor])) := by
    rw [noted_append, noted_append]
    exact (List.append_nil (noted .ruleCreated notes)).symm ▸
      h.keeps.delete hprepared.store.marks hr htables
  exact ⟨r, h.submit hprepared hkeeps⟩

/-- The rules that a request has created, going by the reply. -/
def createdBy : Request → Except Failure Reply → List String
  | .change (.create ..), .ok (.rule r) => [r.id]
  | .change (.createBatch ..), .ok (.rules rs) => rs.map Rule.id
  | _, _ => []

/-- The rules that a request has deleted, going by the reply. -/
def deletedBy : Request → Except Failure Reply → List String
  | .change (.delete id _), .ok _ => [id]
  | _, _ => []

/-- A request that fails has created and deleted nothing. -/
theorem by_error (c : Change) (f : Failure) :
    createdBy (.change c) (.error f) = [] ∧ deletedBy (.change c) (.error f) = [] := by
  cases c <;> exact ⟨rfl, rfl⟩

theorem replying_eq_ok {α : Type} {o : Outcome α} {reply : α → Reply} {r : Reply}
    {g' : Registry} (h : replying reply o = (.ok r, g')) : ∃ a, o = (.ok a, g') ∧ reply a = r := by
  rcases o with ⟨e | a, u⟩
  · cases h
  · cases h
    exact ⟨a, rfl, rfl⟩

/-- A request on rules submits notes on what it creates and deletes. -/
theorem perform_advances {g : Registry} {notes : List Audit.Note} (h : Accounts g notes)
    {q : Request} (hq : q.IsOnRules) :
    ∃ more, Advances g notes more (g.perform q).2 ∧
      noted .ruleCreated more = createdBy q (g.perform q).1 ∧
      noted .ruleDeleted more = deletedBy q (g.perform q).1 := by
  cases q with
  | list action =>
    exact ⟨[], h.untouched ⟨g.store.listRules_unmoved action, rfl, rfl, rfl⟩, rfl, rfl⟩
  | change c =>
    have hperform : g.perform (.change c) = g.make c := rfl
    rw [hperform]
    rcases hmake : g.make c with ⟨f | reply, g'⟩
    · obtain ⟨hcreated, hdeleted⟩ := by_error c f
      exact ⟨[], h.untouched (make_error h.sound hmake), hcreated.symm, hdeleted.symm⟩
    · cases c with
      | create record actor =>
        obtain ⟨r, hcreate, rfl⟩ := replying_eq_ok hmake
        exact ⟨_, create_advances h hcreate, rfl, rfl⟩
      | createBatch records actor reason =>
        obtain ⟨rs, hcreate, rfl⟩ := replying_eq_ok hmake
        exact ⟨_, createBatch_advances h hcreate, noted_created reason actor rs⟩
      | delete id actor =>
        obtain ⟨⟨⟩, hdelete, rfl⟩ := replying_eq_ok hmake
        obtain ⟨r, hdeleted⟩ := delete_advances h hdelete
        exact ⟨_, hdeleted, rfl, rfl⟩
      | insertThread | insertTask | deleteTask => exact hq.elim
  | _ => exact hq.elim

end Registry

end MailRules
