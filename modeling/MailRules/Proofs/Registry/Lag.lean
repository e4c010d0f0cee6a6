import MailRules.Proofs.Registry.Batch
import MailRules.Proofs.Store.Lag

set_option autoImplicit false

/-!
# Runs whose events differ

Requests that create, delete and list rules (`Request.IsOnRules`) get the same replies whether the
events on them can be written or not (`replies_of_lags`), as long as the registry in which they can
does not get spent.
-/

namespace MailRules

/-! ## Notes on rules -/

theorem Json.haveWritable_redacted {ms : Members Json} (h : ∀ m ∈ ms, ∃ s, m.2 = .str s) :
    Json.haveWritable (Privacy.Detail.redactMembers (Privacy.Detail.ofMembers ms)) = true := by
  induction ms with
  | nil => rfl
  | cons m ms ih =>
    obtain ⟨⟨s, hs⟩, hms⟩ := List.forall_mem_cons.mp h
    obtain ⟨name, v⟩ := m
    obtain rfl : v = .str s := hs
    exact ih hms

namespace Registry

theorem ruleDetails_texts (r : Rule) (reason : Option String) :
    ∀ m ∈ ruleDetails r reason, ∃ s, m.2 = .str s := by
  have hmember (name : String) (text : Option String) :
      ∀ m ∈ memberOf name text, ∃ s, m.2 = .str s := by
    cases text <;> simp [memberOf]
  intro m hm
  rcases List.mem_append.mp hm with hm | hm
  · rcases List.mem_append.mp hm with hm | hm
    · simp only [List.mem_cons, List.not_mem_nil, or_false] at hm
      rcases hm with rfl | rfl | rfl <;> exact ⟨_, rfl⟩
    · exact hmember _ _ m hm
  · exact hmember _ _ m hm

/-- Nothing in the details of a note on a rule keeps it from being written. -/
theorem createdNote_written (reason actor : Option String) (r : Rule) :
    Store.refusal? (createdNote reason actor r) = none := by
  have hwritable : (createdNote reason actor r).isWritable = true :=
    Json.haveWritable_redacted (ruleDetails_texts r reason)
  unfold Store.refusal?
  rw [hwritable]
  rfl

theorem deletedNote_written (r : Rule) (id : String) (actor : Option String) :
    Store.refusal? (deletedNote r id actor) = none := by
  have hwritable : (deletedNote r id actor).isWritable = true :=
    Json.haveWritable_redacted (ruleDetails_texts r none)
  unfold Store.refusal?
  rw [hwritable]
  rfl

/-! ## One registry behind the other -/

/-- A registry whose store lags behind that of another one; both write events at once. -/
structure Lags (g h : Registry) : Prop where
  store : g.store.Lags h.store
  isNow : g.isDeferred = false
  leadIsNow : h.isDeferred = false

variable {α β : Type} {g h : Registry}

/-- The same has come of an operation on two registries, and the first still lags behind the second,
unless that is spent. -/
def KeepsLag (o p : α × Registry) : Prop :=
  p.2.store.IsSpent ∨ o.1 = p.1 ∧ Lags o.2 p.2

theorem Lags.sayAll (hgh : Lags g h) (es fs : List Log.Entry) :
    Lags (g.sayAll es) (h.sayAll fs) :=
  ⟨hgh.store, hgh.isNow, hgh.leadIsNow⟩

theorem Lags.submit (hgh : Lags g h) {n : Audit.Note} (hn : Store.refusal? n = none) :
    Lags (g.submit n) (h.submit n) := by
  rw [submit_now hgh.isNow, submit_now hgh.leadIsNow]
  refine ⟨?_, (write_cases hgh.store.sound n).2.1.trans hgh.isNow,
    (write_cases hgh.store.leadSound n).2.1.trans hgh.leadIsNow⟩
  rw [write_store, write_store]
  exact hgh.store.insertEvent hn

theorem Lags.foldl_submit (hgh : Lags g h) {notes : List Audit.Note}
    (hnotes : ∀ n ∈ notes, Store.refusal? n = none) :
    Lags (notes.foldl Registry.submit g) (notes.foldl Registry.submit h) := by
  induction notes generalizing g h with
  | nil => exact hgh
  | cons n notes ih =>
    obtain ⟨hn, hrest⟩ := List.forall_mem_cons.mp hnotes
    exact ih (hgh.submit hn) hrest

/-- Goes on with the same result. -/
theorem KeepsLag.after {o p : Outcome α} (hop : KeepsLag o p)
    {next : α → Registry → Outcome β}
    (hnext : ∀ a g h, Lags g h → KeepsLag (next a g) (next a h))
    (hfollows : ∀ a (h : Registry), h.store.Follows (next a h).2.store) :
    KeepsLag (after o next) (after p next) := by
  obtain ⟨r, k⟩ := o
  obtain ⟨q, l⟩ := p
  rcases hop with hspent | ⟨heq, hlags⟩
  · refine Or.inl ?_
    rcases q with f | a
    · exact hspent
    · exact hspent.follows (hfollows a l)
  · obtain rfl : r = q := heq
    rcases r with f | a
    · exact Or.inr ⟨rfl, hlags⟩
    · exact hnext a k l hlags

/-- The same answer of both stores is taken. -/
theorem keepsLag_taking {work : Store → Store.Outcome (Store.Answer α)}
    {instead : Json → Except Failure α} (hgh : Lags g h)
    (hwork : ¬(work h.store).2.IsSpent → ∃ a s t, work g.store = (.ok a, s) ∧
      work h.store = (.ok a, t) ∧ s.Lags t) :
    KeepsLag (g.taking instead work) (h.taking instead work) := by
  by_cases hspent : (work h.store).2.IsSpent
  · exact Or.inl hspent
  · obtain ⟨a, s, t, hg, hh, hst⟩ := hwork hspent
    refine Or.inr ?_
    simp only [taking, hg, hh]
    exact ⟨trivial, hst, hgh.isNow, hgh.leadIsNow⟩

theorem create_keepsLag (hgh : Lags g h) (record : Json) (actor : Option String) :
    KeepsLag (g.create record actor) (h.create record actor) := by
  rcases hd : canonicalOf record with r | d
  · simp only [create, hd]
    exact Or.inr ⟨rfl, hgh⟩
  · simp only [create, hd, createCanonical_eq]
    refine (keepsLag_taking hgh fun hlasts => ?_).after ?_ ?_
    · obtain ⟨s, t, hs, ht, hst⟩ := hgh.store.insertRule (canonicalOf_fits hd) hlasts
      exact ⟨_, s, t, hs, ht, hst⟩
    · intro r k l hkl
      exact Or.inr ⟨rfl, (hkl.sayAll _ _).submit (createdNote_written none actor r)⟩
    · intro r k
      exact (submit_quiet (createdNote none actor r)).follows (k.sayCreated r)

/-- What comes of a batch before the store is asked does not depend on the registry: it is refused,
or drafts are found that can be kept. -/
theorem createBatch_cases (records : Json) (actor reason : Option String) :
    (∃ f, ∀ g : Registry, g.createBatch records actor reason = (.error f, g)) ∨
      ∃ ds duplicates, (∀ d ∈ ds, d.confidence.all Number.fits = true) ∧
        ∀ g : Registry, g.createBatch records actor reason =
          g.createDistinct ds duplicates actor reason := by
  unfold createBatch
  rcases hread : Draft.ofBatch records with f | drafts
  · exact Or.inl ⟨f, fun g => rfl⟩
  · simp only
    rcases hcanonical : canonicalBatch drafts with r | ds
    · exact Or.inl ⟨_, fun g => rfl⟩
    · have hfits := canonicalBatch_fits hread hcanonical
      exact Or.inr ⟨distinct [] ds, _, fun d hd => hfits d ((distinct_sublist [] ds).subset hd),
        fun g => rfl⟩

theorem createBatch_keepsLag (hgh : Lags g h) (records : Json) (actor reason : Option String) :
    KeepsLag (g.createBatch records actor reason) (h.createBatch records actor reason) := by
  obtain ⟨f, hrefused⟩ | ⟨ds, duplicates, hfits, hcreated⟩ :=
    createBatch_cases records actor reason
  · rw [hrefused, hrefused]
    exact Or.inr ⟨rfl, hgh⟩
  · rw [hcreated, hcreated, createDistinct_eq, createDistinct_eq]
    refine (keepsLag_taking hgh fun hlasts => ?_).after ?_ ?_
    · obtain ⟨s, t, hs, ht, hst⟩ := hgh.store.insertRules hfits hlasts
      exact ⟨_, s, t, hs, ht, hst⟩
    · intro as k l hkl
      simp only [reportBatch_eq, foldl_recordCreated]
      refine Or.inr ⟨rfl, (hkl.sayAll [_] [_]).foldl_submit ?_⟩
      intro n hn
      obtain ⟨r, -, rfl⟩ := List.mem_map.mp hn
      exact createdNote_written reason actor r
    · intro as k
      exact (reportBatch_steady as _ actor reason).follows k

theorem delete_keepsLag (hgh : Lags g h) (id : String) (actor : Option String) :
    KeepsLag (g.delete id actor) (h.delete id actor) := by
  unfold delete
  rw [lookUp_willing hgh.store.willing, lookUp_willing hgh.store.leadWilling, hgh.store.rule? id]
  cases h.store.tables.rule? id with
  | none => exact Or.inr ⟨rfl, hgh⟩
  | some r =>
    obtain ⟨s, t, hs, ht, hst⟩ := hgh.store.deleteRule id
    simp only [found, deleteFound, withStore, hs, ht]
    split
    · have hlags : Lags { g with store := s } { h with store := t } :=
        ⟨hst, hgh.isNow, hgh.leadIsNow⟩
      exact Or.inr ⟨rfl, (hlags.sayAll [_] [_]).submit (deletedNote_written r id actor)⟩
    · exact Or.inr ⟨rfl, hst, hgh.isNow, hgh.leadIsNow⟩

theorem list_keepsLag (hgh : Lags g h) (action : Option RuleAction) :
    KeepsLag (g.list action) (h.list action) := by
  rw [list_willing hgh.store.willing, list_willing hgh.store.leadWilling, hgh.store.listed action]
  exact Or.inr ⟨rfl, hgh⟩

/-! ## Requests -/

/-- The requests that create, delete and list rules. -/
def Request.IsOnRules : Request → Prop
  | .change (.create ..) | .change (.createBatch ..) | .change (.delete ..) | .list .. => True
  | _ => False

theorem replying_keepsLag {o p : Outcome α} (hop : KeepsLag o p) (reply : α → Reply) :
    KeepsLag (replying reply o) (replying reply p) := by
  rcases hop with hspent | ⟨heq, hlags⟩
  · exact Or.inl hspent
  · exact Or.inr ⟨congrArg (Except.map reply) heq, hlags⟩

/-- Nothing that comes of a request on rules tells whether events have been written. -/
theorem perform_keepsLag (hgh : Lags g h) {q : Request} (hq : q.IsOnRules) :
    KeepsLag (g.perform q) (h.perform q) := by
  cases q with
  | change c =>
    cases c with
    | create record actor => exact replying_keepsLag (create_keepsLag hgh record actor) _
    | createBatch records actor reason =>
      exact replying_keepsLag (createBatch_keepsLag hgh records actor reason) _
    | delete id actor => exact replying_keepsLag (delete_keepsLag hgh id actor) _
    | insertThread | insertTask | deleteTask => exact hq.elim
  | list action => exact replying_keepsLag (list_keepsLag hgh action) _
  | _ => exact hq.elim

/-- The store is not spent after the first of the requests either. -/
theorem Lasts.perform {q : Request} {qs : List Request} (h : Lasts g (q :: qs)) :
    ¬(g.perform q).2.store.IsSpent := by
  cases qs with
  | nil => exact h.2
  | cons => exact h.2.1

/-- Requests on rules get the same replies whether events can be written or not. -/
theorem replies_of_lags (hgh : Lags g h) {qs : List Request} (hqs : ∀ q ∈ qs, q.IsOnRules)
    (hlasts : h.Lasts qs) : g.replies qs = h.replies qs := by
  induction qs generalizing g h with
  | nil => rfl
  | cons q qs ih =>
    obtain ⟨hq, hrest⟩ := List.forall_mem_cons.mp hqs
    rcases perform_keepsLag hgh hq with hspent | ⟨heq, hlags⟩
    · exact absurd hspent hlasts.perform
    · unfold replies
      rw [heq, ih hlags hrest hlasts.2]

end Registry

end MailRules
