import MailRules.Proofs.Registry.Steady
import MailRules.Proofs.Store.Willing

set_option autoImplicit false

/-!
# What operations on rules come to

For each operation of the registry on rules: that it touches nothing when it fails (`Untouched`),
and what it gives and leaves when it succeeds.
-/

namespace MailRules

namespace Registry

variable {α β : Type}

/-- At most the counts of ranks and calls have changed. -/
structure Untouched (g g' : Registry) : Prop where
  store : g.store.Unmoved g'.store
  isDeferred : g'.isDeferred = g.isDeferred
  queue : g'.queue = g.queue
  log : g'.log = g.log

theorem Untouched.refl (g : Registry) : Untouched g g :=
  ⟨Store.Unmoved.refl g.store, rfl, rfl, rfl⟩

theorem Untouched.trans {g h k : Registry} (hgh : Untouched g h) (hhk : Untouched h k) :
    Untouched g k :=
  ⟨hgh.store.trans hhk.store, hhk.isDeferred.trans hgh.isDeferred, hhk.queue.trans hgh.queue,
    hhk.log.trans hgh.log⟩

/-- The rules may have been changed; the notes on it are still to be submitted. -/
structure Prepared (g u : Registry) : Prop where
  store : g.store.Follows u.store
  sound : u.store.Sound
  events : u.store.tables.events = g.store.tables.events
  isDeferred : u.isDeferred = g.isDeferred
  queue : u.queue = g.queue
  log : g.log <+: u.log

/-- A failure is that of the first part or of the second. -/
theorem after_eq_error {o : Outcome α} {next : α → Registry → Outcome β} {f : Failure}
    {g' : Registry} (h : after o next = (.error f, g')) :
    o = (.error f, g') ∨ ∃ a u, o = (.ok a, u) ∧ next a u = (.error f, g') := by
  rcases o with ⟨e | a, u⟩
  · refine Or.inl ?_
    cases h
    rfl
  · exact Or.inr ⟨a, u, rfl, h⟩

theorem withStore_error {work : Store → Store.Outcome α} {g g' : Registry} {f : Failure}
    (hwork : ∀ f t, work g.store = (.error f, t) → g.store.Unmoved t)
    (h : g.withStore work = (.error f, g')) : Untouched g g' := by
  unfold withStore at h
  rcases hw : work g.store with ⟨e | a, t⟩
  · rw [hw] at h
    cases h
    exact ⟨hwork f t hw, rfl, rfl, rfl⟩
  · rw [hw] at h
    cases h

/-- An answer that is given is taken as it is, so that only the work itself can fail. -/
theorem taking_error {work : Store → Store.Outcome (Store.Answer α)} {g g' : Registry}
    {f : Failure} {instead : Json → Except Failure α}
    (hwork : ∀ f t, work g.store = (.error f, t) → g.store.Unmoved t)
    (hgiven : ∀ a t, work g.store = (.ok a, t) → ∃ b, a = .given b)
    (h : g.taking instead work = (.error f, g')) : Untouched g g' := by
  unfold taking at h
  rcases hw : work g.store with ⟨e | a, t⟩
  · rw [hw] at h
    cases h
    exact ⟨hwork _ t hw, rfl, rfl, rfl⟩
  · obtain ⟨b, rfl⟩ := hgiven a t hw
    rw [hw] at h
    cases h

theorem taking_ok {work : Store → Store.Outcome (Store.Answer α)} {g u : Registry}
    {instead : Json → Except Failure α}
    (hgiven : ∀ a t, work g.store = (.ok a, t) → ∃ b, a = .given b) {b : α}
    (h : g.taking instead work = (.ok b, u)) :
    ∃ t, work g.store = (.ok (.given b), t) ∧ u = { g with store := t } := by
  unfold taking at h
  rcases hw : work g.store with ⟨e | a, t⟩
  · rw [hw] at h
    cases h
  · obtain ⟨d, rfl⟩ := hgiven a t hw
    rw [hw] at h
    cases h
    exact ⟨t, rfl, rfl⟩

/-! ## Changes that fail -/

theorem create_error {g g' : Registry} (hf : Store.Failing g.store.disturbances) {record : Json}
    {actor : Option String} {f : Failure} (h : g.create record actor = (.error f, g')) :
    Untouched g g' := by
  unfold create at h
  split at h
  · cases h
    exact Untouched.refl g
  · rw [createCanonical_eq] at h
    rcases after_eq_error h with hinsert | ⟨r, u, -, hdone⟩
    · exact taking_error (fun _ _ => Store.insertRule_error)
        (fun a t hok => ⟨_, Store.insertRule_given hf hok⟩) hinsert
    · cases hdone

/-- All answers are rules that have been written. -/
theorem leading_given (rs : List Rule) : leading (rs.map .given) = (rs, none) := by
  induction rs with
  | nil => rfl
  | cons r rs ih => simp only [List.map_cons, leading, ih]

theorem createBatch_error {g g' : Registry} (hf : Store.Failing g.store.disturbances)
    {records : Json} {actor reason : Option String} {f : Failure}
    (h : g.createBatch records actor reason = (.error f, g')) : Untouched g g' := by
  unfold createBatch at h
  split at h
  · cases h
    exact Untouched.refl g
  · split at h
    · cases h
      exact Untouched.refl g
    · simp only [createDistinct_eq] at h
      rcases after_eq_error h with hinsert | ⟨as, u, hok, hreport⟩
      · exact taking_error (fun _ _ => Store.insertRules_error)
          (fun a t hok => ⟨_, (Store.insertRules_given hf hok).1⟩) hinsert
      · -- With rules in all its answers, the report on the batch cannot fail.
        obtain ⟨t, hw, -⟩ := taking_ok
          (fun a t hok => ⟨_, (Store.insertRules_given hf hok).1⟩) hok
        obtain ⟨heq, -⟩ := Store.insertRules_given hf hw
        obtain rfl := Store.Answer.given.inj heq
        rw [reportBatch_eq, leading_given] at hreport
        cases hreport

/-- A rule that is looked up is there, and nothing moves meanwhile. -/
theorem lookUp_ok {g u : Registry} (hf : Store.Failing g.store.disturbances) {id member : String}
    {r : Rule} (h : g.lookUp id member = (.ok r, u)) :
    Untouched g u ∧ g.store.tables.rule? id = some r := by
  have hmove := g.store.findRule_unmoved id
  simp only [lookUp, taking] at h
  rcases hfind : g.store.findRule id with ⟨e | a, t⟩
  · rw [hfind] at h
    cases h
  · rw [hfind] at h hmove
    obtain rfl := Store.findRule_ok hf hfind
    cases hrule : g.store.tables.rule? id with
    | none =>
      rw [hrule] at h
      cases h
    | some q =>
      rw [hrule] at h
      cases h
      exact ⟨⟨hmove, rfl, rfl, rfl⟩, rfl⟩

theorem lookUp_error {g g' : Registry} (hf : Store.Failing g.store.disturbances)
    {id member : String} {f : Failure} (h : g.lookUp id member = (.error f, g')) :
    Untouched g g' := by
  have hmove := g.store.findRule_unmoved id
  simp only [lookUp, taking] at h
  rcases hfind : g.store.findRule id with ⟨e | a, t⟩
  · rw [hfind] at h hmove
    cases h
    exact ⟨hmove, rfl, rfl, rfl⟩
  · rw [hfind] at h hmove
    obtain rfl := Store.findRule_ok hf hfind
    cases hrule : g.store.tables.rule? id with
    | none =>
      rw [hrule] at h
      cases h
      exact ⟨hmove, rfl, rfl, rfl⟩
    | some q =>
      rw [hrule] at h
      cases h

theorem deleteFound_error {g g' : Registry} (hf : Store.Failing g.store.disturbances) {r : Rule}
    {id : String} {actor : Option String} {f : Failure} (hr : g.store.tables.rule? id = some r)
    (h : g.deleteFound r id actor = (.error f, g')) : Untouched g g' := by
  simp only [deleteFound, withStore] at h
  rcases hd : g.store.deleteRule id with ⟨e | a, t⟩
  · rw [hd] at h
    cases h
    exact ⟨Store.deleteRule_error hd, rfl, rfl, rfl⟩
  · obtain ⟨rfl, -, -⟩ := Store.deleteRule_ok hf hd
    rw [hd] at h
    simp only [hr, Option.isSome_some, Store.Answer.isTruthy, if_true] at h
    cases h

theorem delete_error {g g' : Registry} (hf : Store.Failing g.store.disturbances) {id : String}
    {actor : Option String} {f : Failure} (h : g.delete id actor = (.error f, g')) :
    Untouched g g' := by
  unfold delete at h
  rcases hl : g.lookUp id "type" with ⟨e | r, u⟩
  · rw [hl] at h
    cases h
    exact lookUp_error hf hl
  · rw [hl] at h
    obtain ⟨huntouched, hr⟩ := lookUp_ok hf hl
    rw [← huntouched.store.tables] at hr
    exact huntouched.trans (deleteFound_error (hf.recounted huntouched.store.recounted) hr h)

/-! ## Rules in a willing store -/

/-- The rule with an identifier is found, and nothing else happens. -/
theorem lookUp_willing {g : Registry} (hw : g.store.Willing) (id member : String) :
    g.lookUp id member = g.found id (g.store.tables.rule? id) := by
  have htaking : g.taking (insteadOfRule member) (fun s => s.findRule id) =
      (.ok (g.store.tables.rule? id), g) := by
    simp only [taking, Store.findRule_willing hw id]
    rfl
  rw [lookUp_eq, htaking]
  rfl

/-- The rules are listed, and nothing else happens. -/
theorem list_willing {g : Registry} (hw : g.store.Willing) (action : Option RuleAction) :
    g.list action = (.ok (g.store.tables.listed action), g) := by
  have hlist := Store.listRules_of_calm (hw.calm .listRules (by decide))
    (hw.calm .question (by decide)) (hw.calm .readRule (by decide)) hw.isOpen action
  simp only [list, takingEach, hlist, Except.bind, Store.Answer.takeEach, Store.takeRows_given]

end Registry

end MailRules
