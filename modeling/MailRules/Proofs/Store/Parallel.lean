import MailRules.Proofs.Store.Events
import MailRules.Proofs.Store.Rules
import MailRules.Proofs.Store.Threads

set_option autoImplicit false

/-!
# Reading from two stores

A relation of stores is `Parallel` if related stores are both open or both closed and disturbed in
the same way, and stay related when a call is counted. What is read from such stores is the same,
and goes wrong in the same way, if the rows that are asked for are (`Together`).
-/

namespace MailRules.Store

variable {α β : Type} {R : Store → Store → Prop} {s t : Store}

/-- The same can go wrong when related stores are read. -/
structure Parallel (R : Store → Store → Prop) : Prop where
  isOpen : ∀ {s t}, R s t → s.isOpen = t.isOpen
  disturbances : ∀ {s t}, R s t → s.disturbances = t.disturbances
  count : ∀ {s t}, R s t → ∀ {ds}, Recounted s.disturbances ds →
    R { s with disturbances := ds } { t with disturbances := ds }

/-- The same comes of an operation on two stores, and it leaves related stores. -/
def Together (R : Store → Store → Prop) (o p : Outcome α) : Prop :=
  o.1 = p.1 ∧ R o.2 p.2

theorem together_answer (h : R s t) (r : Except Failure α) : Together R (r, s) (r, t) :=
  ⟨rfl, h⟩

theorem andThen_together {o p : Outcome α} (h : Together R o p)
    {next next' : α → Store → Outcome β}
    (hnext : ∀ a s t, R s t → Together R (next a s) (next' a t)) :
    Together R (o.andThen next) (p.andThen next') := by
  obtain ⟨r, s⟩ := o
  obtain ⟨q, t⟩ := p
  obtain ⟨heq, hst⟩ := h
  obtain rfl : r = q := heq
  rcases r with f | a
  · exact together_answer hst _
  · exact hnext a s t hst

theorem given_together {o p : Outcome α} (h : Together R o p) : Together R o.given p.given :=
  ⟨congrArg (Except.map Answer.given) h.1, h.2⟩

/-- The same disturbance strikes on both stores. -/
theorem guarded_together (hR : Parallel R) (h : R s t) {run run' : Store → Outcome α}
    (hrun : ∀ s t, R s t → Together R (run s) (run' t)) (op : Operation)
    (subject : Option String) (instead : Json → Except Failure α) :
    Together R (s.guarded op subject instead run) (t.guarded op subject instead run') := by
  have hcount := hR.count h (strike_recounted op subject s.disturbances)
  unfold guarded
  rw [← hR.disturbances h]
  rcases hs : strike op subject s.disturbances with ⟨_ | r | v, ds⟩
  all_goals rw [hs] at hcount
  · exact hrun _ _ hcount
  · exact together_answer hcount _
  · exact together_answer hcount _

theorem answered_together (hR : Parallel R) (h : R s t) {run run' : Store → Outcome (Answer α)}
    (hrun : ∀ s t, R s t → Together R (run s) (run' t)) (op : Operation)
    (subject : Option String) :
    Together R (s.answered op subject run) (t.answered op subject run') :=
  guarded_together hR h hrun op subject _

theorem question_together (hR : Parallel R) (h : R s t) {rows : Tables → Except Failure (List α)}
    (hrows : ∀ s t, R s t → rows s.tables = rows t.tables) :
    Together R (s.question rows) (t.question rows) := by
  refine answered_together hR h (fun s t hst => ?_) _ _
  rw [hR.isOpen hst, hrows s t hst]
  split
  · exact given_together (together_answer hst _)
  · exact together_answer hst _

/-! ## Rules, events and tasks -/

theorem readRule_together (hR : Parallel R) (h : R s t) (row : Answer Rule) :
    Together R (s.readRule row) (t.readRule row) :=
  answered_together hR h (fun _ _ hst => given_together (together_answer hst _)) _ _

theorem readRules_together (hR : Parallel R) (h : R s t) (rows : List (Answer Rule)) :
    Together R (s.readRules rows) (t.readRules rows) := by
  induction rows generalizing s t with
  | nil => exact together_answer h _
  | cons row rows ih =>
    rw [readRules_cons, readRules_cons]
    exact andThen_together (readRule_together hR h row) fun a s t hst =>
      andThen_together (ih hst) fun as s t hst => together_answer hst _

theorem findRule_together (hR : Parallel R) (h : R s t) {id : String}
    (hrule : ∀ s t, R s t → s.tables.rule? id = t.tables.rule? id) :
    Together R (s.findRule id) (t.findRule id) := by
  rw [findRule_eq, findRule_eq]
  refine answered_together hR h (fun s t hst => ?_) _ _
  refine andThen_together (question_together hR hst fun s t hst => by rw [hrule s t hst])
    fun rows s t hst => ?_
  split
  · exact together_answer hst _
  · exact together_answer hst _
  · exact andThen_together (readRule_together hR hst _) fun a s t hst => together_answer hst _

theorem listRules_together (hR : Parallel R) (h : R s t) {action : Option RuleAction}
    (hlisted : ∀ s t, R s t → s.tables.listed action = t.tables.listed action) :
    Together R (s.listRules action) (t.listRules action) := by
  rw [listRules_eq, listRules_eq]
  refine answered_together hR h (fun s t hst => ?_) _ _
  refine andThen_together (question_together hR hst fun s t hst => by rw [hlisted s t hst])
    fun rows s t hst => ?_
  split
  · exact together_answer hst _
  · exact given_together (readRules_together hR hst _)

theorem listEvents_together (hR : Parallel R) (h : R s t) {limit : Int}
    (hevents : ∀ s t, R s t → newestFirst s.tables.events = newestFirst t.tables.events) :
    Together R (s.listEvents limit) (t.listEvents limit) := by
  rw [listEvents_eq, listEvents_eq]
  refine answered_together hR h (fun s t hst => ?_) _ _
  exact andThen_together (question_together hR hst fun s t hst => by rw [hevents s t hst])
    fun rows s t hst => together_answer hst _

theorem listTasks_together (hR : Parallel R) (h : R s t)
    (hviews : ∀ s t, R s t → s.tables.tasks.map s.tables.view = t.tables.tasks.map t.tables.view) :
    Together R s.listTasks t.listTasks := by
  rw [listTasks_eq, listTasks_eq]
  refine answered_together hR h (fun s t hst => ?_) _ _
  exact andThen_together (question_together hR hst fun s t hst => by rw [hviews s t hst])
    fun rows s t hst => given_together (together_answer hst _)

theorem countTasks_together (hR : Parallel R) (h : R s t)
    (htasks : ∀ s t, R s t → s.tables.tasks = t.tables.tasks) :
    Together R s.countTasks t.countTasks := by
  rw [countTasks_eq, countTasks_eq]
  refine answered_together hR h (fun s t hst => ?_) _ _
  exact andThen_together (question_together hR hst fun s t hst => by rw [htasks s t hst])
    fun rows s t hst => together_answer hst _

end MailRules.Store
