import MailRules.Proofs.Store.Follow

set_option autoImplicit false

/-!
# What operations on threads and tasks do

Adding a thread or a task, and deleting a task, either succeeds or leaves the tables alone. Listing
and counting tasks moves nothing.
-/

namespace MailRules.Store

theorem listTasks_eq (s : Store) :
    s.listTasks = s.answered .listTasks none fun s =>
      (s.question fun t => .ok (t.tasks.map t.view)).andThen fun rows s =>
        Outcome.given ((eachRow rows).bind fun rows => rows.mapM fun row => row.take taskIn, s)
      := by
  unfold listTasks
  congr 1
  funext s
  rcases s.question _ with ⟨_ | rows, u⟩ <;> rfl

theorem countTasks_eq (s : Store) :
    s.countTasks = s.answered .countTasks none fun s =>
      (s.question fun t => .ok [t.tasks.length]).andThen fun rows s => (countIn rows, s) := by
  unfold countTasks
  congr 1
  funext s
  rcases s.question _ with ⟨_ | rows, u⟩ <;> rfl

theorem writeThread_follows (s : Store) (participants subject id : Option String) :
    Follows s (s.writeThread participants subject id).2 := by
  refine statement_follows (fun s => ?_) s _
  split
  · exact Follows.refl s
  · exact Follows.withTables s _

theorem writeTask_follows (s : Store) (title thread id : Option String) :
    Follows s (s.writeTask title thread id).2 := by
  refine statement_follows (fun s => ?_) s _
  split
  · exact Follows.refl s
  · split
    · exact Follows.refl s
    · split
      · exact Follows.refl s
      · exact Follows.withTables s _

theorem eraseTask_follows (s : Store) (id : String) : Follows s (s.eraseTask id).2 :=
  statement_follows (fun s => Follows.withTables s _) s _

theorem insertThread_follows (s : Store) (participants subject id : Option String) :
    Follows s (s.insertThread participants subject id).2 := by
  refine answered_follows (fun s => ?_) s _ _
  exact transaction_follows (fun s => writeThread_follows s participants subject id) s

theorem insertThread_error {s t : Store} {participants subject id : Option String} {f : Failure}
    (h : s.insertThread participants subject id = (.error f, t)) : Unmoved s t := by
  refine answered_error (fun s f t h => ?_) h
  exact transaction_error (fun s => writeThread_follows s participants subject id)
    (given_eq_error.mp h)

/-- A thread that is added goes to the end; its identifier is new. -/
theorem insertThread_ok {s t : Store} (hf : Failing s.disturbances)
    {participants subject id : Option String} {a : Answer String}
    (h : s.insertThread participants subject id = (.ok a, t)) :
    ∃ new issued, a = .given new ∧ s.tables.thread? new = none ∧
      t.tables = { s.tables with
        threads := s.tables.threads ++ [⟨new, subject, participants⟩], issued := issued } := by
  obtain ⟨u, hu, hrun⟩ := answered_ok hf h
  obtain ⟨new, rfl, hdone⟩ := given_eq_ok hrun
  obtain ⟨v, w, hv, hwork, rfl⟩ := transaction_ok (hf.recounted hu.recounted) hdone
  have hready := hu.trans hv
  obtain ⟨x, hx, hwritten⟩ := statement_ok (hf.recounted hready.recounted) hwork
  have htables := (hready.trans hx).tables
  split at hwritten
  · cases hwritten
  · rename_i hnew
    cases hwritten
    rw [htables] at hnew ⊢
    exact ⟨_, _, rfl, by simpa using hnew, rfl⟩

theorem insertTask_follows (s : Store) (title thread id : Option String) :
    Follows s (s.insertTask title thread id).2 := by
  refine answered_follows (fun s => ?_) s _ _
  exact transaction_follows (fun s => writeTask_follows s title thread id) s

theorem insertTask_error {s t : Store} {title thread id : Option String} {f : Failure}
    (h : s.insertTask title thread id = (.error f, t)) : Unmoved s t := by
  refine answered_error (fun s f t h => ?_) h
  exact transaction_error (fun s => writeTask_follows s title thread id) (given_eq_error.mp h)

/-- A task that is added goes to the end; its identifier is new, and its thread exists. -/
theorem insertTask_ok {s t : Store} (hf : Failing s.disturbances)
    {title thread id : Option String} {a : Answer String}
    (h : s.insertTask title thread id = (.ok a, t)) :
    ∃ new text issued, a = .given new ∧ title = some text ∧
      (∀ task ∈ s.tables.tasks, task.id ≠ new) ∧
      (∀ key, thread = some key → (s.tables.thread? key).isSome) ∧
      t.tables = { s.tables with
        tasks := s.tables.tasks ++ [⟨new, text, thread⟩], issued := issued } := by
  obtain ⟨u, hu, hrun⟩ := answered_ok hf h
  obtain ⟨new, rfl, hdone⟩ := given_eq_ok hrun
  obtain ⟨v, w, hv, hwork, rfl⟩ := transaction_ok (hf.recounted hu.recounted) hdone
  have hready := hu.trans hv
  obtain ⟨x, hx, hwritten⟩ := statement_ok (hf.recounted hready.recounted) hwork
  have htables := (hready.trans hx).tables
  split at hwritten
  · cases hwritten
  · rename_i text
    split at hwritten
    · cases hwritten
    · split at hwritten
      · cases hwritten
      · rename_i hnew hthread
        cases hwritten
        rw [htables] at hnew hthread ⊢
        refine ⟨_, text, _, rfl, rfl, by simpa using hnew, ?_, rfl⟩
        rintro key rfl
        simpa [Option.isSome_iff_ne_none] using hthread

theorem deleteTask_follows (s : Store) (id : String) : Follows s (s.deleteTask id).2 := by
  refine answered_follows (fun s => ?_) s _ _
  exact transaction_follows (fun s => eraseTask_follows s id) s

theorem deleteTask_error {s t : Store} {id : String} {f : Failure}
    (h : s.deleteTask id = (.error f, t)) : Unmoved s t := by
  refine answered_error (fun s f t h => ?_) h
  exact transaction_error (fun s => eraseTask_follows s id) (given_eq_error.mp h)

/-- The rows with the identifier are gone. -/
theorem deleteTask_ok {s t : Store} (hf : Failing s.disturbances) {id : String}
    {a : Answer Bool} (h : s.deleteTask id = (.ok a, t)) :
    a = .given (s.tables.tasks.any (·.id = id)) ∧
      t.tables = { s.tables with tasks := s.tables.tasks.filter (·.id ≠ id) } := by
  obtain ⟨u, hu, hrun⟩ := answered_ok hf h
  obtain ⟨b, rfl, hdone⟩ := given_eq_ok hrun
  obtain ⟨v, w, hv, hwork, rfl⟩ := transaction_ok (hf.recounted hu.recounted) hdone
  have hready := hu.trans hv
  obtain ⟨x, hx, herased⟩ := statement_ok (hf.recounted hready.recounted) hwork
  have htables := (hready.trans hx).tables
  cases herased
  exact ⟨by rw [htables], by simp only [htables]⟩

theorem listTasks_unmoved (s : Store) : Unmoved s s.listTasks.2 := by
  rw [listTasks_eq]
  exact answered_unmoved
    (fun s => andThen_unmoved (question_unmoved s _) fun rows u => Unmoved.refl u) s _ _

theorem countTasks_unmoved (s : Store) : Unmoved s s.countTasks.2 := by
  rw [countTasks_eq]
  exact answered_unmoved
    (fun s => andThen_unmoved (question_unmoved s _) fun rows u => Unmoved.refl u) s _ _

end MailRules.Store
