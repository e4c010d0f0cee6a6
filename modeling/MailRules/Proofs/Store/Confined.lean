import MailRules.Proofs.Store.Events
import MailRules.Proofs.Store.Rules
import MailRules.Proofs.Store.Threads

set_option autoImplicit false

/-!
# What operations are confined to

An operation is `Confined` to a relation of tables if the tables that it leaves are so related to
those before, whatever disturbs it and whatever comes of it. If the relation is `Stepwise`, so that
it holds of doing nothing and of one thing after the other, then guarding an operation or running it
in a transaction stays confined to it too.

* Writing events leaves everything else alone, and adding a thread rules and tasks.
* Changing rules leaves tasks alone, and changing tasks leaves rules alone.
* Deleting a task does no more than that (`Tables.Purged`).
-/

namespace MailRules.Store

variable {α β : Type} {R : Tables → Tables → Prop}

/-- Holds of doing nothing, and of doing one thing after the other. -/
structure Stepwise (R : Tables → Tables → Prop) : Prop where
  refl : ∀ t, R t t
  trans : ∀ {t u v}, R t u → R u v → R t v

/-- What is seen of the tables stays the same. -/
def Tables.Shows (view : Tables → β) (t t' : Tables) : Prop :=
  view t' = view t

/-- Tasks with certain identifiers may have been deleted, and nothing else has been done. -/
def Tables.Purged (may : String → Prop) (t t' : Tables) : Prop :=
  ∃ keep : Task → Bool, t' = { t with tasks := t.tasks.filter keep } ∧
    ∀ u ∈ t.tasks, keep u = false → may u.id

/-- The rules, and how many identifiers of rules have been given out. -/
def Tables.ruleBook (t : Tables) : List (Row Rule) × Nat :=
  (t.rules, t.issued.rules)

/-- The rules, the threads and the tasks. -/
def Tables.contents (t : Tables) : List (Row Rule) × List Thread × List Task :=
  (t.rules, t.threads, t.tasks)

/-- The tables without what comes of events. -/
def Tables.unrecorded (t : Tables) : Tables :=
  { t with events := [], issued := { t.issued with events := 0 } }

/-- The rules and the tasks, without what comes of events and threads. -/
def Tables.subjects (t : Tables) : (List (Row Rule) × Nat) × List Task :=
  (t.ruleBook, t.tasks)

theorem shows_stepwise (view : Tables → β) : Stepwise (Tables.Shows view) :=
  ⟨fun _ => rfl, fun h h' => Eq.trans h' h⟩

theorem Tables.Shows.map {γ : Type} {view : Tables → β} {t t' : Tables} (h : Shows view t t')
    (f : β → γ) : Shows (fun t => f (view t)) t t' :=
  congrArg f h

theorem purged_stepwise (may : String → Prop) : Stepwise (Tables.Purged may) where
  refl t := ⟨fun _ => true, by simp, by simp⟩
  trans := by
    rintro t u v ⟨keep, rfl, hmay⟩ ⟨keep', rfl, hmay'⟩
    refine ⟨fun task => keep task && keep' task, ?_, fun task htask hgone => ?_⟩
    · simp only [List.filter_filter, Bool.and_comm]
    · by_cases hkeep : keep task = true
      · refine hmay' task (List.mem_filter.mpr ⟨htask, hkeep⟩) ?_
        simpa [hkeep] using hgone
      · exact hmay task htask (by simpa using hkeep)

theorem Tables.Purged.mono {may may' : String → Prop} {t t' : Tables} (h : Purged may t t')
    (hmay : ∀ u ∈ t.tasks, may u.id → may' u.id) : Purged may' t t' := by
  obtain ⟨keep, htables, hgone⟩ := h
  exact ⟨keep, htables, fun u hu hkeep => hmay u hu (hgone u hu hkeep)⟩

/-- Deleting tasks leaves the rules alone. -/
theorem Tables.Purged.ruleBook {may : String → Prop} {t t' : Tables} (h : Purged may t t') :
    Shows Tables.ruleBook t t' := by
  obtain ⟨keep, rfl, -⟩ := h
  rfl

/-- The tables that an operation leaves are related to those before. -/
def Confined (R : Tables → Tables → Prop) (run : Store → Outcome α) : Prop :=
  ∀ s, R s.tables (run s).2.tables

theorem Confined.mono {R' : Tables → Tables → Prop} {run : Store → Outcome α}
    (h : Confined R run) (hR : ∀ t t', R t t' → R' t t') : Confined R' run :=
  fun s => hR _ _ (h s)

theorem confined_of_unmoved (hR : Stepwise R) {run : Store → Outcome α}
    (hmove : ∀ s, Unmoved s (run s).2) : Confined R run := by
  intro s
  rw [(hmove s).tables]
  exact hR.refl _

/-! ## One operation after the other -/

theorem andThen_confined (hR : Stepwise R) {run : Store → Outcome α}
    {next : α → Store → Outcome β} (hrun : Confined R run)
    (hnext : ∀ a, Confined R (next a)) : Confined R fun s => (run s).andThen next := by
  intro s
  have hfirst := hrun s
  revert hfirst
  beta_reduce
  rcases run s with ⟨f | a, u⟩
  · exact id
  · exact fun hfirst => hR.trans hfirst (hnext a u)

theorem guarded_confined (hR : Stepwise R) {run : Store → Outcome α} (hrun : Confined R run)
    (op : Operation) (subject : Option String) (instead : Json → Except Failure α) :
    Confined R fun s => s.guarded op subject instead run := by
  intro s
  obtain ⟨ds, -, h | h⟩ := guarded_snd s op subject instead run
  · exact (congrArg Store.tables h) ▸ hR.refl _
  · exact (congrArg (fun o => o.2.tables) h) ▸ hrun { s with disturbances := ds }

theorem answered_confined (hR : Stepwise R) {run : Store → Outcome (Answer α)}
    (hrun : Confined R run) (op : Operation) (subject : Option String) :
    Confined R fun s => s.answered op subject run :=
  guarded_confined hR hrun op subject _

theorem given_confined {run : Store → Outcome α} (hrun : Confined R run) :
    Confined R fun s => (run s).given :=
  hrun

theorem statement_confined (hR : Stepwise R) {run : Store → Outcome α} (hrun : Confined R run)
    (instead : Json → Except Failure α) : Confined R fun s => s.statement instead run :=
  guarded_confined hR hrun _ _ instead

/-- A transaction leaves what its work leaves, or nothing new. -/
theorem transaction_confined (hR : Stepwise R) {work : Store → Outcome α}
    (hwork : Confined R work) : Confined R fun s => s.transaction work := by
  refine guarded_confined hR (fun s => ?_) _ _ _
  split
  · exact hR.refl _
  · split
    · exact hR.refl _
    · have hdone := hwork { s with isBusy := true }
      revert hdone
      rcases work { s with isBusy := true } with ⟨f | a, t⟩
      · exact fun _ => hR.refl _
      · exact id

/-- Giving out a rank changes no table. -/
theorem giveRank_confined (hR : Stepwise R) : Confined R giveRank := by
  refine guarded_confined hR (fun s => ?_) _ _ _
  rcases s.counter.next? with _ | r
  · exact hR.refl _
  · exact hR.refl _

/-! ## Events and threads -/

theorem insertEvent_confined (n : Audit.Note) :
    Confined (Tables.Shows Tables.unrecorded) fun s => s.insertEvent n := by
  have hR := shows_stepwise Tables.unrecorded
  refine guarded_confined hR (transaction_confined hR fun s => ?_) _ _ _
  rw [writeEvent_eq]
  split
  · exact hR.refl _
  · refine andThen_confined hR (giveRank_confined hR)
      (fun v => statement_confined hR (fun s => ?_) _) s
    split
    · exact hR.refl _
    · exact hR.refl _
    · rfl

theorem writeThread_confined (participants subject id : Option String) :
    Confined (Tables.Shows Tables.subjects) fun s => s.writeThread participants subject id := by
  intro s
  refine statement_confined (shows_stepwise _) (fun s => ?_) _ s
  split
  · rfl
  · rcases givenId? id with _ | new <;> rfl

theorem insertThread_confined (participants subject id : Option String) :
    Confined (Tables.Shows Tables.subjects) fun s => s.insertThread participants subject id :=
  have hR := shows_stepwise Tables.subjects
  answered_confined hR
    (given_confined (transaction_confined hR (writeThread_confined participants subject id))) _ _

/-! ## Rules -/

theorem writeRule_confined (d : Draft) :
    Confined (Tables.Shows Tables.tasks) fun s => s.writeRule d := by
  have hR := shows_stepwise Tables.tasks
  refine answered_confined hR (fun s => ?_) _ _
  rw [ranked_eq]
  refine andThen_confined hR (giveRank_confined hR)
    (fun v => statement_confined hR (fun s => ?_) _) s
  split
  · split
    · exact hR.refl _
    · rename_i rank _
      cases rank with
      | none => exact hR.refl _
      | some rank => rfl
  · exact hR.refl _

theorem writeRules_confined (ds : List Draft) :
    Confined (Tables.Shows Tables.tasks) fun s => s.writeRules ds := by
  have hR := shows_stepwise Tables.tasks
  induction ds with
  | nil => exact fun s => hR.refl _
  | cons d ds ih =>
    simp only [writeRules_cons]
    exact andThen_confined hR (writeRule_confined d) fun a =>
      andThen_confined hR ih fun as s => hR.refl _

theorem insertRule_confined (d : Draft) :
    Confined (Tables.Shows Tables.tasks) fun s => s.insertRule d :=
  have hR := shows_stepwise Tables.tasks
  answered_confined hR (transaction_confined hR (writeRule_confined d)) _ _

theorem insertRules_confined (ds : List Draft) :
    Confined (Tables.Shows Tables.tasks) fun s => s.insertRules ds :=
  have hR := shows_stepwise Tables.tasks
  answered_confined hR (given_confined (transaction_confined hR (writeRules_confined ds))) _ _

theorem deleteRule_confined (id : String) :
    Confined (Tables.Shows Tables.tasks) fun s => s.deleteRule id := by
  have hR := shows_stepwise Tables.tasks
  refine answered_confined hR (given_confined
    (transaction_confined hR (statement_confined hR (fun s => ?_) _))) _ _
  rfl

/-! ## Tasks -/

theorem writeTask_confined (title thread id : Option String) :
    Confined (Tables.Shows Tables.ruleBook) fun s => s.writeTask title thread id := by
  intro s
  refine statement_confined (shows_stepwise _) (fun s => ?_) _ s
  split
  · rfl
  · split
    · rfl
    · split
      · rfl
      · rcases givenId? id with _ | new <;> rfl

theorem insertTask_confined (title thread id : Option String) :
    Confined (Tables.Shows Tables.ruleBook) fun s => s.insertTask title thread id :=
  have hR := shows_stepwise Tables.ruleBook
  answered_confined hR
    (given_confined (transaction_confined hR (writeTask_confined title thread id))) _ _

/-- At most the task with the identifier is deleted. -/
theorem deleteTask_confined (id : String) :
    Confined (Tables.Purged (· = id)) fun s => s.deleteTask id := by
  have hR := purged_stepwise (· = id)
  refine answered_confined hR (given_confined
    (transaction_confined hR (statement_confined hR (fun s => ?_) _))) _ _
  exact ⟨fun u => u.id ≠ id, rfl, fun u _ hgone => by simpa using hgone⟩

end MailRules.Store
