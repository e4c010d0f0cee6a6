import MailRules.Proofs.Registry.Batch
import MailRules.Proofs.Registry.Sweep
import MailRules.Proofs.Store.Confined

set_option autoImplicit false

/-!
# What requests are confined to

Writing events changes nothing else, changing rules leaves tasks alone, and changing threads and
tasks leaves rules alone: that holds of the registry because it does of its store, and whatever
disturbs that.

A sweep deletes at most the tasks that its rules condemn (`Sweep.settle_purges`), again whatever
disturbs it: that is true of each step of a worker (`Sweep.step_purges`).
-/

namespace MailRules

open Store (Tables Stepwise)

namespace Registry

variable {α β : Type} {R : Tables → Tables → Prop}

/-- The tables that a change leaves are related to those before. -/
def Confined (R : Tables → Tables → Prop) (change : Registry → Registry) : Prop :=
  ∀ g, R g.store.tables (change g).store.tables

theorem Confined.mono {R' : Tables → Tables → Prop} {change : Registry → Registry}
    (h : Confined R change) (hR : ∀ t t', R t t' → R' t t') : Confined R' change :=
  fun g => hR _ _ (h g)

/-! ## One change after the other -/

theorem Confined.comp (hR : Stepwise R) {change change' : Registry → Registry}
    (h' : Confined R change') (h : Confined R change) : Confined R fun g => change' (change g) :=
  fun g => hR.trans (h g) (h' (change g))

theorem confined_foldl (hR : Stepwise R) {change : Registry → α → Registry}
    (h : ∀ a, Confined R fun g => change g a) (as : List α) :
    Confined R fun g => as.foldl change g := by
  induction as with
  | nil => exact fun g => hR.refl _
  | cons a as ih => exact Confined.comp hR ih (h a)

theorem after_confined (hR : Stepwise R) {run : Registry → Outcome α}
    {next : α → Registry → Outcome β} (hrun : Confined R fun g => (run g).2)
    (hnext : ∀ a, Confined R fun g => (next a g).2) :
    Confined R fun g => (after (run g) next).2 := by
  intro g
  have hfirst := hrun g
  revert hfirst
  beta_reduce
  rcases run g with ⟨f | a, u⟩
  · exact id
  · exact fun hfirst => hR.trans hfirst (hnext a u)

theorem withStore_confined {work : Store → Store.Outcome α} (h : Store.Confined R work) :
    Confined R fun g => (g.withStore work).2 :=
  fun g => h g.store

theorem taking_confined {work : Store → Store.Outcome (Store.Answer α)}
    (h : Store.Confined R work) (instead : Json → Except Failure α) :
    Confined R fun g => (g.taking instead work).2 :=
  fun g => h g.store

/-! ## Events -/

/-- Nothing is done but to events. -/
abbrev Apart : Tables → Tables → Prop :=
  Tables.Shows Tables.unrecorded

theorem apart_stepwise : Stepwise Apart :=
  Store.shows_stepwise _

theorem write_apart (n : Audit.Note) : Confined Apart fun g => g.write n := by
  intro g
  rw [write_store]
  exact Store.insertEvent_confined n g.store

theorem submit_apart (n : Audit.Note) : Confined Apart fun g => g.submit n := by
  intro g
  unfold submit
  beta_reduce
  split
  · exact apart_stepwise.refl _
  · exact write_apart n g

theorem writeAll_apart (notes : List Audit.Note) : Confined Apart fun g => g.writeAll notes :=
  confined_foldl apart_stepwise write_apart notes

theorem flush_apart : Confined Apart flush :=
  fun g => writeAll_apart g.queue { g with queue := [] }

theorem work_apart : Confined Apart work := by
  intro g
  unfold work workOn
  split
  · exact apart_stepwise.refl _
  · exact write_apart _ _

theorem recordAny_apart (kind : Json) (entity : String) (entityId : Json)
    (details : Privacy.Detail) (actor : Option String) :
    Confined Apart fun g => g.recordAny kind entity entityId details actor := by
  intro g
  unfold recordAny
  rcases noteOf? kind entity entityId details actor with f | n
  · exact apart_stepwise.refl _
  · exact submit_apart n g

theorem carryOut_apart (actor : Option String) (effects : List Instruction.Effect) :
    Confined Apart fun g => g.carryOut actor effects := by
  refine confined_foldl apart_stepwise (fun e g => ?_) effects
  cases e with
  | log line => exact apart_stepwise.refl _
  | appeal f => exact submit_apart _ g

theorem events_apart (limit : Int) : Confined Apart fun g => (g.events limit).2 :=
  Confined.comp apart_stepwise
    (taking_confined (Store.confined_of_unmoved apart_stepwise fun s => s.listEvents_unmoved limit)
      (Store.partsLacking "to_dict")) flush_apart

theorem close_apart : Confined Apart fun g => g.close.2 := by
  refine Confined.comp apart_stepwise (withStore_confined ?_) flush_apart
  exact Store.guarded_confined apart_stepwise (fun s => apart_stepwise.refl _) _ _ _

/-! ## Rules and tasks -/

/-- Nothing is done to rules. -/
abbrev KeepsRules : Tables → Tables → Prop :=
  Tables.Shows Tables.ruleBook

theorem keepsRules_stepwise : Stepwise KeepsRules :=
  Store.shows_stepwise _

theorem Apart.keepsRules {change : Registry → Registry} (h : Confined Apart change) :
    Confined KeepsRules change :=
  h.mono fun _ _ hsame => hsame.map Tables.ruleBook

/-- Nothing is done to tasks. -/
abbrev KeepsTasks : Tables → Tables → Prop :=
  Tables.Shows Tables.tasks

theorem keepsTasks_stepwise : Stepwise KeepsTasks :=
  Store.shows_stepwise _

theorem Apart.keepsTasks {change : Registry → Registry} (h : Confined Apart change) :
    Confined KeepsTasks change :=
  h.mono fun _ _ hsame => hsame.map Tables.tasks

theorem create_keepsTasks (record : Json) (actor : Option String) :
    Confined KeepsTasks fun g => (g.create record actor).2 := by
  unfold create
  rcases canonicalOf record with r | d
  · exact fun g => keepsTasks_stepwise.refl _
  · simp only [createCanonical_eq]
    refine after_confined keepsTasks_stepwise
      (taking_confined (Store.insertRule_confined d) _) fun r g => ?_
    exact Apart.keepsTasks (submit_apart (createdNote none actor r)) (g.sayCreated r)

theorem createBatch_keepsTasks (records : Json) (actor reason : Option String) :
    Confined KeepsTasks fun g => (g.createBatch records actor reason).2 := by
  unfold createBatch
  rcases Draft.ofBatch records with f | drafts
  · exact fun g => keepsTasks_stepwise.refl _
  · simp only
    rcases canonicalBatch drafts with r | ds
    · exact fun g => keepsTasks_stepwise.refl _
    · simp only [createDistinct_eq, reportBatch_eq, foldl_recordCreated]
      refine after_confined keepsTasks_stepwise
        (taking_confined (Store.insertRules_confined _) _) fun as g => ?_
      exact Apart.keepsTasks (confined_foldl apart_stepwise submit_apart _)
        (g.say (batchLine as.length _))

theorem lookUp_confined (hR : Stepwise R) (id member : String) :
    Confined R fun g => (g.lookUp id member).2 := by
  simp only [lookUp_eq]
  refine after_confined hR (taking_confined
    (Store.confined_of_unmoved hR fun s => s.findRule_unmoved id) _) fun r g => ?_
  cases r <;> exact hR.refl _

theorem list_confined (hR : Stepwise R) (action : Option RuleAction) :
    Confined R fun g => (g.list action).2 :=
  fun g => Store.confined_of_unmoved hR (fun s => s.listRules_unmoved action) g.store

theorem delete_keepsTasks (id : String) (actor : Option String) :
    Confined KeepsTasks fun g => (g.delete id actor).2 := by
  simp only [delete_eq, deleteFound_eq]
  refine after_confined keepsTasks_stepwise (lookUp_confined keepsTasks_stepwise id _) fun r =>
    after_confined keepsTasks_stepwise (withStore_confined (Store.deleteRule_confined id))
      fun answer g => ?_
  split
  · exact Apart.keepsTasks (submit_apart (deletedNote r id actor)) (g.say _)
  · exact keepsTasks_stepwise.refl _

end Registry

/-! ## The sweep -/

namespace Sweep

open Store (Task TaskView)

/-- The rules condemn a task with an identifier, as it is seen. -/
def Condemned (rules : List Rule) (views : List TaskView) (id : String) : Prop :=
  ∃ v ∈ views, v.task.id = id ∧ condemns rules v = true

/-- A job is on a task, and if that is to be deleted or has been the rules condemn it. -/
def Job.On (rules : List Rule) (v : TaskView) : Job → Prop
  | waiting w => w = v
  | doomed t _ => t = v.task ∧ condemns rules v = true
  | settled .deleted => condemns rules v = true
  | settled _ => True

variable {rules : List Rule} {views : List TaskView}

theorem remove_confined (t : Task) (r : Rule) :
    Registry.Confined (Tables.Purged (· = t.id)) fun g => (remove g t r).2 := by
  intro g
  have hdelete := Store.deleteTask_confined t.id g.store
  revert hdelete
  unfold remove Registry.withStore
  beta_reduce
  rcases g.store.deleteTask t.id with ⟨f | answer, s⟩
  · exact id
  · by_cases htrue : answer.isTruthy = true
    · simp only [htrue, if_true]
      exact id
    · simp only [htrue]
      exact id

/-- A worker that has looked at its task has done nothing to the store. -/
theorem judge_on (rules : List Rule) (g : Registry) (v : TaskView) :
    (judge rules g v).1.On rules v ∧ (judge rules g v).1.isDeletion = false ∧
      (judge rules g v).2.store = g.store := by
  obtain ⟨hstage, -, hkept, hstore⟩ := judge_spec rules (fun _ => false) g v
  refine ⟨?_, hkept, hstore⟩
  revert hkept
  generalize (judge rules g v).1 = j at hstage
  cases hstage with
  | waiting => exact fun _ => rfl
  | doomed r hcondemns => exact fun _ => ⟨rfl, hcondemns⟩
  | settled =>
    cases fateOf rules (fun _ => false) v with
    | deleted => exact nofun
    | _ => exact fun _ => trivial

/-- A worker stays with its task. -/
theorem advance_on {v : TaskView} {j : Job} (h : j.On rules v) (g : Registry) :
    (j.advance rules g).1.On rules v := by
  cases j with
  | waiting w =>
    obtain rfl : w = v := h
    exact (judge_on rules g w).1
  | doomed t r =>
    change (Job.settled (remove g t r).1).On rules v
    cases (remove g t r).1 with
    | deleted => exact h.2
    | _ => trivial
  | settled f => exact h

/-- A step of a worker deletes at most its task, and only if the rules condemn that. -/
theorem advance_purges {v : TaskView} {j : Job} (h : j.On rules v) (g : Registry) :
    Tables.Purged (fun id => id = v.task.id ∧ condemns rules v = true) g.store.tables
      (j.advance rules g).2.store.tables := by
  cases j with
  | waiting w =>
    obtain rfl : w = v := h
    change Tables.Purged _ g.store.tables (judge rules g w).2.store.tables
    rw [(judge_on rules g w).2.2]
    exact (Store.purged_stepwise _).refl _
  | doomed t r =>
    obtain ⟨rfl, hcondemns⟩ := h
    exact (remove_confined v.task r).mono
      (fun _ _ hpurged => hpurged.mono fun u _ hid => ⟨hid, hcondemns⟩) g
  | settled f => exact (Store.purged_stepwise _).refl _

theorem forall₂_set {α β : Type} {R : α → β → Prop} {as : List α} {bs : List β}
    (h : List.Forall₂ R as bs) {i : Nat} {a : α} {b : β} (ha : as[i]? = some a) (hab : R a b) :
    List.Forall₂ R as (bs.set i b) := by
  induction h generalizing i with
  | nil => exact List.Forall₂.nil
  | cons hcd hrest ih =>
    cases i with
    | zero =>
      cases ha
      exact List.Forall₂.cons hab hrest
    | succ i => exact List.Forall₂.cons hcd (ih ha)

theorem forall₂_getElem? {α β : Type} {R : α → β → Prop} {as : List α} {bs : List β}
    (h : List.Forall₂ R as bs) {i : Nat} {b : β} (hb : bs[i]? = some b) :
    ∃ a, as[i]? = some a ∧ R a b := by
  induction h generalizing i with
  | nil => cases hb
  | cons hcd hrest ih =>
    cases i with
    | zero =>
      cases hb
      exact ⟨_, rfl, hcd⟩
    | succ i => exact ih hb

/-- A step in a pool keeps each job on its task, and deletes at most a task that the rules
condemn. -/
theorem step_purges {p : Pool} (h : List.Forall₂ (Job.On rules) views p.jobs) (place : Nat) :
    List.Forall₂ (Job.On rules) views (p.step rules place).jobs ∧
      Tables.Purged (Condemned rules views) p.registry.store.tables
        (p.step rules place).registry.store.tables := by
  unfold Pool.step
  rcases hj : p.jobs[place]? with _ | j
  · exact ⟨h, (Store.purged_stepwise _).refl _⟩
  · obtain ⟨v, hv, hon⟩ := forall₂_getElem? h hj
    refine ⟨forall₂_set h hv (advance_on hon p.registry), ?_⟩
    refine (advance_purges hon p.registry).mono fun u _ hid => ?_
    exact ⟨v, List.mem_of_getElem? hv, hid.1.symm, hid.2⟩

/-- A run of a pool deletes at most tasks that the rules condemn. -/
theorem run_purges {p : Pool} (h : List.Forall₂ (Job.On rules) views p.jobs) (order : List Nat) :
    Tables.Purged (Condemned rules views) p.registry.store.tables
      (p.run rules order).registry.store.tables := by
  induction order generalizing p with
  | nil => exact (Store.purged_stepwise _).refl _
  | cons place order ih =>
    obtain ⟨hon, hpurged⟩ := step_purges h place
    exact (Store.purged_stepwise _).trans hpurged (ih hon)

/-- Jobs that have not been begun. -/
theorem waiting_on (rules : List Rule) (views : List TaskView) :
    List.Forall₂ (Job.On rules) views (views.map .waiting) :=
  List.forall₂_map_right_iff.mpr (List.forall₂_same.mpr fun _ _ => rfl)

/-- Sweeping tasks deletes at most those that the rules condemn. -/
theorem settle_purges (order : Schedule) (active : List Rule) (g : Registry)
    (tasks : List TaskView) :
    Tables.Purged (Condemned active tasks) g.store.tables
      (settle order active g tasks).2.store.tables :=
  run_purges (p := ⟨tasks.map .waiting, g.say (openingLine tasks.length active.length)⟩)
    (waiting_on active tasks) (order tasks.length)

theorem runWith_keepsRules (order : Schedule) (rules : List Rule) :
    Registry.Confined Registry.KeepsRules fun g => (runWith order g rules).2 := by
  have hR := Registry.keepsRules_stepwise
  simp only [runWith_eq]
  split
  · exact fun g => hR.refl _
  · refine Registry.after_confined hR
      (Registry.withStore_confined (Store.confined_of_unmoved hR Store.listTasks_unmoved))
      fun a g => ?_
    cases a with
    | given tasks => exact (settle_purges order _ g tasks).ruleBook
    | «instead» v =>
      simp only [settleInstead]
      rcases Store.counted v with _ | _ | ⟨w, ws⟩
      · exact hR.refl _
      · exact (settle_purges order _ g []).ruleBook
      · exact hR.refl _

/-- A sweep leaves the rules alone. -/
theorem run_keepsRules (rules : Option (List Rule)) (order : Schedule) :
    Registry.Confined Registry.KeepsRules fun g => (run g rules order).2 := by
  cases rules with
  | some rs => exact runWith_keepsRules order rs
  | none =>
    simp only [run_none]
    refine Registry.after_confined Registry.keepsRules_stepwise (fun g => ?_) fun rs =>
      runWith_keepsRules order rs
    exact Store.confined_of_unmoved Registry.keepsRules_stepwise
      (fun s => s.listRules_unmoved (some .suppress)) g.store

end Sweep

end MailRules
