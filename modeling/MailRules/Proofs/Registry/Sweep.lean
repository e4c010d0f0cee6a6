import MailRules.Proofs.Store.Calm
import MailRules.Proofs.Thread.Verdict
import MailRules.Registry.Sweep

set_option autoImplicit false

/-!
# What a sweep does

A sweep deletes exactly the tasks that its rules suppress and that can be deleted, whatever the
order in which its workers take their steps, and counts what became of every task.

The invariant is `Underway`: each worker is at a `Stage` that its task allows, no further than the
steps it has taken, and the tasks that are gone are those whose workers have deleted them. One step
of any worker keeps it (`step_underway`), so a whole run does (`run_underway`). Where every worker
has taken two steps all tasks have the fate that `fateOf` says.
-/

namespace MailRules

namespace Sweep

open Store (Task TaskView Tables)

/-! ## What should become of tasks -/

/-- What rules look at for a task. There is nothing to look at without a thread, or where its
participants cannot be taken apart. -/
def subjectOf? (v : TaskView) : Option Subject :=
  v.thread.bind fun thread => Subject.of? thread.participants (some v.task.title)

/-- Whether rules suppress a task. -/
def condemns (rules : List Rule) (v : TaskView) : Bool :=
  (subjectOf? v).any (suppressed rules)

/-- Whether rules can be applied to a task and do not suppress it. -/
def spares (rules : List Rule) (v : TaskView) : Bool :=
  (subjectOf? v).any fun s => !suppressed rules s

/-- What should become of a task where those in `undeletable` cannot be deleted. -/
def fateOf (rules : List Rule) (undeletable : String → Bool) (v : TaskView) : Fate :=
  if condemns rules v then (if undeletable v.task.id then .failed else .deleted)
  else if spares rules v then .kept
  else .skipped

/-- What a sweep should make of tables, and count, where the tasks in `undeletable` cannot be
deleted. -/
structure Swept (rules : List Rule) (undeletable : String → Bool) (t t' : Tables) (n : Tally) :
    Prop where
  tables : t' = { t with
    tasks := t.tasks.filter fun u => !(condemns rules (t.view u) && !undeletable u.id) }
  deleted : n.deleted = t.tasks.countP fun u => condemns rules (t.view u) && !undeletable u.id
  failed : n.failed = t.tasks.countP fun u => condemns rules (t.view u) && undeletable u.id
  kept : n.kept = t.tasks.countP fun u => spares rules (t.view u)
  skipped : n.skipped =
    t.tasks.countP fun u => !condemns rules (t.view u) && !spares rules (t.view u)
  scanned : n.scanned = t.tasks.length
  sum : n.deleted + n.failed + n.kept + n.skipped = n.scanned

/-- Rules and tasks can be loaded, and what goes wrong later goes wrong by failing. -/
structure Loadable (s : Store) : Prop where
  isOpen : s.isOpen = true
  failing : Store.Failing s.disturbances
  calm : ∀ op ∈ [Store.Operation.listRules, .listTasks, .question, .readRule],
    Store.Calm op s.disturbances

/-- Exactly the tasks in `undeletable` cannot be deleted, now and later. -/
def Refuses (s : Store) (undeletable : String → Bool) : Prop :=
  ∀ t, s.Follows t → ∀ id, (∃ f, (t.deleteTask id).1 = .error f) ↔ undeletable id = true

/-- Every one of so many workers gets to take both its steps. -/
def Completes (tasks : Nat) (order : List Nat) : Prop :=
  ∀ place < tasks, 2 ≤ order.count place

/-- Every worker gets to take both its steps, however many tasks there are. -/
def Fair (order : Schedule) : Prop :=
  ∀ tasks, Completes tasks (order tasks)

/-- Where nothing but the deletion of the tasks in `undeletable` is disturbed, exactly these cannot
be deleted. -/
theorem refuses_disturbed {s : Store} (hopen : s.isOpen = true) (hidle : s.isBusy = false)
    (hnone : s.disturbances = []) (undeletable : String → Bool) (r : Raised) :
    Refuses (s.disturbed ⟨.deleteTask, fun _ id => id.any undeletable, .failure r, 0⟩)
      undeletable := by
  intro t ht id
  have hrecounted := ht.recounted
  simp only [Store.disturbed, Store.disturb, hnone, Store.Recounted, List.filter_nil,
    List.nil_append, List.map_cons, List.map_nil, List.map_eq_singleton_iff] at hrecounted
  obtain ⟨d, hd, hplan⟩ := hrecounted
  simp only [Store.Disturbance.plan, Prod.mk.injEq] at hplan
  obtain ⟨hoperation, htrigger, heffect⟩ := hplan
  unfold Store.deleteTask Store.answered Store.guarded
  simp only [hd, Store.strike, hoperation, if_true, Store.Disturbance.strikes,
    Store.Disturbance.count, htrigger, heffect, Option.any_some]
  by_cases hin : undeletable id = true
  · simp [hin]
  · have hcalm (op : Store.Operation) (hop : .deleteTask ≠ op) :
        Store.Calm op [⟨.deleteTask, fun _ id => id.any undeletable, .failure r, d.calls + 1⟩] := by
      simpa [Store.Calm] using hop
    simp only [hin, Bool.false_eq_true, if_false, iff_false, not_exists]
    obtain ⟨b, u, herased⟩ := Store.erased_of_calm (s := { t with disturbances := _ })
      (hcalm .transaction (by decide)) (hcalm .statement (by decide)) (ht.isOpen.trans hopen)
      (ht.isBusy.trans hidle) id
    rw [herased]
    intro f hfail
    cases hfail

theorem condemns_filter (rules : List Rule) :
    condemns (rules.filter (·.draft.action = .suppress)) = condemns rules := by
  funext v
  simp only [condemns, suppressed_filter]

/-- Only the rules that suppress decide what a sweep should make of tables. -/
theorem Swept.unfiltered {rules : List Rule} {undeletable : String → Bool} {t t' : Tables}
    {n : Tally} (h : Swept (rules.filter (·.draft.action = .suppress)) undeletable t t' n) :
    Swept rules undeletable t t' n := by
  have hcondemns := condemns_filter rules
  have hspares : spares (rules.filter (·.draft.action = .suppress)) = spares rules := by
    funext v
    simp only [spares, suppressed_filter]
  obtain ⟨htables, hdeleted, hfailed, hkept, hskipped, hscanned, hsum⟩ := h
  rw [hcondemns] at htables hdeleted hfailed hskipped
  rw [hspares] at hkept hskipped
  exact ⟨htables, hdeleted, hfailed, hkept, hskipped, hscanned, hsum⟩

theorem condemns_not_spares {rules : List Rule} {v : TaskView} (h : condemns rules v = true) :
    spares rules v = false := by
  unfold condemns at h
  unfold spares
  rcases hs : subjectOf? v with _ | s
  · rfl
  · rw [hs] at h
    simpa using h

/-- What decides the fate of a task. -/
theorem fateOf_iff (rules : List Rule) (undeletable : String → Bool) (v : TaskView) :
    (fateOf rules undeletable v = .deleted ↔
        (condemns rules v && !undeletable v.task.id) = true) ∧
      (fateOf rules undeletable v = .failed ↔
        (condemns rules v && undeletable v.task.id) = true) ∧
      (fateOf rules undeletable v = .kept ↔ spares rules v = true) ∧
      (fateOf rules undeletable v = .skipped ↔
        (!condemns rules v && !spares rules v) = true) := by
  have hexclusive := @condemns_not_spares rules v
  unfold fateOf
  -- the fate of a task rests on three answers, of which the first excludes the third
  revert hexclusive
  cases condemns rules v <;> cases undeletable v.task.id <;> cases spares rules v <;> simp

/-! ## Jobs -/

section

variable {rules : List Rule} {undeletable : String → Bool}

/-- The jobs that a worker can have with its task. -/
inductive Stage (rules : List Rule) (undeletable : String → Bool) (v : TaskView) : Job → Prop
  | waiting : Stage rules undeletable v (.waiting v)
  | doomed (r : Rule) (h : condemns rules v = true) : Stage rules undeletable v (.doomed v.task r)
  | settled : Stage rules undeletable v (.settled (fateOf rules undeletable v))

/-- How many steps a worker has behind it at least. -/
def Job.progress : Job → Nat
  | waiting _ => 0
  | doomed _ _ => 1
  | settled _ => 2

/-- Whether the task has been deleted. -/
def Job.isDeletion : Job → Bool
  | settled .deleted => true
  | _ => false

/-- A task that has been deleted stays so. -/
theorem Job.isDeletion_advance {j : Job} (h : j.isDeletion = true) (rules : List Rule)
    (g : Registry) : (j.advance rules g).1.isDeletion = true := by
  cases j with
  | settled f => exact h
  | _ => cases h

/-- Looking at a task leaves the store alone. -/
theorem judge_spec (rules : List Rule) (undeletable : String → Bool) (g : Registry)
    (v : TaskView) :
    Stage rules undeletable v (judge rules g v).1 ∧ 1 ≤ (judge rules g v).1.progress ∧
      (judge rules g v).1.isDeletion = false ∧ (judge rules g v).2.store = g.store := by
  have hskipped (hsubject : subjectOf? v = none) :
      Stage rules undeletable v (.settled .skipped) := by
    have hfate : fateOf rules undeletable v = .skipped := by
      simp [fateOf, condemns, spares, hsubject]
    exact hfate ▸ Stage.settled
  unfold judge
  rcases hthread : v.thread with _ | thread
  · exact ⟨hskipped (by simp [subjectOf?, hthread]), Nat.le_succ 1, rfl, rfl⟩
  · simp only
    rcases hsubject : Subject.of? thread.participants (some v.task.title) with _ | subject
    · exact ⟨hskipped (by simp [subjectOf?, hthread, hsubject]), Nat.le_succ 1, rfl, rfl⟩
    · have hsome : subjectOf? v = some subject := by simp [subjectOf?, hthread, hsubject]
      simp only
      rcases happlies : firstApplying .suppress rules subject with _ | r
      · have hfate : fateOf rules undeletable v = .kept := by
          simp [fateOf, condemns, spares, hsome, suppressed, happlies]
        exact ⟨hfate ▸ Stage.settled, Nat.le_succ 1, rfl, rfl⟩
      · have hcondemned : condemns rules v = true := by
          simp [condemns, hsome, suppressed, happlies]
        exact ⟨Stage.doomed r hcondemned, Nat.le_refl 1, rfl, rfl⟩

/-- A task that is still there is deleted, unless that fails. -/
theorem remove_spec {g : Registry} (hf : Store.Failing g.store.disturbances)
    (hrefuses : Refuses g.store undeletable) {t : Task} (ht : t ∈ g.store.tables.tasks)
    (r : Rule) :
    g.store.Follows (remove g t r).2.store ∧
      if undeletable t.id then
        (remove g t r).1 = .failed ∧ (remove g t r).2.store.tables = g.store.tables
      else
        (remove g t r).1 = .deleted ∧ (remove g t r).2.store.tables =
          { g.store.tables with tasks := g.store.tables.tasks.filter (·.id ≠ t.id) } := by
  have hfollows := Store.deleteTask_follows g.store t.id
  have hrefused := hrefuses g.store (Store.Follows.refl g.store) t.id
  unfold remove
  rcases hdelete : g.store.deleteTask t.id with ⟨f | a, s⟩
  all_goals
    have hrun := congrArg (fun o => (o.1, { g with store := o.2 })) hdelete
    change (g.withStore fun s => s.deleteTask t.id) = _ at hrun
    rw [hdelete] at hfollows hrefused
    rw [hrun]
  · have hin : undeletable t.id = true := hrefused.mp ⟨f, rfl⟩
    rw [if_pos hin]
    exact ⟨hfollows, rfl, (Store.deleteTask_error hdelete).tables⟩
  · have hout : ¬undeletable t.id = true := by
      intro hin
      obtain ⟨f, hfail⟩ := hrefused.mpr hin
      cases hfail
    obtain ⟨rfl, htables⟩ := Store.deleteTask_ok hf hdelete
    have hthere : (g.store.tables.tasks.any (·.id = t.id)) = true := by
      simpa using ⟨t, ht, rfl⟩
    rw [if_neg hout]
    simp only [Store.Answer.isTruthy, hthere, if_true]
    exact ⟨hfollows, trivial, htables⟩

/-- A worker that takes a step gets on with its job. -/
theorem advance_progress (rules : List Rule) (g : Registry) (j : Job) :
    min 2 (j.progress + 1) ≤ (j.advance rules g).1.progress := by
  cases j with
  | waiting v =>
    exact Nat.le_trans (Nat.min_le_right 2 1) (judge_spec rules (fun _ => false) g v).2.1
  | doomed t r => exact Nat.le_refl 2
  | settled f => exact Nat.min_le_left 2 3

/-- One step of a worker: its job is at the next stage, and the task is gone from the store if it
has just been deleted. -/
theorem advance_spec {g : Registry} (hf : Store.Failing g.store.disturbances)
    (hrefuses : Refuses g.store undeletable) {v : TaskView} {j : Job}
    (hstage : Stage rules undeletable v j)
    (hthere : j.isDeletion = false → v.task ∈ g.store.tables.tasks) :
    Stage rules undeletable v (j.advance rules g).1 ∧
      g.store.Follows (j.advance rules g).2.store ∧
      (j.advance rules g).2.store.tables = { g.store.tables with
        tasks := g.store.tables.tasks.filter fun u =>
          !((j.advance rules g).1.isDeletion && !j.isDeletion && u.id = v.task.id) } := by
  -- every step but a deletion leaves all tasks where they are
  have hall (b : Bool) (hb : b = false) : g.store.tables = { g.store.tables with
      tasks := g.store.tables.tasks.filter fun u => !(b && u.id = v.task.id) } := by
    subst hb
    simp
  cases hstage with
  | waiting =>
    obtain ⟨hnext, -, hkept, hstore⟩ := judge_spec rules undeletable g v
    simp only [Job.advance, hkept, hstore]
    exact ⟨hnext, Store.Follows.refl g.store, hall _ rfl⟩
  | doomed r hcondemned =>
    obtain ⟨hfollows, hremove⟩ := remove_spec hf hrefuses (hthere rfl) r
    simp only [Job.advance]
    refine ⟨?_, hfollows, ?_⟩
    · have hfate : (remove g v.task r).1 = fateOf rules undeletable v := by
        unfold fateOf
        rw [if_pos hcondemned]
        split at hremove <;> rename_i hin
        · rw [if_pos hin, hremove.1]
        · rw [if_neg hin, hremove.1]
      exact hfate ▸ Stage.settled
    · split at hremove
      · rw [hremove.1, hremove.2]
        exact hall _ rfl
      · rw [hremove.1, hremove.2]
        simp [Job.isDeletion]
  | settled =>
    simp only [Job.advance]
    exact ⟨Stage.settled, Store.Follows.refl g.store, hall _ (by simp)⟩

/-! ## Runs -/

/-- Each worker has taken the steps in `done`, or has nothing left to do. -/
def Served (done : List Nat) (jobs : List Job) : Prop :=
  ∀ (place : Nat) (j : Job), jobs[place]? = some j → min 2 (done.count place) ≤ j.progress

/-- Whether the task with an identifier has been deleted by its worker. -/
def gone (views : List TaskView) (jobs : List Job) (id : String) : Bool :=
  (views.zip jobs).any fun p => p.2.isDeletion && p.1.task.id = id

/-- What holds all the time while workers take steps on the tasks of a store: they have taken those
in `done`. -/
structure Underway (rules : List Rule) (undeletable : String → Bool) (views : List TaskView)
    (s : Store) (done : List Nat) (p : Pool) : Prop where
  length : p.jobs.length = views.length
  stage : ∀ (place : Nat) (v : TaskView) (j : Job), views[place]? = some v →
    p.jobs[place]? = some j → Stage rules undeletable v j
  progress : ∀ (place : Nat) (j : Job), p.jobs[place]? = some j →
    min 2 (done.count place) ≤ j.progress
  follows : s.Follows p.registry.store
  tables : p.registry.store.tables = { s.tables with
    tasks := s.tables.tasks.filter fun t => !gone views p.jobs t.id }

theorem gone_iff {views : List TaskView} {jobs : List Job} {id : String} :
    gone views jobs id = true ↔ ∃ (place : Nat) (v : TaskView) (j : Job),
      views[place]? = some v ∧ jobs[place]? = some j ∧ j.isDeletion = true ∧ v.task.id = id := by
  simp only [gone, List.any_eq_true, List.mem_iff_getElem?, List.getElem?_zip_eq_some,
    Bool.and_eq_true, decide_eq_true_eq]
  constructor
  · rintro ⟨⟨v, j⟩, ⟨place, hv, hj⟩, hdeletion, hid⟩
    exact ⟨place, v, j, hv, hj, hdeletion, hid⟩
  · rintro ⟨place, v, j, hv, hj, hdeletion, hid⟩
    exact ⟨(v, j), ⟨place, hv, hj⟩, hdeletion, hid⟩

/-- The job at a place of a list in which one has been replaced. -/
theorem of_getElem?_set {jobs : List Job} {place i : Nat} {k l : Job}
    (h : (jobs.set place k)[i]? = some l) :
    (place = i ∧ k = l) ∨ (place ≠ i ∧ jobs[i]? = some l) := by
  by_cases hi : place = i
  · subst hi
    have hplace : place < jobs.length := by
      rw [← List.length_set]
      exact (List.getElem?_eq_some_iff.mp h).1
    rw [List.getElem?_set_self hplace] at h
    exact Or.inl ⟨rfl, Option.some.inj h⟩
  · rw [List.getElem?_set_ne hi] at h
    exact Or.inr ⟨hi, h⟩

/-- Where there is no worker, nobody has to take a step. -/
theorem Served.idle {done : List Nat} {jobs : List Job} (h : Served done jobs) {place : Nat}
    (hj : jobs[place]? = none) : Served (done ++ [place]) jobs := by
  intro i l hl
  have hne : place ≠ i := by
    rintro rfl
    cases hj.symm.trans hl
  rw [List.count_append, List.count_singleton, beq_false_of_ne hne]
  exact h i l hl

/-- The worker at a place has taken a step. -/
theorem Served.set {done : List Nat} {jobs : List Job} (h : Served done jobs) {place : Nat}
    {j k : Job} (hj : jobs[place]? = some j) (hprogress : min 2 (j.progress + 1) ≤ k.progress) :
    Served (done ++ [place]) (jobs.set place k) := by
  intro i l hl
  rcases of_getElem?_set hl with ⟨rfl, rfl⟩ | ⟨hne, hl⟩
  · have hbefore := h place j hj
    rw [List.count_append, List.count_singleton_self]
    omega
  · rw [List.count_append, List.count_singleton, beq_false_of_ne hne]
    exact h i l hl

/-- A task is gone if it was before or has just been deleted. -/
theorem gone_set {views : List TaskView} {jobs : List Job} {place : Nat} {v : TaskView} {j k : Job}
    (hv : views[place]? = some v) (hj : jobs[place]? = some j)
    (hstays : j.isDeletion = true → k.isDeletion = true) (id : String) :
    gone views (jobs.set place k) id =
      (gone views jobs id || (k.isDeletion && !j.isDeletion && id = v.task.id)) := by
  have hset : (jobs.set place k)[place]? = some k :=
    List.getElem?_set_self (List.getElem?_eq_some_iff.mp hj).1
  rw [Bool.eq_iff_iff, Bool.or_eq_true, gone_iff, gone_iff]
  simp only [Bool.and_eq_true, Bool.not_eq_true', decide_eq_true_eq]
  constructor
  · rintro ⟨i, u, l, hu, hl, hdeletion, rfl⟩
    rcases of_getElem?_set hl with ⟨rfl, rfl⟩ | ⟨-, hl⟩
    · obtain rfl : v = u := Option.some.inj (hv.symm.trans hu)
      by_cases hold : j.isDeletion = true
      · exact Or.inl ⟨place, v, j, hv, hj, hold, rfl⟩
      · exact Or.inr ⟨⟨hdeletion, by simpa using hold⟩, rfl⟩
    · exact Or.inl ⟨i, u, l, hu, hl, hdeletion, rfl⟩
  · rintro (⟨i, u, l, hu, hl, hdeletion, rfl⟩ | ⟨⟨hdeletion, -⟩, rfl⟩)
    · by_cases hi : place = i
      · subst hi
        obtain rfl : j = l := Option.some.inj (hj.symm.trans hl)
        exact ⟨place, u, k, hu, hset, hstays hdeletion, rfl⟩
      · exact ⟨i, u, l, hu, by rwa [List.getElem?_set_ne hi], hdeletion, rfl⟩
    · exact ⟨place, v, k, hv, hset, hdeletion, rfl⟩

variable {views : List TaskView} {s : Store} {done : List Nat} {p : Pool}

/-- A worker has a task of its own. -/
theorem place_of_id (hviews : views.map TaskView.task = s.tables.tasks)
    (hkeyed : Store.Keyed s.tables.tasks) {i k : Nat} {u v : TaskView} (hu : views[i]? = some u)
    (hv : views[k]? = some v) (hid : u.task.id = v.task.id) : i = k := by
  have hnodup : (views.map fun v => v.task.id).Nodup := by
    have hids : views.map (fun v => v.task.id) = s.tables.tasks.map Task.id := by
      rw [← hviews, List.map_map]
      rfl
    rw [hids]
    exact hkeyed
  have hi : i < (views.map fun v => v.task.id).length := by
    rw [List.length_map]
    exact (List.getElem?_eq_some_iff.mp hu).1
  refine (List.getElem?_inj hi hnodup).mp ?_
  rw [List.getElem?_map, List.getElem?_map, hu, hv]
  simp only [Option.map_some, hid]

/-- A task that its worker has not deleted is still in the store. -/
theorem Underway.there (hviews : views.map TaskView.task = s.tables.tasks)
    (hkeyed : Store.Keyed s.tables.tasks) (h : Underway rules undeletable views s done p)
    {place : Nat} {v : TaskView} {j : Job} (hv : views[place]? = some v)
    (hj : p.jobs[place]? = some j) (hwaits : j.isDeletion = false) :
    v.task ∈ p.registry.store.tables.tasks := by
  rw [h.tables, List.mem_filter]
  refine ⟨hviews ▸ List.mem_map_of_mem (List.mem_of_getElem? hv), ?_⟩
  rw [Bool.not_eq_true', ← Bool.not_eq_true, gone_iff]
  -- only its own worker could have deleted it
  rintro ⟨i, u, l, hu, hl, hdeletion, hid⟩
  obtain rfl := place_of_id hviews hkeyed hu hv hid
  obtain rfl : j = l := Option.some.inj (hj.symm.trans hl)
  rw [hwaits] at hdeletion
  cases hdeletion

/-- The invariant after the worker at a place has got on with its job, given what came of it. -/
theorem Underway.advance (h : Underway rules undeletable views s done p) {place : Nat}
    {v : TaskView} {j k : Job} {g : Registry} (hv : views[place]? = some v)
    (hj : p.jobs[place]? = some j) (hstage : Stage rules undeletable v k)
    (hprogress : min 2 (j.progress + 1) ≤ k.progress)
    (hstays : j.isDeletion = true → k.isDeletion = true)
    (hfollows : p.registry.store.Follows g.store)
    (htables : g.store.tables = { p.registry.store.tables with
      tasks := p.registry.store.tables.tasks.filter fun u =>
        !(k.isDeletion && !j.isDeletion && u.id = v.task.id) }) :
    Underway rules undeletable views s (done ++ [place]) ⟨p.jobs.set place k, g⟩ where
  length := by rw [List.length_set, h.length]
  stage i u l hu hl := by
    rcases of_getElem?_set hl with ⟨rfl, rfl⟩ | ⟨-, hl⟩
    · obtain rfl : v = u := Option.some.inj (hv.symm.trans hu)
      exact hstage
    · exact h.stage i u l hu hl
  progress := Served.set h.progress hj hprogress
  follows := h.follows.trans hfollows
  tables := by
    rw [htables, h.tables]
    simp only [List.filter_filter]
    congr 1
    refine List.filter_congr fun t _ => ?_
    rw [gone_set hv hj hstays, Bool.not_or, Bool.and_comm]

/-- One step of any worker keeps the invariant. -/
theorem step_underway (hf : Store.Failing s.disturbances) (hrefuses : Refuses s undeletable)
    (hviews : views.map TaskView.task = s.tables.tasks) (hkeyed : Store.Keyed s.tables.tasks)
    (h : Underway rules undeletable views s done p) (place : Nat) :
    Underway rules undeletable views s (done ++ [place]) (p.step rules place) := by
  unfold Pool.step
  rcases hj : p.jobs[place]? with _ | j
  · -- no worker is there, so nothing happens
    exact { h with progress := Served.idle h.progress hj }
  · obtain ⟨v, hv⟩ : ∃ v, views[place]? = some v := by
      have hlt := (List.getElem?_eq_some_iff.mp hj).1
      rw [h.length] at hlt
      exact ⟨_, List.getElem?_eq_getElem hlt⟩
    obtain ⟨hstage, hfollows, htables⟩ :=
      advance_spec (hf.recounted h.follows.recounted)
        (fun t ht => hrefuses t (h.follows.trans ht)) (h.stage place v j hv hj)
        (h.there hviews hkeyed hv hj)
    have hstays (hdeletion : j.isDeletion = true) :=
      Job.isDeletion_advance hdeletion rules p.registry
    exact h.advance hv hj hstage (advance_progress rules p.registry j) hstays hfollows htables

/-- A whole run keeps the invariant. -/
theorem run_underway (hf : Store.Failing s.disturbances) (hrefuses : Refuses s undeletable)
    (hviews : views.map TaskView.task = s.tables.tasks) (hkeyed : Store.Keyed s.tables.tasks)
    (h : Underway rules undeletable views s done p) (order : List Nat) :
    Underway rules undeletable views s (done ++ order) (p.run rules order) := by
  -- `done` grows by the steps that are taken off the order
  induction order generalizing done p with
  | nil => simpa [Pool.run] using h
  | cons place order ih =>
    have hnext := ih (step_underway hf hrefuses hviews hkeyed h place)
    rw [List.append_assoc] at hnext
    exact hnext

/-- Before any step. -/
theorem start_underway (rules : List Rule) (undeletable : String → Bool) (g : Registry)
    (views : List TaskView) (e : Log.Entry) :
    Underway rules undeletable views g.store [] ⟨views.map .waiting, g.say e⟩ := by
  refine ⟨List.length_map _, fun i v j hv hj => ?_, fun i j _ => Nat.zero_le _,
    Store.Follows.refl g.store, ?_⟩
  · rw [List.getElem?_map, hv, Option.map_some, Option.some.injEq] at hj
    exact hj ▸ Stage.waiting
  · have hnone (id : String) : gone views (views.map .waiting) id = false := by
      rw [← Bool.not_eq_true, gone_iff]
      rintro ⟨i, v, j, hv, hj, hdeletion, -⟩
      rw [List.getElem?_map, hv, Option.map_some, Option.some.injEq] at hj
      subst hj
      cases hdeletion
    simp [hnone, Registry.say]

/-- Workers that have taken two steps are done. -/
theorem jobs_of_completes (h : Underway rules undeletable views s done p)
    (hcomplete : Completes views.length done) :
    p.jobs = views.map fun v => .settled (fateOf rules undeletable v) := by
  refine List.ext_getElem? fun i => ?_
  rw [List.getElem?_map]
  by_cases hi : i < views.length
  · obtain ⟨j, hj⟩ : ∃ j, p.jobs[i]? = some j :=
      ⟨_, List.getElem?_eq_getElem (h.length ▸ hi)⟩
    obtain ⟨v, hv⟩ : ∃ v, views[i]? = some v := ⟨_, List.getElem?_eq_getElem hi⟩
    have hprogress := h.progress i j hj
    have hcount := hcomplete i hi
    rw [hj, hv]
    -- a worker that still has something to do has taken less than two steps
    cases h.stage i v j hv hj with
    | settled => rfl
    | _ =>
      simp only [Job.progress] at hprogress
      omega
  · rw [List.getElem?_eq_none (by rw [h.length]; omega), List.getElem?_eq_none (by omega)]
    rfl

/-- What is gone in the end is what should be deleted. -/
theorem gone_of_completes (hviews : views.map TaskView.task = s.tables.tasks)
    (hkeyed : Store.Keyed s.tables.tasks) {v : TaskView} (hv : v ∈ views) :
    gone views (views.map fun v => .settled (fateOf rules undeletable v)) v.task.id =
      (condemns rules v && !undeletable v.task.id) := by
  have hfate (u : TaskView) : Job.isDeletion (.settled (fateOf rules undeletable u)) =
      (condemns rules u && !undeletable u.task.id) := by
    rw [Bool.eq_iff_iff, ← (fateOf_iff rules undeletable u).1]
    cases fateOf rules undeletable u <;> simp [Job.isDeletion]
  rw [Bool.eq_iff_iff, gone_iff, ← hfate]
  obtain ⟨k, hk⟩ := List.mem_iff_getElem?.mp hv
  constructor
  · rintro ⟨i, u, j, hu, hj, hdeletion, hid⟩
    obtain rfl := place_of_id hviews hkeyed hu hk hid
    obtain rfl : u = v := Option.some.inj (hu.symm.trans hk)
    rw [List.getElem?_map, hu, Option.map_some, Option.some.injEq] at hj
    exact hj ▸ hdeletion
  · intro hdeletion
    exact ⟨k, v, _, hk, by rw [List.getElem?_map, hk, Option.map_some], hdeletion, rfl⟩

/-- How many tasks have a fate, by what decides it. -/
theorem count_fates (tasks : List Task) (view : Task → TaskView) (f : Fate)
    (decides : Task → Bool)
    (h : ∀ u, (fateOf rules undeletable (view u) = f) ↔ decides u = true) :
    List.count f ((tasks.map view).map (fateOf rules undeletable)) = tasks.countP decides := by
  rw [List.map_map, List.count, List.countP_map]
  refine List.countP_congr fun u _ => ?_
  simp [h]

/-- The counts of the four fates make up all. -/
theorem count_sum (fates : List Fate) :
    fates.count .deleted + fates.count .failed + fates.count .kept + fates.count .skipped =
      fates.length := by
  induction fates with
  | nil => rfl
  | cons f fates ih => cases f <;> simp <;> omega

/-- The tasks of a store as they are seen. -/
theorem map_task_view (t : Tables) : (t.tasks.map t.view).map TaskView.task = t.tasks := by
  rw [List.map_map]
  exact List.map_id _

/-- What a store comes to when all workers are done with its tasks. -/
theorem Underway.swept (hkeyed : Store.Keyed s.tables.tasks)
    (h : Underway rules undeletable (s.tables.tasks.map s.tables.view) s done p)
    (hcomplete : Completes s.tables.tasks.length done) :
    Swept rules undeletable s.tables p.registry.store.tables (Tally.ofFates p.fates) := by
  have hlength : (s.tables.tasks.map s.tables.view).length = s.tables.tasks.length :=
    List.length_map _
  have hjobs := jobs_of_completes h (hlength.symm ▸ hcomplete)
  have hfates : p.fates = (s.tables.tasks.map s.tables.view).map (fateOf rules undeletable) := by
    rw [Pool.fates, hjobs, List.filterMap_map]
    exact congrFun List.filterMap_eq_map _
  have hcount (f : Fate) (decides : Task → Bool)
      (hdecides : ∀ u, (fateOf rules undeletable (s.tables.view u) = f) ↔ decides u = true) :
      p.fates.count f = s.tables.tasks.countP decides := by
    rw [hfates]
    exact count_fates _ _ f decides hdecides
  exact {
    tables := by
      rw [h.tables, hjobs]
      refine congrArg (fun tasks => { s.tables with tasks := tasks }) ?_
      refine List.filter_congr fun u hu => ?_
      exact congrArg not
        (gone_of_completes (map_task_view s.tables) hkeyed (List.mem_map_of_mem hu))
    deleted := hcount .deleted _ fun u => (fateOf_iff rules undeletable (s.tables.view u)).1
    failed := hcount .failed _ fun u => (fateOf_iff rules undeletable (s.tables.view u)).2.1
    kept := hcount .kept _ fun u => (fateOf_iff rules undeletable (s.tables.view u)).2.2.1
    skipped := hcount .skipped _ fun u => (fateOf_iff rules undeletable (s.tables.view u)).2.2.2
    scanned := by
      change p.fates.length = _
      rw [hfates, List.length_map, hlength]
    sum := count_sum p.fates }

/-- A sweep of all tasks of a store. -/
theorem settle_swept (rules : List Rule) {g : Registry} (hf : Store.Failing g.store.disturbances)
    (hrefuses : Refuses g.store undeletable) (hkeyed : Store.Keyed g.store.tables.tasks)
    {order : Schedule}
    (hcomplete : Completes g.store.tables.tasks.length (order g.store.tables.tasks.length)) :
    ∃ n h, settle order rules g (g.store.tables.tasks.map g.store.tables.view) = (.ok n, h) ∧
      Swept rules undeletable g.store.tables h.store.tables n := by
  have hlength : (g.store.tables.tasks.map g.store.tables.view).length =
      g.store.tables.tasks.length := List.length_map _
  unfold settle
  rw [hlength]
  have hend := run_underway hf hrefuses (map_task_view g.store.tables) hkeyed
    (start_underway rules undeletable g _ (openingLine g.store.tables.tasks.length rules.length))
    (order g.store.tables.tasks.length)
  rw [List.nil_append] at hend
  exact ⟨_, _, rfl, hend.swept hkeyed hcomplete⟩

end

/-- The rules that a sweep is given, or else those that are stored for suppressing. -/
def applied (g : Registry) (rules : Option (List Rule)) : List Rule :=
  rules.getD (g.store.tables.listed (some .suppress))

theorem Loadable.listTasks {g : Registry} (h : Loadable g.store) :
    (g.withStore fun s => s.listTasks) =
      (.ok (.given (g.store.tables.tasks.map g.store.tables.view)), g) := by
  unfold Registry.withStore
  beta_reduce
  rw [Store.listTasks_of_calm (h.calm _ (by simp)) (h.calm _ (by simp)) h.isOpen]

theorem Loadable.listRules {g : Registry} (h : Loadable g.store) (action : RuleAction) :
    (g.takingEach "action" fun s => s.listRules (some action)) =
      (.ok (g.store.tables.listed (some action)), g) := by
  unfold Registry.takingEach
  beta_reduce
  rw [Store.listRules_of_calm (h.calm _ (by simp)) (h.calm _ (by simp)) (h.calm _ (by simp))
    h.isOpen]
  simp only [Except.bind, Store.Answer.takeEach, Store.takeRows_given]

/-- A sweep succeeds as soon as rules and tasks can be loaded. In whatever order its workers take
their steps, it deletes exactly the tasks that the rules suppress and that can be deleted, changes
nothing else, and counts what became of all tasks; without a rule that suppresses it does nothing at
all. -/
theorem run_swept {g : Registry} {undeletable : String → Bool} (hload : Loadable g.store)
    (hrefuses : Refuses g.store undeletable) (hkeyed : Store.Keyed g.store.tables.tasks)
    (rules : Option (List Rule)) (order : Schedule)
    (hcomplete : Completes g.store.tables.tasks.length (order g.store.tables.tasks.length)) :
    ∃ n h, run g rules order = (.ok n, h) ∧
      ((∃ r ∈ applied g rules, r.draft.action = .suppress) →
        Swept (applied g rules) undeletable g.store.tables h.store.tables n) ∧
      ((∀ r ∈ applied g rules, r.draft.action ≠ .suppress) →
        n = {} ∧ h.store.tables = g.store.tables) := by
  have hrun : run g rules order = runWith order g (applied g rules) := by
    cases rules with
    | some rs => rfl
    | none =>
      unfold run
      simp only [hload.listRules]
      rfl
  rw [hrun]
  generalize applied g rules = rs
  by_cases hactive : ∃ r ∈ rs, r.draft.action = .suppress
  · obtain ⟨n, h, hsettle, hswept⟩ := settle_swept (rs.filter (·.draft.action = .suppress))
      hload.failing hrefuses hkeyed hcomplete
    have hnonempty : (rs.filter (·.draft.action = .suppress)).isEmpty = false := by
      simpa [List.isEmpty_eq_false_iff, List.filter_eq_nil_iff] using hactive
    refine ⟨n, h, ?_, fun _ => hswept.unfiltered, fun hnone => ?_⟩
    · unfold runWith
      simp only [hnonempty, hload.listTasks]
      exact hsettle
    · obtain ⟨r, hr, hsuppress⟩ := hactive
      exact absurd hsuppress (hnone r hr)
  · have hempty : (rs.filter (·.draft.action = .suppress)).isEmpty = true := by
      simpa [List.isEmpty_iff, List.filter_eq_nil_iff] using hactive
    refine ⟨{}, g.say (note .info "No suppression rules found. Nothing to clean."), ?_,
      fun h => absurd h hactive, fun _ => ⟨rfl, rfl⟩⟩
    unfold runWith
    simp only [hempty, if_true]

/-- The order that is taken by default. -/
theorem inTurn_fair : Fair inTurn := by
  intro tasks place hplace
  induction tasks with
  | zero => omega
  | succ n ih =>
    have hinTurn : inTurn (n + 1) = inTurn n ++ [n, n] := by
      simp [inTurn, List.range_succ]
    rw [hinTurn, List.count_append]
    by_cases hlast : place = n
    · simp [hlast]
    · have hbefore := ih (by omega)
      omega

/-- Two tasks of a suppressed sender, one of another and one of nobody. -/
def crowded : Store where
  tables := {
    rules := [⟨.whole 1, "r", ⟨.domain, "x.com", .suppress, none, none, none⟩, "2024-01-01"⟩]
    threads := [⟨"ann", none, some "Ann <ann@x.com>"⟩, ⟨"bob", none, some "bob@y.com"⟩]
    tasks := [⟨"a", "Offer", some "ann"⟩, ⟨"b", "Offer", some "ann"⟩, ⟨"c", "Lunch", some "bob"⟩,
      ⟨"d", "Call", none⟩] }
  counter := .whole 1
  marks := ⟨fun _ => "", fun _ => "", fun _ => "", fun _ => "", ""⟩

/-- The registry with these tasks where the second cannot be deleted. -/
def stubborn : Registry where
  store := crowded.disturbed
    ⟨.deleteTask, fun _ id => id.any (· = "b"), .failure ⟨.database, "locked"⟩, 0⟩

theorem run_swept_stubborn : ∃ n h,
    run stubborn none (fun _ => [3, 1, 0, 2, 0, 3, 2, 1]) = (.ok n, h) ∧
      n = ⟨4, 1, 1, 1, 1⟩ ∧ h.store.tables.tasks.map Task.id = ["b", "c", "d"] := by
  have hload : Loadable stubborn.store := by
    refine ⟨rfl, fun d hd => ?_, fun op hop d hd => ?_⟩
    all_goals
      obtain rfl : d = _ := List.mem_singleton.mp hd
    · exact ⟨_, rfl⟩
    · revert hop
      cases op <;> decide
  obtain ⟨n, h, hrun, hswept, -⟩ := run_swept hload
    (refuses_disturbed (s := crowded) rfl rfl rfl (· = "b") _) (by unfold Store.Keyed; decide)
    none (fun _ => [3, 1, 0, 2, 0, 3, 2, 1]) (by unfold Completes; decide)
  obtain ⟨htables, hdeleted, hfailed, hkept, hskipped, hscanned, -⟩ := hswept (by decide +kernel)
  refine ⟨n, h, hrun, ?_, ?_⟩
  · obtain ⟨scanned, deleted, kept, skipped, failed⟩ := n
    simp only at hdeleted hfailed hkept hskipped hscanned
    subst hdeleted hfailed hkept hskipped hscanned
    decide +kernel
  · rw [htables]
    decide +kernel

end Sweep

end MailRules
