import Mathlib.Algebra.GroupWithZero.Nat
import MailRules.Proofs.Registry.Phase
import MailRules.Proofs.Registry.Resweep

set_option autoImplicit false

/-!
# Sweeps at the same time

Several sweeps work on one registry while somebody else makes changes to it: adds and deletes tasks
and threads, and creates and deletes rules. Each sweep goes by the rules and tasks that it has
loaded, which may be out of date by the time that it deletes something.

Every identifier of a task that has ever been in the table is still there, or has been taken out by
exactly one of those who delete (`Shared.Balanced`): a task is deleted by its identifier, and only
who finds its row counts it. Each step keeps that (`step_balanced`), so every interleaving does
(`run_balanced`), and the counts of the sweeps add up (`interleaving_accounted`).
-/

namespace MailRules

open Store (Task TaskView Tables)

namespace Store

/-- The identifiers of the tasks. -/
def Tables.taskIds (t : Tables) : List String :=
  t.tasks.map Task.id

/-- What has left the rows has been taken: each identifier is found as often in both together as
before. -/
def Conserved (rows gone rows' gone' : List String) : Prop :=
  ∀ id, rows'.count id + gone'.count id = rows.count id + gone.count id

theorem Conserved.refl (rows gone : List String) : Conserved rows gone rows gone :=
  fun _ => rfl

/-- The task that has been taken by who was told so. -/
def taken (id : String) : Except Failure (Answer Bool) → List String
  | .ok (.given true) => [id]
  | _ => []

theorem count_filter_ne {rows : List String} (h : rows.Nodup) {x : String} (hx : x ∈ rows)
    (id : String) : (rows.filter (· ≠ x)).count id + [x].count id = rows.count id := by
  by_cases hid : x = id
  · subst hid
    have hnone : (rows.filter (· ≠ x)).count x = 0 :=
      List.count_eq_zero.mpr (by simp)
    rw [hnone, List.count_singleton_self, List.count_eq_one_of_mem h hx]
  · have hother : [x].count id = 0 :=
      List.count_eq_zero.mpr (by simpa using fun heq => hid heq.symm)
    rw [hother, List.count_filter (by simpa using fun heq => hid heq.symm), Nat.add_zero]

/-- Who is told that a task has been deleted has taken its row, and nobody else has. -/
theorem deleteTask_conserves {s : Store} (hs : s.Sound) (id : String) :
    Conserved s.tables.taskIds [] (s.deleteTask id).2.tables.taskIds
      (taken id (s.deleteTask id).1) := by
  rcases hd : s.deleteTask id with ⟨f | answer, t⟩
  · rw [(deleteTask_error hd).tables]
    exact Conserved.refl _ _
  · obtain ⟨rfl, htables⟩ := deleteTask_ok hs.failing hd
    have hrows : t.tables.taskIds = s.tables.taskIds.filter (· ≠ id) := by
      rw [htables, Tables.taskIds, Tables.taskIds, List.filter_map]
      rfl
    intro x
    rw [hrows]
    cases hthere : s.tables.tasks.any (·.id = id) with
    | true =>
      have hmem : id ∈ s.tables.taskIds := by
        obtain ⟨task, htask, hid⟩ := List.any_eq_true.mp hthere
        exact (decide_eq_true_eq.mp hid) ▸ List.mem_map_of_mem htask
      exact count_filter_ne hs.keyed hmem x
    | false =>
      have hnone : s.tables.taskIds.filter (· ≠ id) = s.tables.taskIds := by
        refine List.filter_eq_self.mpr fun y hy => ?_
        obtain ⟨task, htask, rfl⟩ := List.mem_map.mp hy
        simpa using List.any_eq_false.mp hthere task htask
      rw [hnone]
      rfl

end Store

namespace Sweep

open Store (Conserved)

/-- The tasks that their workers have deleted. -/
def deletions (views : List TaskView) (jobs : List Job) : List String :=
  ((views.zip jobs).filter fun p => p.2.isDeletion).map fun p => p.1.task.id

/-- The tasks that a sweep has deleted. -/
def Phase.deletions (p : Phase) : List String :=
  Sweep.deletions p.views p.jobs

/-- The jobs of a sweep are on the tasks that it has loaded. -/
def Phase.Linked (p : Phase) : Prop :=
  List.Forall₂ (Job.On (active p.rules)) p.views p.jobs

/-! ## One step of a sweep -/

variable {g : Registry} {rules : List Rule} {views : List TaskView}

/-- The task of a job, if it has been deleted. -/
def Job.taken (v : TaskView) (j : Job) : List String :=
  if j.isDeletion then [v.task.id] else []

/-- A worker takes the row of its task when it deletes it. -/
theorem advance_conserves (hg : g.store.Sound) {v : TaskView} {j : Job} (h : j.On rules v) :
    Conserved g.store.tables.taskIds (j.taken v) (j.advance rules g).2.store.tables.taskIds
      ((j.advance rules g).1.taken v) := by
  cases j with
  | waiting w =>
    obtain rfl : w = v := h
    obtain ⟨-, hkept, hstore⟩ := judge_on rules g w
    change Conserved _ _ (judge rules g w).2.store.tables.taskIds ((judge rules g w).1.taken w)
    have hnone : (judge rules g w).1.taken w = [] := by simp [Job.taken, hkept]
    rw [hstore, hnone]
    exact Conserved.refl _ _
  | doomed t r =>
    obtain ⟨rfl, -⟩ := h
    have hdelete := Store.deleteTask_conserves hg v.task.id
    revert hdelete
    simp only [Job.advance, remove, Registry.withStore]
    rcases hd : g.store.deleteTask v.task.id with ⟨f | answer, s⟩
    · exact id
    · obtain ⟨rfl, -⟩ := Store.deleteTask_ok hg.failing hd
      cases g.store.tables.tasks.any (·.id = v.task.id) <;> exact id
  | settled f => exact Conserved.refl _ _

/-- What a pool has deleted when the job at a place has been replaced. -/
theorem count_deletions_set {jobs : List Job} {i : Nat} {v : TaskView} {j k : Job}
    (hv : views[i]? = some v) (hj : jobs[i]? = some j) (id : String) :
    (deletions views (jobs.set i k)).count id + (j.taken v).count id =
      (deletions views jobs).count id + (k.taken v).count id := by
  -- by the place: all jobs before it are the same on both sides
  induction views generalizing jobs i with
  | nil => cases hv
  | cons w views ih =>
    cases jobs with
    | nil => cases hj
    | cons l jobs =>
      have hcons (l : Job) (jobs : List Job) : (deletions (w :: views) (l :: jobs)).count id =
          (l.taken w).count id + (deletions views jobs).count id := by
        cases hdeletion : l.isDeletion <;> simp [deletions, Job.taken, hdeletion, List.count_cons]
        omega
      cases i with
      | zero =>
        cases hv
        cases hj
        simp only [List.set_cons_zero, hcons]
        omega
      | succ i =>
        have hrest := ih hv hj
        simp only [List.set_cons_succ, hcons]
        omega

/-- A step in a pool takes the row of a task when it deletes that. -/
theorem step_conserves (hg : g.store.Sound) {jobs : List Job}
    (h : List.Forall₂ (Job.On rules) views jobs) (place : Nat) :
    Conserved g.store.tables.taskIds (deletions views jobs)
      (Pool.step rules ⟨jobs, g⟩ place).registry.store.tables.taskIds
      (deletions views (Pool.step rules ⟨jobs, g⟩ place).jobs) := by
  unfold Pool.step
  rcases hj : jobs[place]? with _ | j
  · exact Conserved.refl _ _
  · obtain ⟨v, hv, hon⟩ := forall₂_getElem? h hj
    intro id
    have hrow := advance_conserves hg hon id
    have hset := count_deletions_set (k := (j.advance rules g).1) hv hj id
    simp only
    omega

theorem deletions_waiting (views : List TaskView) :
    deletions views (views.map .waiting) = [] := by
  induction views with
  | nil => rfl
  | cons v views ih => exact ih

/-- What is left of a sweep after a step: its jobs are still on its tasks, and what it has deleted
has left the table. -/
structure Steps (p : Phase) (g : Registry) (o : Phase × Registry) : Prop where
  sound : o.2.store.Sound
  linked : o.1.Linked
  conserved : Conserved g.store.tables.taskIds p.deletions o.2.store.tables.taskIds o.1.deletions

/-- A step by which nothing is deleted. -/
theorem Steps.unmoved {p q : Phase} {u : Registry} (hg : g.store.Sound)
    (hu : g.store.Unmoved u.store) (hlinked : q.Linked) (hsame : q.deletions = p.deletions) :
    Steps p g (q, u) where
  sound := hg.unmoved hu
  linked := hlinked
  conserved := by
    rw [hu.tables, hsame]
    exact Conserved.refl _ _

theorem begin_steps {p : Phase} (hg : g.store.Sound) {u : Registry}
    (hu : g.store.Unmoved u.store) (hnone : p.deletions = []) (rules : List Rule)
    (views : List TaskView) : Steps p g (Phase.begin rules views u) :=
  Steps.unmoved (u := u.say _) hg hu (waiting_on (active rules) views)
    (hnone ▸ deletions_waiting views)

theorem proceed_steps {p : Phase} (hg : g.store.Sound) (hp : p.Linked) :
    Steps p g (p.proceed g) := by
  cases p with
  | start given =>
    cases given with
    | some rs => exact Steps.unmoved hg (Store.Unmoved.refl _) List.Forall₂.nil rfl
    | none =>
      have hmove : g.store.Unmoved
          (g.takingEach "action" fun s => s.listRules (some .suppress)).2.store :=
        g.store.listRules_unmoved (some .suppress)
      revert hmove
      simp only [Phase.proceed]
      rcases g.takingEach "action" _ with ⟨f | rs, u⟩
      · exact fun hmove => Steps.unmoved hg hmove List.Forall₂.nil rfl
      · exact fun hmove => Steps.unmoved hg hmove List.Forall₂.nil rfl
  | ruled rs =>
    have hmove : g.store.Unmoved (g.withStore Store.listTasks).2.store :=
      g.store.listTasks_unmoved
    revert hmove
    simp only [Phase.proceed]
    by_cases hnone : (active rs).isEmpty = true
    · rw [if_pos hnone]
      exact fun _ => Steps.unmoved (u := g.say _) hg (Store.Unmoved.refl _) List.Forall₂.nil rfl
    · rw [if_neg hnone]
      rcases g.withStore Store.listTasks with ⟨f | views | v, u⟩
      · exact fun hmove => Steps.unmoved hg hmove List.Forall₂.nil rfl
      · exact fun hmove => begin_steps hg hmove rfl rs views
      · intro hmove
        simp only [Phase.beginInstead]
        rcases Store.counted v with f | _ | ⟨w, ws⟩
        · exact Steps.unmoved hg hmove List.Forall₂.nil rfl
        · exact begin_steps hg hmove rfl rs []
        · exact Steps.unmoved (u := u.say _) hg hmove List.Forall₂.nil rfl
  | busy rs views jobs =>
    simp only [Phase.proceed]
    by_cases hdone : (jobs.all fun j => j.fate?.isSome) = true
    · rw [if_pos hdone]
      exact Steps.unmoved (u := g.say _) hg (Store.Unmoved.refl _) hp rfl
    · rw [if_neg hdone]
      exact Steps.unmoved hg (Store.Unmoved.refl _) hp rfl
  | ended | failed => exact Steps.unmoved hg (Store.Unmoved.refl _) hp rfl

/-- Each step of a sweep keeps its jobs on its tasks, and takes the rows that it deletes. -/
theorem move_steps {p : Phase} (hg : g.store.Sound) (hp : p.Linked) (m : Move) :
    Steps p g (p.move g m) := by
  cases m with
  | proceed => exact proceed_steps hg hp
  | serve place =>
    cases p with
    | busy rs views jobs =>
      exact ⟨(step_steady (active rs) jobs place).sound g hg,
        (step_purges (p := ⟨jobs, g⟩) hp place).1, step_conserves hg hp place⟩
    | _ => exact Steps.unmoved hg (Store.Unmoved.refl _) hp rfl

/-! ## All steps -/

/-- A registry on which sweeps are under way, and what has been done to its tasks from outside. -/
structure Shared where
  registry : Registry
  sweeps : List Phase
  /-- The identifiers of tasks that have been added. -/
  added : List String := []
  /-- The tasks that have been deleted by somebody who was told so. -/
  removed : List String := []

/-- What happens next. -/
inductive Event
  /-- The sweep at a place takes its next step. -/
  | sweep (place : Nat) (m : Move)
  /-- Somebody makes a change. -/
  | change (c : Registry.Change)

/-- The task that a change has added, going by the reply. -/
def addedBy : Registry.Change → Except Failure Registry.Reply → List String
  | .insertTask .., .ok (.id (.given id)) => [id]
  | _, _ => []

/-- The task that a change has deleted, going by the reply. -/
def removedBy : Registry.Change → Except Failure Registry.Reply → List String
  | .deleteTask id, .ok (.flag (.given true)) => [id]
  | _, _ => []

namespace Shared

/-- Sweeps that are to begin on a registry, each with given rules or with those stored. -/
def start (g : Registry) (rules : List (Option (List Rule))) : Shared where
  registry := g
  sweeps := rules.map .start

/-- What happens is done. -/
def step (x : Shared) : Event → Shared
  | .sweep place m =>
    match x.sweeps[place]? with
    | none => x
    | some p =>
      match p.move x.registry m with
      | (p, g) => { x with registry := g, sweeps := x.sweeps.set place p }
  | .change c =>
    match x.registry.make c with
    | (r, g) => { x with
        registry := g
        added := x.added ++ addedBy c r
        removed := x.removed ++ removedBy c r }

/-- One thing happens after the other. -/
def run (x : Shared) (es : List Event) : Shared :=
  es.foldl step x

/-- The identifiers of the tasks that are left. -/
def left (x : Shared) : List String :=
  x.registry.store.tables.taskIds

/-- The tasks that sweeps have deleted. -/
def swept (x : Shared) : List String :=
  x.sweeps.flatMap Phase.deletions

/-- Each task that was there before or has been added is left, or has been taken by one who deletes:
each identifier is found as often here as there. -/
structure Balanced (before : List String) (x : Shared) : Prop where
  sound : x.registry.store.Sound
  linked : ∀ p ∈ x.sweeps, p.Linked
  balance : ∀ id, x.left.count id + x.swept.count id + x.removed.count id =
    before.count id + x.added.count id

variable {before : List String} {x : Shared}

theorem count_flatMap_set {sweeps : List Phase} {place : Nat} {p : Phase}
    (hp : sweeps[place]? = some p) (q : Phase) (id : String) :
    ((sweeps.set place q).flatMap Phase.deletions).count id + p.deletions.count id =
      (sweeps.flatMap Phase.deletions).count id + q.deletions.count id := by
  induction sweeps generalizing place with
  | nil => cases hp
  | cons r sweeps ih =>
    cases place with
    | zero =>
      cases hp
      simp only [List.set_cons_zero, List.flatMap_cons, List.count_append]
      omega
    | succ place =>
      have hrest := ih hp
      simp only [List.set_cons_succ, List.flatMap_cons, List.count_append]
      omega

/-- A change that leaves the tasks alone. -/
theorem balance_of_keepsTasks {change : Registry → Registry}
    (h : Registry.Confined Registry.KeepsTasks change) (g : Registry) :
    (change g).store.tables.taskIds = g.store.tables.taskIds :=
  congrArg (List.map Task.id) (h g)

/-- A change from outside adds and removes the tasks that it says. -/
theorem make_balance {g : Registry} (hg : g.store.Sound) (c : Registry.Change) (id : String) :
    (g.make c).2.store.tables.taskIds.count id + (removedBy c (g.make c).1).count id =
      g.store.tables.taskIds.count id + (addedBy c (g.make c).1).count id := by
  cases c with
  | create record actor =>
    exact congrArg (·.count id)
      (balance_of_keepsTasks (Registry.create_keepsTasks record actor) g)
  | createBatch records actor reason =>
    exact congrArg (·.count id)
      (balance_of_keepsTasks (Registry.createBatch_keepsTasks records actor reason) g)
  | delete i actor =>
    exact congrArg (·.count id) (balance_of_keepsTasks (Registry.delete_keepsTasks i actor) g)
  | insertThread participants subject i =>
    exact congrArg (·.count id) (balance_of_keepsTasks (Registry.withStore_confined
      ((Store.insertThread_confined participants subject i).mono
        fun _ _ hsame => hsame.map Prod.snd)) g)
  | insertTask title thread i =>
    simp only [Registry.make, Registry.replying, Registry.withStore]
    rcases hi : g.store.insertTask title thread i with ⟨f | a, t⟩
    · simp [Except.map, addedBy, removedBy, (Store.insertTask_error hi).tables]
    · obtain ⟨new, text, issued, rfl, -, -, -, htables⟩ := Store.insertTask_ok hg.failing hi
      simp [Except.map, addedBy, removedBy, htables, Tables.taskIds]
  | deleteTask i =>
    have hdelete := Store.deleteTask_conserves hg i id
    revert hdelete
    simp only [Registry.make, Registry.replying, Registry.withStore]
    rcases g.store.deleteTask i with ⟨f | answer | v, t⟩
    · exact fun h => h
    · cases answer <;> exact fun h => h
    · exact fun h => h

theorem step_sweep {place : Nat} {p : Phase} (hp : x.sweeps[place]? = some p) (m : Move) :
    x.step (.sweep place m) = { x with
      registry := (p.move x.registry m).2
      sweeps := x.sweeps.set place (p.move x.registry m).1 } := by
  simp only [step, hp]

/-- Whatever happens next keeps the balance. -/
theorem step_balanced (h : Balanced before x) (e : Event) : Balanced before (x.step e) := by
  cases e with
  | sweep place m =>
    cases hp : x.sweeps[place]? with
    | none =>
      have hstep : x.step (.sweep place m) = x := by simp only [step, hp]
      rwa [hstep]
    | some p =>
      have hsteps := move_steps h.sound (h.linked p (List.mem_of_getElem? hp)) m
      rw [step_sweep hp]
      refine ⟨hsteps.sound, fun q hq => ?_, fun id => ?_⟩
      · rcases List.mem_or_eq_of_mem_set hq with hq | rfl
        · exact h.linked q hq
        · exact hsteps.linked
      · have hbalance := h.balance id
        have hconserved := hsteps.conserved id
        have hset := count_flatMap_set hp (p.move x.registry m).1 id
        simp only [left, swept] at hbalance ⊢
        omega
  | change c =>
    have hmake := make_balance h.sound c
    refine ⟨(Registry.make_steady c).sound _ h.sound, h.linked, fun id => ?_⟩
    have hbalance := h.balance id
    have hchange := hmake id
    simp only [step, left, swept, List.count_append] at hbalance ⊢
    omega

theorem run_balanced (h : Balanced before x) (es : List Event) : Balanced before (x.run es) := by
  induction es generalizing x with
  | nil => exact h
  | cons e es ih => exact ih (step_balanced h e)

theorem start_balanced {g : Registry} (hg : g.store.Sound) (rules : List (Option (List Rule))) :
    Balanced g.store.tables.taskIds (start g rules) := by
  refine ⟨hg, fun p hp => ?_, fun id => ?_⟩
  · obtain ⟨given, -, rfl⟩ := List.mem_map.mp hp
    exact List.Forall₂.nil
  · have hnone : (start g rules).swept = [] := by
      simp only [swept, start, List.flatMap_map]
      exact List.flatMap_eq_nil_iff.mpr fun _ _ => rfl
    rw [hnone]
    rfl

/-! ## What is counted -/

/-- A sweep counts the tasks that it has deleted. -/
theorem tally_deleted {p : Phase} (h : p.Linked) : p.tally.deleted = p.deletions.length := by
  unfold Phase.Linked at h
  unfold Phase.tally Phase.deletions
  generalize p.views = views at h
  generalize p.jobs = jobs at h
  change (jobs.filterMap Job.fate?).count .deleted = (deletions views jobs).length
  induction h with
  | nil => rfl
  | @cons v j views jobs hon hrest ih =>
    cases j with
    | settled f => cases f <;> simpa [deletions, Job.fate?, Job.isDeletion] using ih
    | _ => exact ih

/-- A sweep deletes only tasks that its rules condemn. -/
theorem deletions_condemned {rules : List Rule} {views : List TaskView} {jobs : List Job}
    (h : List.Forall₂ (Job.On rules) views jobs) :
    ∀ id ∈ Sweep.deletions views jobs, Condemned rules views id := by
  intro id hid
  obtain ⟨⟨v, j⟩, hvj, rfl⟩ := List.mem_map.mp hid
  obtain ⟨hzip, hdeletion⟩ := List.mem_filter.mp hvj
  have hon := List.forall₂_zip h hzip
  refine ⟨v, (List.of_mem_zip hzip).1, rfl, ?_⟩
  cases j with
  | settled f =>
    cases f with
    | deleted => exact hon
    | _ => cases hdeletion
  | _ => cases hdeletion

/-- The counts of sweeps, and what they have deleted, against what has become of the rows. -/
structure Accounted (before : List String) (x : Shared) : Prop where
  /-- No sweep counts a task twice. -/
  once : ∀ p ∈ x.sweeps, p.deletions.Nodup
  /-- No two sweeps count the same task. -/
  apart : x.sweeps.Pairwise fun p q => p.deletions.Disjoint q.deletions
  /-- No task that a sweep counts has also been deleted from outside. -/
  outside : ∀ p ∈ x.sweeps, p.deletions.Disjoint x.removed
  /-- What a sweep counts as deleted are the tasks that it has deleted. -/
  tallied : ∀ p ∈ x.sweeps, p.tally.deleted = p.deletions.length
  /-- The counts of the sweeps and the deletions from outside make up the rows that are gone. -/
  total : (x.sweeps.map fun p => p.tally.deleted).sum + x.removed.length =
    ((before ++ x.added).filter fun id => id ∉ x.left).length
  /-- A sweep deletes only tasks that the rules which it has loaded suppress. -/
  own : ∀ p ∈ x.sweeps, ∀ id ∈ p.deletions, Condemned p.rules p.views id

theorem Balanced.nodup (h : Balanced before x) (hnever : (before ++ x.added).Nodup) :
    (x.left ++ (x.swept ++ x.removed)).Nodup := by
  rw [List.nodup_iff_count_le_one] at hnever ⊢
  intro id
  have hbalance := h.balance id
  have honce := hnever id
  simp only [List.count_append] at honce ⊢
  omega

/-- The rows that are gone are those that have been deleted. -/
theorem Balanced.gone (h : Balanced before x) (hnever : (before ++ x.added).Nodup) :
    ((before ++ x.added).filter fun id => id ∉ x.left).Perm (x.swept ++ x.removed) := by
  rw [List.perm_iff_count]
  intro id
  have hbalance := h.balance id
  rw [List.count_append]
  by_cases hleft : id ∈ x.left
  · have honce := List.nodup_iff_count_le_one.mp (h.nodup hnever) id
    have hpositive := List.count_pos_iff.mpr hleft
    have hnone : ((before ++ x.added).filter fun id => id ∉ x.left).count id = 0 :=
      List.count_eq_zero.mpr (by simp [hleft])
    simp only [List.count_append] at honce
    omega
  · have hzero := List.count_eq_zero.mpr hleft
    rw [List.count_filter (by simpa using hleft), List.count_append]
    omega

theorem Balanced.accounted (h : Balanced before x) (hnever : (before ++ x.added).Nodup) :
    Accounted before x := by
  obtain ⟨-, hgone, -⟩ := List.nodup_append.mp (h.nodup hnever)
  obtain ⟨hswept, -, hdisjoint⟩ := List.nodup_append.mp hgone
  obtain ⟨honce, hapart⟩ := List.nodup_flatMap.mp hswept
  have htallied : ∀ p ∈ x.sweeps, p.tally.deleted = p.deletions.length :=
    fun p hp => tally_deleted (h.linked p hp)
  refine ⟨honce, hapart, fun p hp id hid hremoved => ?_, htallied, ?_, fun p hp id hid => ?_⟩
  · exact hdisjoint id (List.mem_flatMap.mpr ⟨p, hp, hid⟩) id hremoved rfl
  · rw [(h.gone hnever).length_eq, List.length_append, swept, List.length_flatMap,
      List.map_congr_left htallied]
  · obtain ⟨v, hv, heq, hcondemns⟩ := deletions_condemned (h.linked p hp) id hid
    rw [active, condemns_filter] at hcondemns
    exact ⟨v, hv, heq, hcondemns⟩

/-- However the steps of sweeps and changes from outside come one after the other: as long as no
identifier is used twice, what sweeps count adds up, and no deletion is counted twice. -/
theorem interleaving_accounted {g : Registry} (hg : g.store.Sound)
    (rules : List (Option (List Rule))) (es : List Event)
    (hnever : (g.store.tables.taskIds ++ ((start g rules).run es).added).Nodup) :
    Accounted g.store.tables.taskIds ((start g rules).run es) :=
  (run_balanced (start_balanced hg rules) es).accounted hnever

/-- Two sweeps of a crowd, of which the second goes by rules of its own. Both have looked at the
first task before either deletes it. Meanwhile one task that both have loaded is deleted from
outside, and another one is added. -/
def race : List Event :=
  [.sweep 0 .proceed, .sweep 1 .proceed, .sweep 0 .proceed, .sweep 1 .proceed,
    .sweep 0 (.serve 0), .sweep 1 (.serve 0), .sweep 1 (.serve 0), .sweep 0 (.serve 0),
    .sweep 0 (.serve 1), .change (.deleteTask "b"), .sweep 0 (.serve 1), .sweep 1 (.serve 2),
    .change (.insertTask (some "Offer") (some "ann") (some "e")), .sweep 1 (.serve 2)]

theorem calmCrowd_sound : calmCrowd.store.Sound := by
  refine ⟨⟨1, rfl, by decide, ⟨[1], rfl, ?_, ?_⟩, Store.numbered_nil 1⟩,
    calmCrowd_faultless.keyed, Store.failing_nil⟩ <;> simp

theorem interleaving_accounted_race :
    (calmCrowd.store.tables.taskIds ++
        ((start calmCrowd [none, some (annRules ++ bobRules)]).run race).added).Nodup ∧
      (((start calmCrowd [none, some (annRules ++ bobRules)]).run race).sweeps.map
        Phase.deletions) = [[], ["a", "c"]] ∧
      Accounted calmCrowd.store.tables.taskIds
        ((start calmCrowd [none, some (annRules ++ bobRules)]).run race) := by
  have hnever : (calmCrowd.store.tables.taskIds ++
      ((start calmCrowd [none, some (annRules ++ bobRules)]).run race).added).Nodup := by
    decide +kernel
  exact ⟨hnever, by decide +kernel, interleaving_accounted calmCrowd_sound _ race hnever⟩

end Shared

end Sweep

end MailRules
