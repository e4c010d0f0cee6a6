import MailRules.Engine
import MailRules.Proofs.Store.Alike

set_option autoImplicit false

/-!
# Steady operations

Two registries are `Alike` when their stores are and the same events wait in their queues; what
has been logged does not matter. An operation is `Steady` when it keeps a sound store sound, gives
out ranks only upwards, and comes to the same on registries that are alike, which it leaves alike,
unless the second store gets spent.

Steady operations may be done one after the other (`Steady.bind`), so every operation of the registry
is steady because those of the store are.
-/

namespace MailRules

namespace Store

variable {α : Type}

/-- An operation of the store that keeps it sound and cannot tell apart stores that are alike. -/
structure Steady (run : Store → Outcome α) : Prop where
  follows : ∀ s, Follows s (run s).2
  sound : ∀ s, Sound s → Sound (run s).2
  agree : ∀ s t, Alike s t → Agree (run s) (run t)

/-- An operation that moves nothing keeps a store sound. -/
theorem Steady.ofUnmoved {run : Store → Outcome α} (hmove : ∀ s, Unmoved s (run s).2)
    (hagree : ∀ s t, Alike s t → Agree (run s) (run t)) : Steady run :=
  ⟨fun s => (hmove s).toFollows, fun s h => h.unmoved (hmove s), hagree⟩

end Store

namespace Registry

variable {α β : Type}

/-- Registries that differ only in the ranks of their rows and in what has been logged. -/
structure Alike (g h : Registry) : Prop where
  store : g.store.Alike h.store
  isDeferred : g.isDeferred = h.isDeferred
  queue : g.queue = h.queue

/-- The same has come of an operation on two registries, and they are alike afterwards, unless the
second store is spent. -/
def Agree (o p : α × Registry) : Prop :=
  p.2.store.IsSpent ∨ o.1 = p.1 ∧ Alike o.2 p.2

/-- An operation that keeps the store sound and cannot tell apart registries that are alike. -/
structure Steady (run : Registry → α × Registry) : Prop where
  follows : ∀ g : Registry, g.store.Follows (run g).2.store
  sound : ∀ g : Registry, g.store.Sound → (run g).2.store.Sound
  agree : ∀ g h, Alike g h → Agree (run g) (run h)

/-- A steady change without a result. -/
def Quiet (change : Registry → Registry) : Prop :=
  Steady fun g => ((), change g)

/-! ## Steady operations one after the other -/

theorem Steady.answer (a : α) : Steady fun g => (a, g) :=
  ⟨fun g => Store.Follows.refl g.store, fun _ h => h, fun _ _ h => Or.inr ⟨rfl, h⟩⟩

/-- Goes on with the result of a steady operation. -/
theorem Steady.bind {run : Registry → α × Registry} (hrun : Steady run)
    (next : α → Registry → β × Registry) (hnext : ∀ a, Steady (next a)) :
    Steady fun g => next (run g).1 (run g).2 where
  follows g := (hrun.follows g).trans ((hnext _).follows _)
  sound g h := (hnext _).sound _ (hrun.sound g h)
  agree g h hgh := by
    rcases hrun.agree g h hgh with hspent | ⟨heq, halike⟩
    · exact Or.inl (hspent.follows ((hnext _).follows _))
    · rw [heq]
      exact (hnext _).agree _ _ halike

theorem Steady.map {run : Registry → α × Registry} (hrun : Steady run) (f : α → β) :
    Steady fun g => (f (run g).1, (run g).2) :=
  hrun.bind (fun a g => (f a, g)) fun a => Steady.answer (f a)

/-- Goes on with what waits in the queue. -/
theorem Steady.queued {run : List Audit.Note → Registry → α × Registry}
    (hrun : ∀ q, Steady (run q)) : Steady fun g => run g.queue g where
  follows g := (hrun g.queue).follows g
  sound g := (hrun g.queue).sound g
  agree g h hgh := by
    rw [hgh.queue]
    exact (hrun h.queue).agree g h hgh

/-- Goes on according to whether events wait. -/
theorem Steady.deferred {run run' : Registry → α × Registry} (hrun : Steady run)
    (hrun' : Steady run') : Steady fun g => if g.isDeferred then run g else run' g where
  follows g := by
    split
    · exact hrun.follows g
    · exact hrun'.follows g
  sound g h := by
    split
    · exact hrun.sound g h
    · exact hrun'.sound g h
  agree g h hgh := by
    rw [hgh.isDeferred]
    split
    · exact hrun.agree g h hgh
    · exact hrun'.agree g h hgh

theorem Quiet.answer {change : Registry → Registry} (h : Quiet change) (a : α) :
    Steady fun g => (a, change g) :=
  Steady.map h fun _ => a

theorem Quiet.then {change : Registry → Registry} (h : Quiet change)
    {run : Registry → α × Registry} (hrun : Steady run) : Steady fun g => run (change g) :=
  Steady.bind h (fun _ => run) fun _ => hrun

theorem Quiet.comp {change change' : Registry → Registry} (h' : Quiet change')
    (h : Quiet change) : Quiet fun g => change' (change g) :=
  h.then h'

theorem quiet_id : Quiet fun g => g :=
  Steady.answer ()

theorem quiet_foldl {change : α → Registry → Registry} (h : ∀ a, Quiet (change a)) (as : List α) :
    Quiet fun g => as.foldl (fun g a => change a g) g := by
  induction as with
  | nil => exact quiet_id
  | cons a as ih => exact (h a).then ih

/-! ## Log and queue -/

theorem sayAll_quiet (es : List Log.Entry) : Quiet fun g => g.sayAll es where
  follows g := Store.Follows.refl g.store
  sound _ h := h
  agree _ _ h := Or.inr ⟨rfl, h.store, h.isDeferred, h.queue⟩

theorem say_quiet (e : Log.Entry) : Quiet fun g => g.say e :=
  sayAll_quiet [e]

theorem setQueue_quiet (q : List Audit.Note) : Quiet fun g => { g with queue := q } where
  follows g := Store.Follows.refl g.store
  sound _ h := h
  agree _ _ h := Or.inr ⟨rfl, h.store, h.isDeferred, rfl⟩

/-! ## The store -/

theorem withStore_steady {work : Store → Store.Outcome α} (h : Store.Steady work) :
    Steady fun g => g.withStore work where
  follows g := h.follows g.store
  sound g := h.sound g.store
  agree g g' hg := by
    rcases h.agree _ _ hg.store with hspent | ⟨heq, halike⟩
    · exact Or.inl hspent
    · exact Or.inr ⟨heq, halike, hg.isDeferred, hg.queue⟩

theorem taking_steady {work : Store → Store.Outcome (Store.Answer α)} (h : Store.Steady work)
    (instead : Json → Except Failure α) : Steady fun g => g.taking instead work :=
  (withStore_steady h).map fun r => r.bind (·.take instead)

theorem takingEach_steady
    {work : Store → Store.Outcome (Store.Answer (List (Store.Answer α)))} (h : Store.Steady work)
    (member : String) : Steady fun g => g.takingEach member work :=
  (withStore_steady h).map fun r => r.bind (·.takeEach member)

theorem insertEvent_steady (n : Audit.Note) : Store.Steady fun s => s.insertEvent n :=
  ⟨fun s => s.insertEvent_follows n, fun _ h => Store.insertEvent_sound h n,
    fun _ _ h => Store.insertEvent_agree h n⟩

theorem insertRule_steady (d : Draft) : Store.Steady fun s => s.insertRule d :=
  ⟨fun s => s.insertRule_follows d, fun _ h => Store.insertRule_sound h d,
    fun _ _ h => Store.insertRule_agree h d⟩

theorem insertRules_steady (ds : List Draft) : Store.Steady fun s => s.insertRules ds :=
  ⟨fun s => s.insertRules_follows ds, fun _ h => Store.insertRules_sound h ds,
    fun _ _ h => Store.insertRules_agree h ds⟩

theorem deleteRule_steady (id : String) : Store.Steady fun s => s.deleteRule id :=
  ⟨fun s => s.deleteRule_follows id, fun _ h => Store.deleteRule_sound h id,
    fun _ _ h => Store.deleteRule_agree h id⟩

theorem findRule_steady (id : String) : Store.Steady fun s => s.findRule id :=
  .ofUnmoved (fun s => s.findRule_unmoved id) fun _ _ h => Store.findRule_agree h id

theorem listRules_steady (action : Option RuleAction) :
    Store.Steady fun s => s.listRules action :=
  .ofUnmoved (fun s => s.listRules_unmoved action) fun _ _ h => Store.listRules_agree h action

theorem listEvents_steady (limit : Int) : Store.Steady fun s => s.listEvents limit :=
  .ofUnmoved (fun s => s.listEvents_unmoved limit) fun _ _ h => Store.listEvents_agree h limit

theorem insertThread_steady (participants subject id : Option String) :
    Store.Steady fun s => s.insertThread participants subject id :=
  ⟨fun s => s.insertThread_follows participants subject id,
    fun _ h => Store.insertThread_sound h participants subject id,
    fun _ _ h => Store.insertThread_agree h participants subject id⟩

theorem insertTask_steady (title thread id : Option String) :
    Store.Steady fun s => s.insertTask title thread id :=
  ⟨fun s => s.insertTask_follows title thread id,
    fun _ h => Store.insertTask_sound h title thread id,
    fun _ _ h => Store.insertTask_agree h title thread id⟩

theorem deleteTask_steady (id : String) : Store.Steady fun s => s.deleteTask id :=
  ⟨fun s => s.deleteTask_follows id, fun _ h => Store.deleteTask_sound h id,
    fun _ _ h => Store.deleteTask_agree h id⟩

theorem listTasks_steady : Store.Steady Store.listTasks :=
  .ofUnmoved Store.listTasks_unmoved fun _ _ h => Store.listTasks_agree h

theorem countTasks_steady : Store.Steady Store.countTasks :=
  .ofUnmoved Store.countTasks_unmoved fun _ _ h => Store.countTasks_agree h

/-! ## Events -/

theorem write_quiet (n : Audit.Note) : Quiet fun g => g.write n := by
  let conclude (r : Except Failure Unit) (g : Registry) : Unit × Registry :=
    match r with
    | .ok _ => ((), g)
    | .error f => ((), g.say (writeReport n f))
  have hconclude (r : Except Failure Unit) : Steady (conclude r) := by
    cases r with
    | ok => exact quiet_id
    | error f => exact say_quiet _
  have hwrite : (fun g : Registry => ((), g.write n)) = fun g =>
      conclude (g.withStore fun s => s.insertEvent n).1
        (g.withStore fun s => s.insertEvent n).2 := by
    funext g
    simp only [write, withStore]
    rcases g.store.insertEvent n with ⟨_ | _, s⟩ <;> rfl
  unfold Quiet
  rw [hwrite]
  exact (withStore_steady (insertEvent_steady n)).bind conclude hconclude

theorem submit_quiet (n : Audit.Note) : Quiet fun g => g.submit n := by
  have hsubmit : (fun g : Registry => ((), g.submit n)) = fun g =>
      if g.isDeferred then ((), { g with queue := g.queue ++ [n] }) else ((), g.write n) := by
    funext g
    unfold submit
    split <;> rfl
  unfold Quiet
  rw [hsubmit]
  exact Steady.deferred (Steady.queued fun q => setQueue_quiet (q ++ [n])) (write_quiet n)

theorem record_quiet (kind : Audit.Kind) (entity entityId : String) (details : Members Json)
    (actor : Option String) : Quiet fun g => g.record kind entity entityId details actor :=
  submit_quiet _

theorem recordAny_quiet (kind : Json) (entity : String) (entityId : Json)
    (details : Privacy.Detail) (actor : Option String) :
    Quiet fun g => g.recordAny kind entity entityId details actor := by
  unfold recordAny
  rcases noteOf? kind entity entityId details actor with f | n
  · exact say_quiet _
  · exact submit_quiet n

theorem writeAll_quiet (notes : List Audit.Note) : Quiet fun g => g.writeAll notes :=
  quiet_foldl write_quiet notes

theorem workOn_quiet (q : List Audit.Note) : Quiet fun g => g.workOn q := by
  cases q with
  | nil => exact quiet_id
  | cons n rest => exact (setQueue_quiet rest).then (write_quiet n)

theorem work_quiet : Quiet work :=
  Steady.queued workOn_quiet

theorem flush_quiet : Quiet flush :=
  Steady.queued fun q => (setQueue_quiet []).then (writeAll_quiet q)

theorem events_steady (limit : Int) : Steady fun g => g.events limit :=
  flush_quiet.then (taking_steady (listEvents_steady limit) _)

theorem carryOutOne_quiet (actor : Option String) (e : Instruction.Effect) :
    Quiet fun g => g.carryOutOne actor e := by
  cases e with
  | log line => exact say_quiet line
  | appeal f => exact record_quiet _ _ _ _ _

theorem carryOut_quiet (actor : Option String) (effects : List Instruction.Effect) :
    Quiet fun g => g.carryOut actor effects :=
  quiet_foldl (carryOutOne_quiet actor) effects

/-! ## Rules -/

/-- Goes on with what has succeeded. -/
def after (o : Outcome α) (next : α → Registry → Outcome β) : Outcome β :=
  match o with
  | (.error f, g) => (.error f, g)
  | (.ok a, g) => next a g

theorem after_steady {run : Registry → Outcome α} {next : α → Registry → Outcome β}
    (hrun : Steady run) (hnext : ∀ a, Steady (next a)) :
    Steady fun g => after (run g) next := by
  refine hrun.bind (fun r g => after (r, g) next) fun r => ?_
  cases r with
  | ok a => exact hnext a
  | error f => exact Steady.answer _

theorem createCanonical_eq (g : Registry) (d : Draft) (actor : Option String) :
    g.createCanonical d actor =
      after (g.taking (Store.lacking "action") fun s => s.insertRule d) fun r g =>
        (.ok r, (g.sayCreated r).recordCreated none actor r) := by
  unfold createCanonical
  rcases g.taking _ _ with ⟨_ | _, _⟩ <;> rfl

theorem createCanonical_steady (d : Draft) (actor : Option String) :
    Steady fun g => g.createCanonical d actor := by
  simp only [createCanonical_eq]
  refine after_steady (taking_steady (insertRule_steady d) _) fun r => ?_
  exact (sayAll_quiet _).then ((record_quiet _ _ _ _ _).answer _)

theorem create_steady (record : Json) (actor : Option String) :
    Steady fun g => g.create record actor := by
  unfold create
  rcases canonicalOf record with r | d
  · exact Steady.answer _
  · exact createCanonical_steady d actor

theorem recordCreated_quiet (reason actor : Option String) (r : Rule) :
    Quiet fun g => g.recordCreated reason actor r :=
  record_quiet _ _ _ _ _

theorem reportBatch_eq (g : Registry) (as : List (Store.Answer Rule)) (duplicates : Nat)
    (actor reason : Option String) :
    g.reportBatch as duplicates actor reason =
      (match (leading as).2 with
        | none => .ok (leading as).1
        | some v => Store.lacking "id" v,
        (leading as).1.foldl (fun g r => g.recordCreated reason actor r)
          (g.say (batchLine as.length duplicates))) := by
  unfold reportBatch
  rcases leading as with ⟨rs, _ | v⟩ <;> rfl

theorem reportBatch_steady (as : List (Store.Answer Rule)) (duplicates : Nat)
    (actor reason : Option String) :
    Steady fun g => g.reportBatch as duplicates actor reason := by
  simp only [reportBatch_eq]
  have hrecord : Quiet fun g =>
      (leading as).1.foldl (fun g r => g.recordCreated reason actor r)
        (g.say (batchLine as.length duplicates)) :=
    (quiet_foldl (recordCreated_quiet reason actor) (leading as).1).comp (say_quiet _)
  exact hrecord.answer _

theorem createDistinct_eq (g : Registry) (ds : List Draft) (duplicates : Nat)
    (actor reason : Option String) :
    g.createDistinct ds duplicates actor reason =
      after (g.taking (fun v => (Store.counted v).map (·.map .instead)) fun s => s.insertRules ds)
        fun as g => g.reportBatch as duplicates actor reason := by
  unfold createDistinct
  rcases g.taking _ _ with ⟨_ | _, _⟩ <;> rfl

theorem createBatch_steady (records : Json) (actor reason : Option String) :
    Steady fun g => g.createBatch records actor reason := by
  unfold createBatch
  rcases Draft.ofBatch records with f | drafts
  · exact Steady.answer _
  · simp only
    rcases canonicalBatch drafts with r | ds
    · exact Steady.answer _
    · simp only [createDistinct_eq]
      exact after_steady (taking_steady (insertRules_steady _) _) fun as =>
        reportBatch_steady as _ actor reason

theorem lookUp_eq (g : Registry) (id member : String) :
    g.lookUp id member =
      after (g.taking (insteadOfRule member) fun s => s.findRule id) fun r g => g.found id r := by
  unfold lookUp
  rcases g.taking _ _ with ⟨_ | _, _⟩ <;> rfl

theorem found_steady (id : String) (r : Option Rule) : Steady fun g => g.found id r := by
  cases r with
  | none => exact Steady.answer _
  | some r => exact Steady.answer _

theorem lookUp_steady (id member : String) : Steady fun g => g.lookUp id member := by
  simp only [lookUp_eq]
  exact after_steady (taking_steady (findRule_steady id) _) (found_steady id)

theorem deleteFound_eq (g : Registry) (r : Rule) (id : String) (actor : Option String) :
    g.deleteFound r id actor =
      after (g.withStore fun s => s.deleteRule id) fun answer g =>
        if answer.isTruthy then
          (.ok (), (g.say (note .info s!"Deleted rule {id}")).record .ruleDeleted ruleEntity id
            (ruleDetails r none) actor)
        else (.error (.unknownRule id), g) := by
  unfold deleteFound
  rcases g.withStore _ with ⟨_ | _, _⟩ <;> rfl

theorem deleteFound_steady (r : Rule) (id : String) (actor : Option String) :
    Steady fun g => g.deleteFound r id actor := by
  simp only [deleteFound_eq]
  refine after_steady (withStore_steady (deleteRule_steady id)) fun answer => ?_
  split
  · exact (say_quiet _).then ((record_quiet _ _ _ _ _).answer _)
  · exact Steady.answer _

theorem delete_eq (g : Registry) (id : String) (actor : Option String) :
    g.delete id actor = after (g.lookUp id "type") fun r g => g.deleteFound r id actor := by
  unfold delete
  rcases g.lookUp id "type" with ⟨_ | _, _⟩ <;> rfl

theorem delete_steady (id : String) (actor : Option String) :
    Steady fun g => g.delete id actor := by
  simp only [delete_eq]
  exact after_steady (lookUp_steady id _) fun r => deleteFound_steady r id actor

theorem list_steady (action : Option RuleAction) : Steady fun g => g.list action :=
  takingEach_steady (listRules_steady action) _

end Registry

/-! ## The sweep -/

namespace Sweep

open Registry (Steady)

theorem remove_steady (t : Store.Task) (r : Rule) : Steady fun g => remove g t r := by
  let conclude (o : Except Failure (Store.Answer Bool)) (g : Registry) : Fate × Registry :=
    match o with
    | .ok answer => if answer.isTruthy then (.deleted, g.say (deletedLine t r)) else (.skipped, g)
    | .error f =>
      (.failed, g.say (taskReport "Deleting suppressed task" f.family.name f.text t.id))
  have hconclude (o : Except Failure (Store.Answer Bool)) : Steady (conclude o) := by
    cases o with
    | ok answer =>
      by_cases htrue : answer.isTruthy = true
      · simp only [conclude, htrue, if_true]
        exact (Registry.say_quiet _).answer _
      · simp only [conclude, htrue]
        exact Steady.answer _
    | error f => exact (Registry.say_quiet _).answer _
  have hremove : (fun g : Registry => remove g t r) = fun g =>
      conclude (g.withStore fun s => s.deleteTask t.id).1
        (g.withStore fun s => s.deleteTask t.id).2 := by
    funext g
    unfold remove
    rcases g.withStore _ with ⟨_ | _, _⟩ <;> rfl
  rw [hremove]
  exact (Registry.withStore_steady (Registry.deleteTask_steady t.id)).bind conclude hconclude

theorem judge_steady (rules : List Rule) (v : Store.TaskView) :
    Steady fun g => judge rules g v := by
  unfold judge
  rcases v.thread with _ | thread
  · exact Steady.answer _
  · simp only
    rcases Subject.of? thread.participants (some v.task.title) with _ | subject
    · exact (Registry.say_quiet _).answer _
    · simp only
      rcases firstApplying .suppress rules subject with _ | r
      · exact (Registry.sayAll_quiet _).answer _
      · exact (Registry.sayAll_quiet _).answer _

theorem advance_steady (rules : List Rule) (j : Job) : Steady fun g => j.advance rules g := by
  cases j with
  | waiting v => exact judge_steady rules v
  | doomed t r => exact (remove_steady t r).map Job.settled
  | settled f => exact Steady.answer _

theorem step_steady (rules : List Rule) (jobs : List Job) (place : Nat) :
    Steady fun g => ((Pool.step rules ⟨jobs, g⟩ place).jobs,
      (Pool.step rules ⟨jobs, g⟩ place).registry) := by
  unfold Pool.step
  simp only
  rcases jobs[place]? with _ | j
  · exact Steady.answer _
  · exact (advance_steady rules j).map fun j => jobs.set place j

theorem run_steady (rules : List Rule) (jobs : List Job) (order : List Nat) :
    Steady fun g => ((Pool.run rules ⟨jobs, g⟩ order).jobs,
      (Pool.run rules ⟨jobs, g⟩ order).registry) := by
  induction order generalizing jobs with
  | nil => exact Steady.answer _
  | cons place order ih =>
    exact (step_steady rules jobs place).bind
      (fun jobs g => ((Pool.run rules ⟨jobs, g⟩ order).jobs,
        (Pool.run rules ⟨jobs, g⟩ order).registry)) fun jobs => ih jobs

theorem settle_steady (order : Schedule) (active : List Rule) (tasks : List Store.TaskView) :
    Steady fun g => settle order active g tasks := by
  let conclude (jobs : List Job) (g : Registry) : Registry.Outcome Tally :=
    (.ok (Tally.ofFates (jobs.filterMap Job.fate?)),
      g.say (closingLine (Tally.ofFates (jobs.filterMap Job.fate?))))
  have hpool := (run_steady active (tasks.map .waiting) (order tasks.length)).bind conclude
    fun jobs => (Registry.say_quiet _).answer _
  exact (Registry.say_quiet (openingLine tasks.length active.length)).then hpool

theorem runWith_eq (order : Schedule) (g : Registry) (rules : List Rule) :
    runWith order g rules =
      if (rules.filter (·.draft.action = .suppress)).isEmpty then
        (.ok {}, g.say (note .info "No suppression rules found. Nothing to clean."))
      else Registry.after (g.withStore Store.listTasks) fun
        | .given tasks, g => settle order (rules.filter (·.draft.action = .suppress)) g tasks
        | .instead v, g =>
          settleInstead order (rules.filter (·.draft.action = .suppress)) g v := by
  unfold runWith
  simp only
  split
  · rfl
  · rcases g.withStore _ with ⟨_ | _ | _, _⟩ <;> rfl

theorem runWith_steady (order : Schedule) (rules : List Rule) :
    Steady fun g => runWith order g rules := by
  simp only [runWith_eq]
  split
  · exact (Registry.say_quiet _).answer _
  · refine Registry.after_steady (Registry.withStore_steady Registry.listTasks_steady) fun a => ?_
    cases a with
    | given tasks => exact settle_steady order _ tasks
    | «instead» v =>
      simp only [settleInstead]
      rcases Store.counted v with _ | _ | ⟨w, ws⟩
      · exact Steady.answer _
      · exact settle_steady order _ []
      · exact (Registry.say_quiet _).answer _

theorem run_none (g : Registry) (order : Schedule) :
    run g none order =
      Registry.after (g.takingEach "action" fun s => s.listRules (some .suppress)) fun rs g =>
        runWith order g rs := by
  unfold run
  simp only
  rcases g.takingEach _ _ with ⟨_ | _, _⟩ <;> rfl

theorem sweep_steady (rules : Option (List Rule)) (order : Schedule) :
    Steady fun g => run g rules order := by
  cases rules with
  | some rs => exact runWith_steady order rs
  | none =>
    simp only [run_none]
    exact Registry.after_steady (Registry.takingEach_steady (Registry.listRules_steady _) _)
      fun rs => runWith_steady order rs

end Sweep

end MailRules
