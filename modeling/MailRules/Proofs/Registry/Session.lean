import MailRules.Proofs.Registry.Steady

set_option autoImplicit false

/-!
# Sessions

A session is a list of requests that are made to a registry one after the other. They change tables,
ask for rows, run sweeps and record events; the worker may take a step at any time, the store may be
closed and opened again, and operations may start to fail and cease to.

Every registry that can be reached in a session has a sound store with no transaction open
(`Reachable.sound`, `Reachable.idle`). Registries that are alike give the same replies as long as
their stores do not get spent (`replies_agree`).
-/

namespace MailRules

namespace Registry

/-- Something that is meant to change tables. -/
inductive Change
  | create (record : Json) (actor : Option String)
  | createBatch (records : Json) (actor reason : Option String)
  | delete (id : String) (actor : Option String)
  | insertThread (participants subject id : Option String)
  | insertTask (title thread id : Option String)
  | deleteTask (id : String)

/-- What can be asked of a registry, or happen to it. -/
inductive Request
  | change (c : Change)
  /-- Rules are written to the store, or erased, without a record in the audit trail. -/
  | insertRule (d : Draft)
  | insertRules (ds : List Draft)
  | eraseRule (id : String)
  | get (id : String)
  | list (action : Option RuleAction)
  | listTasks
  | countTasks
  | events (limit : Int)
  | sweep (rules : Option (List Rule)) (order : Sweep.Schedule)
  | record (kind : Json) (entity : String) (entityId : Json) (details : Privacy.Detail)
      (actor : Option String)
  /-- What parsing instructions or sheets does on the side. -/
  | carryOut (actor : Option String) (effects : List Instruction.Effect)
  /-- The worker takes its next step. -/
  | work
  | flush
  | close
  /-- The store is opened again on its tables; what waited in the queue is gone. -/
  | reopen
  /-- An operation of the store fails from now on, when the trigger says so. -/
  | disturb (op : Store.Operation) (trigger : Store.Trigger) (r : Raised)
  | calm (op : Store.Operation)

/-- What is given back for a request. -/
inductive Reply
  | nothing
  | rule (r : Rule)
  | rules (rs : List Rule)
  | row (a : Store.Answer Rule)
  | rows (a : Store.Answer (List (Store.Answer Rule)))
  | id (a : Store.Answer String)
  | flag (a : Store.Answer Bool)
  | tasks (a : Store.Answer (List Store.TaskView))
  | count (a : Store.Answer Nat)
  | events (es : List Audit.Event)
  | tally (t : Tally)

/-- An outcome as a reply. -/
def replying {α : Type} (f : α → Reply) (o : Outcome α) : Outcome Reply :=
  (o.1.map f, o.2)

/-- Makes a change. -/
def make (g : Registry) : Change → Outcome Reply
  | .create record actor => replying .rule (g.create record actor)
  | .createBatch records actor reason => replying .rules (g.createBatch records actor reason)
  | .delete id actor => replying (fun _ => .nothing) (g.delete id actor)
  | .insertThread participants subject id =>
    replying .id (g.withStore fun s => s.insertThread participants subject id)
  | .insertTask title thread id =>
    replying .id (g.withStore fun s => s.insertTask title thread id)
  | .deleteTask id => replying .flag (g.withStore fun s => s.deleteTask id)

/-- The registry with a store that is opened again on the same tables. -/
def reopened (g : Registry) : Registry where
  store := Store.openOn g.store.tables g.store.marks
  isDeferred := g.isDeferred

/-- The registry with other disturbances. -/
def withDisturbances (g : Registry) (ds : List Store.Disturbance) : Registry :=
  { g with store := { g.store with disturbances := ds } }

/-- Does what is asked. -/
def perform (g : Registry) : Request → Outcome Reply
  | .change c => g.make c
  | .insertRule d => replying .row (g.withStore fun s => s.insertRule d)
  | .insertRules ds => replying .rows (g.withStore fun s => s.insertRules ds)
  | .eraseRule id => replying .flag (g.withStore fun s => s.deleteRule id)
  | .get id => replying .rule (g.get id)
  | .list action => replying .rules (g.list action)
  | .listTasks => replying .tasks (g.withStore Store.listTasks)
  | .countTasks => replying .count (g.withStore Store.countTasks)
  | .events limit => replying .events (g.events limit)
  | .sweep rules order => replying .tally (Sweep.run g rules order)
  | .record kind entity entityId details actor =>
    (.ok .nothing, g.recordAny kind entity entityId details actor)
  | .carryOut actor effects => (.ok .nothing, g.carryOut actor effects)
  | .work => (.ok .nothing, g.work)
  | .flush => (.ok .nothing, g.flush)
  | .close => replying (fun _ => .nothing) g.close
  | .reopen => (.ok .nothing, g.reopened)
  | .disturb op trigger r =>
    (.ok .nothing, { g with store := g.store.disturbed ⟨op, trigger, .failure r, 0⟩ })
  | .calm op => (.ok .nothing, { g with store := g.store.calmed op })

/-- The replies to requests that are made one after the other. -/
def replies (g : Registry) : List Request → List (Except Failure Reply)
  | [] => []
  | r :: rs => (g.perform r).1 :: (g.perform r).2.replies rs

/-- The store does not get spent by requests. -/
def Lasts (g : Registry) : List Request → Prop
  | [] => ¬g.store.IsSpent
  | r :: rs => ¬g.store.IsSpent ∧ (g.perform r).2.Lasts rs

instance decidableLasts (g : Registry) : (rs : List Request) → Decidable (g.Lasts rs)
  | [] => inferInstanceAs (Decidable ¬g.store.IsSpent)
  | r :: rs =>
    have := decidableLasts (g.perform r).2 rs
    inferInstanceAs (Decidable (¬g.store.IsSpent ∧ (g.perform r).2.Lasts rs))

/-- The registries that come about from an empty store by requests. -/
inductive Reachable : Registry → Prop
  | start (marks : Store.Marks) (isDeferred : Bool) :
    Reachable { store := { marks := marks }, isDeferred := isDeferred }
  | step {g : Registry} (h : Reachable g) (r : Request) : Reachable (g.perform r).2

/-! ## Requests on registries that are alike -/

theorem replying_steady {α : Type} {run : Registry → Outcome α} (h : Steady run)
    (f : α → Reply) : Steady fun g => replying f (run g) :=
  h.map fun r => r.map f

theorem make_steady (c : Change) : Steady fun g => g.make c := by
  cases c with
  | create record actor => exact replying_steady (create_steady record actor) _
  | createBatch records actor reason =>
    exact replying_steady (createBatch_steady records actor reason) _
  | delete id actor => exact replying_steady (delete_steady id actor) _
  | insertThread participants subject id =>
    exact replying_steady (withStore_steady (insertThread_steady participants subject id)) _
  | insertTask title thread id =>
    exact replying_steady (withStore_steady (insertTask_steady title thread id)) _
  | deleteTask id => exact replying_steady (withStore_steady (deleteTask_steady id)) _

theorem failing_disturb {ds : List Store.Disturbance} (h : Store.Failing ds)
    (op : Store.Operation) (trigger : Store.Trigger) (r : Raised) :
    Store.Failing (Store.disturb ⟨op, trigger, .failure r, 0⟩ ds) := by
  intro d hd
  rcases List.mem_append.mp hd with hd | hd
  · exact h d (List.mem_of_mem_filter hd)
  · rw [List.mem_singleton] at hd
    exact ⟨r, by rw [hd]⟩

theorem failing_calm {ds : List Store.Disturbance} (h : Store.Failing ds)
    (op : Store.Operation) : Store.Failing (Store.calm op ds) :=
  fun d hd => h d (List.mem_of_mem_filter hd)

/-- The requests other than those that open, close or disturb the store are steady. -/
def Request.IsSteady : Request → Prop
  | .close | .reopen | .disturb .. | .calm .. => False
  | _ => True

theorem perform_steady {r : Request} (h : r.IsSteady) : Steady fun g => g.perform r := by
  cases r with
  | change c => exact make_steady c
  | insertRule d => exact replying_steady (withStore_steady (insertRule_steady d)) _
  | insertRules ds => exact replying_steady (withStore_steady (insertRules_steady ds)) _
  | eraseRule id => exact replying_steady (withStore_steady (deleteRule_steady id)) _
  | get id => exact replying_steady (lookUp_steady id _) _
  | list action => exact replying_steady (list_steady action) _
  | listTasks => exact replying_steady (withStore_steady listTasks_steady) _
  | countTasks => exact replying_steady (withStore_steady countTasks_steady) _
  | events limit => exact replying_steady (events_steady limit) _
  | sweep rules order => exact replying_steady (Sweep.sweep_steady rules order) _
  | record kind entity entityId details actor =>
    exact (recordAny_quiet kind entity entityId details actor).answer _
  | carryOut actor effects => exact (carryOut_quiet actor effects).answer _
  | work => exact work_quiet.answer _
  | flush => exact flush_quiet.answer _
  | close | reopen | disturb | calm => exact h.elim

theorem Alike.withStore {g h : Registry} (hgh : Alike g h) {s t : Store} (hst : s.Alike t) :
    Alike { g with store := s } { h with store := t } :=
  ⟨hst, hgh.isDeferred, hgh.queue⟩

/-- Closing changes nothing but that the store is open, and counts the call. -/
theorem close_snd (s : Store) : ∃ ds isOpen, Store.Recounted s.disturbances ds ∧
    s.close.2 = { s with disturbances := ds, isOpen := isOpen } := by
  obtain ⟨ds, hcount, hclose | hclose⟩ :=
    Store.guarded_snd s .close none (fun _ => .ok ()) fun s => (.ok (), { s with isOpen := false })
  · exact ⟨ds, s.isOpen, hcount, hclose⟩
  · exact ⟨ds, false, hcount, congrArg Prod.snd hclose⟩

/-- The flushed queue and the closed store of registries that are alike. -/
theorem close_agree {g h : Registry} (hgh : Alike g h) : Agree g.close h.close := by
  rcases flush_quiet.agree g h hgh with hspent | ⟨-, halike⟩
  · obtain ⟨n, hn, hlimit⟩ := hspent
    obtain ⟨ds, isOpen, -, hclose⟩ := close_snd h.flush.store
    exact Or.inl ⟨n, (congrArg Store.counter hclose).trans hn, hlimit⟩
  · rcases Store.close_agree halike.store with hspent | ⟨heq, hclosed⟩
    · exact Or.inl hspent
    · exact Or.inr ⟨heq, halike.withStore hclosed⟩

theorem perform_agree {g h : Registry} (hgh : Alike g h) (r : Request) :
    Agree (g.perform r) (h.perform r) := by
  cases r with
  | close =>
    rcases close_agree hgh with hspent | ⟨heq, halike⟩
    · exact Or.inl hspent
    · exact Or.inr ⟨congrArg (Except.map fun _ => Reply.nothing) heq, halike⟩
  | reopen =>
    refine Or.inr ⟨rfl, ?_, hgh.isDeferred, rfl⟩
    have halike := hgh.store.openOn g.store.marks
    rwa [show (h.perform .reopen).2.store = Store.openOn h.store.tables g.store.marks by
      rw [hgh.store.marks]; rfl]
  | disturb op trigger r =>
    refine Or.inr ⟨rfl, hgh.withStore ?_⟩
    unfold Store.disturbed
    rw [hgh.store.disturbances]
    exact hgh.store.withDisturbances (failing_disturb hgh.store.failing op trigger r)
  | calm op =>
    refine Or.inr ⟨rfl, hgh.withStore ?_⟩
    unfold Store.calmed
    rw [hgh.store.disturbances]
    exact hgh.store.withDisturbances (failing_calm hgh.store.failing op)
  | _ =>
    refine (perform_steady ?_).agree g h hgh
    trivial

/-- Registries that are alike give the same replies. -/
theorem replies_agree {g h : Registry} (hgh : Alike g h) {rs : List Request}
    (hlasts : h.Lasts rs) : g.replies rs = h.replies rs := by
  induction rs generalizing g h with
  | nil => rfl
  | cons r rs ih =>
    obtain ⟨-, hrest⟩ := hlasts
    -- the store after this request is the first one of the rest
    have hnow : ¬(h.perform r).2.store.IsSpent := by
      cases rs with
      | nil => exact hrest
      | cons => exact hrest.1
    rcases perform_agree hgh r with hspent | ⟨heq, halike⟩
    · exact absurd hspent hnow
    · unfold replies
      rw [heq, ih halike hrest]

/-! ## Registries that can be reached -/

/-- Every request keeps the store sound. -/
theorem perform_sound {g : Registry} (h : g.store.Sound) (r : Request) :
    (g.perform r).2.store.Sound := by
  cases r with
  | close =>
    have hflushed := flush_quiet.sound g h
    obtain ⟨ds, isOpen, hcount, hclose⟩ := close_snd g.flush.store
    exact (congrArg Store.Sound hclose).mpr
      ⟨hflushed.numbered, hflushed.keyed, hflushed.failing.recounted hcount⟩
  | reopen => exact Store.openOn_sound h _
  | disturb op trigger r => exact ⟨h.numbered, h.keyed, failing_disturb h.failing op trigger r⟩
  | calm op => exact ⟨h.numbered, h.keyed, failing_calm h.failing op⟩
  | _ =>
    refine (perform_steady ?_).sound g h
    trivial

/-- No request leaves a transaction open. -/
theorem perform_idle {g : Registry} (h : g.store.isBusy = false) (r : Request) :
    (g.perform r).2.store.isBusy = false := by
  cases r with
  | close =>
    obtain ⟨ds, isOpen, -, hclose⟩ := close_snd g.flush.store
    exact (congrArg Store.isBusy hclose).trans ((flush_quiet.follows g).isBusy.trans h)
  | reopen => rfl
  | disturb op trigger r => exact h
  | calm op => exact h
  | _ =>
    refine ((perform_steady ?_).follows g).isBusy.trans h
    trivial

theorem Reachable.sound {g : Registry} (h : Reachable g) : g.store.Sound := by
  induction h with
  | start marks isDeferred =>
    exact ⟨⟨0, rfl, Int.le_refl 0, Store.numbered_nil 0, Store.numbered_nil 0⟩, List.nodup_nil,
      Store.failing_nil⟩
  | step _ r ih => exact perform_sound ih r

theorem Reachable.idle {g : Registry} (h : Reachable g) : g.store.isBusy = false := by
  induction h with
  | start => rfl
  | step _ r ih => exact perform_idle ih r

end Registry

end MailRules
