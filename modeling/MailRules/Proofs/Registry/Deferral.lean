import MailRules.Proofs.Registry.Lag
import MailRules.Proofs.Registry.Script
import MailRules.Proofs.Store.Awaited

set_option autoImplicit false

/-!
# Events that wait in the queue

A registry whose events wait in a queue `Awaits` one that writes events at once: the second holds
what the first does, and the events in its queue. What is done to both keeps this and gives the same
result (`Deferrable`), and the worker's steps keep it (`Awaits.work`), so it does not matter where
between the steps of a script the worker takes its own (`Script.Deferrable.tracks`). In the end the
queue is written, and both registries hold the same (`Awaits.flush`).

All this is so unless some row gets no rank that can be kept (`Overdrawn`). Then this is still so
later on, and a rank that is too great is given out at last (`Overdrawn.flush`).
-/

namespace MailRules.Registry

variable {α β : Type}

/-- A registry whose events wait, in which nothing keeps rules or events from being written. -/
structure Sturdy (g : Registry) : Prop where
  store : g.store.Sturdy
  isDeferred : g.isDeferred = true
  writable : ∀ n ∈ g.queue, Store.refusal? n = none

/-- There are not enough ranks for the events that wait. -/
structure Overdrawn (g : Registry) : Prop where
  sturdy : g.Sturdy
  ranks : g.store.Overdrawn g.queue.length

/-- `h` writes events at once, and holds what `g` does and the events that wait in its queue. -/
structure Awaits (g h : Registry) : Prop where
  store : Store.Awaits g.queue g.store h.store
  isDeferred : g.isDeferred = true
  isNow : h.isDeferred = false
  idle : h.queue = []

/-- The same has come of an operation on two registries, and the second is what the first awaits,
unless there are not enough ranks. -/
def Tracks (o p : Outcome α) : Prop :=
  Overdrawn o.2 ∨ o.1 = p.1 ∧ Awaits o.2 p.2

/-- An operation that comes to the same whether events are written at once or wait. -/
structure Deferrable (run : Registry → Outcome α) : Prop where
  overdrawn : ∀ g, Overdrawn g → Overdrawn (run g).2
  tracks : ∀ g h, Awaits g h → Tracks (run g) (run h)

variable {g h : Registry}

theorem Awaits.sturdy (hgh : Awaits g h) : g.Sturdy :=
  ⟨hgh.store.sturdy, hgh.isDeferred, hgh.store.writable⟩

/-! ## Single operations -/

/-- Something that is done with the store comes to the same. -/
theorem withStore_deferrable {work : Store → Store.Outcome α} (hsteady : Store.Steady work)
    (hwork : ∀ notes s t, Store.Awaits notes s t →
      Store.Overdrawn notes.length (work s).2 ∨
        Store.Together (Store.Awaits notes) (work s) (work t)) :
    Deferrable fun g => g.withStore work where
  overdrawn g hg :=
    ⟨⟨hg.sturdy.store.step (hsteady.follows _) (hsteady.sound _ hg.sturdy.store.sound),
      hg.sturdy.isDeferred, hg.sturdy.writable⟩,
      hg.ranks.follows (hsteady.follows _) (Nat.le_refl _)⟩
  tracks g h hgh := by
    rcases hwork _ _ _ hgh.store with hover | ⟨heq, hst⟩
    · have hsturdy := hgh.sturdy
      exact Or.inl ⟨⟨hsturdy.store.step (hsteady.follows _) (hsteady.sound _ hsturdy.store.sound),
        hsturdy.isDeferred, hsturdy.writable⟩, hover⟩
    · exact Or.inr ⟨heq, hst, hgh.isDeferred, hgh.isNow, hgh.idle⟩

theorem Deferrable.map {run : Registry → Outcome α} (hrun : Deferrable run)
    (f : Except Failure α → Except Failure β) : Deferrable fun g => (f (run g).1, (run g).2) where
  overdrawn := hrun.overdrawn
  tracks g h hgh := (hrun.tracks g h hgh).imp_right fun ⟨heq, hnext⟩ => ⟨congrArg f heq, hnext⟩

theorem taking_deferrable {work : Store → Store.Outcome (Store.Answer α)}
    (hsteady : Store.Steady work)
    (hwork : ∀ notes s t, Store.Awaits notes s t →
      Store.Overdrawn notes.length (work s).2 ∨
        Store.Together (Store.Awaits notes) (work s) (work t))
    (instead : Json → Except Failure α) : Deferrable fun g => g.taking instead work :=
  (withStore_deferrable hsteady hwork).map fun r => r.bind (·.take instead)

theorem sayAll_deferrable (es : List Log.Entry) :
    Deferrable fun g => (.ok (), g.sayAll es) where
  overdrawn _ hg := ⟨⟨hg.sturdy.store, hg.sturdy.isDeferred, hg.sturdy.writable⟩, hg.ranks⟩
  tracks _ _ hgh := Or.inr ⟨rfl, hgh.store, hgh.isDeferred, hgh.isNow, hgh.idle⟩

theorem submit_later (hg : g.isDeferred = true) (n : Audit.Note) :
    g.submit n = { g with queue := g.queue ++ [n] } := by
  simp [submit, hg]

theorem Sturdy.submit (hg : g.Sturdy) {n : Audit.Note} (hn : Store.refusal? n = none) :
    (g.submit n).Sturdy := by
  rw [submit_later hg.isDeferred]
  refine ⟨hg.store, hg.isDeferred, fun m hm => ?_⟩
  rcases List.mem_append.mp hm with hm | hm
  · exact hg.writable m hm
  · rwa [List.mem_singleton.mp hm]

/-- An event may be written at once or wait. -/
theorem submit_deferrable {n : Audit.Note} (hn : Store.refusal? n = none) :
    Deferrable fun g => (.ok (), g.submit n) where
  overdrawn g hg := by
    refine ⟨hg.sturdy.submit hn, ?_⟩
    rw [submit_later hg.sturdy.isDeferred]
    exact hg.ranks.follows (Store.Follows.refl _) (by simp)
  tracks g h hgh := by
    rcases hgh.store.push hn with hover | hawaits
    · refine Or.inl ⟨hgh.sturdy.submit hn, ?_⟩
      rw [submit_later hgh.isDeferred]
      simpa using hover
    · refine Or.inr ⟨rfl, ?_⟩
      rw [submit_later hgh.isDeferred, submit_now hgh.isNow]
      obtain ⟨hqueue, hnow, -⟩ := write_cases hgh.store.leadSturdy.sound n
      refine ⟨?_, hgh.isDeferred, hnow.trans hgh.isNow, hqueue.trans hgh.idle⟩
      rwa [write_store]

/-! ## One operation after the other -/

theorem after_overdrawn {o : Outcome α} (ho : Overdrawn o.2) {next : α → Registry → Outcome β}
    (hnext : ∀ a g, Overdrawn g → Overdrawn (next a g).2) : Overdrawn (after o next).2 := by
  rcases o with ⟨f | a, u⟩
  · exact ho
  · exact hnext a u ho

/-- Goes on with the same result. -/
theorem Tracks.after {o p : Outcome α} (hop : Tracks o p) {next next' : α → Registry → Outcome β}
    (hover : ∀ a g, Overdrawn g → Overdrawn (next a g).2)
    (hnext : ∀ a g h, Awaits g h → Tracks (next a g) (next' a h)) :
    Tracks (after o next) (after p next') := by
  rcases hop with hdone | ⟨heq, hawaits⟩
  · exact Or.inl (after_overdrawn hdone hover)
  · obtain ⟨r, u⟩ := o
    obtain ⟨q, v⟩ := p
    obtain rfl : r = q := heq
    rcases r with f | a
    · exact Or.inr ⟨rfl, hawaits⟩
    · exact hnext a u v hawaits

/-! ## The worker -/

theorem work_nil (hg : g.queue = []) : g.work = g := by
  rw [work, hg]
  rfl

theorem work_cons {n : Audit.Note} {notes : List Audit.Note} (hg : g.queue = n :: notes)
    (hsound : g.store.Sound) :
    g.work.store = (g.store.insertEvent n).2 ∧ g.work.queue = notes ∧
      g.work.isDeferred = g.isDeferred := by
  have hwork : g.work = { g with queue := notes }.write n := by
    rw [work, hg]
    rfl
  obtain ⟨hqueue, hdeferred, -⟩ := write_cases (g := { g with queue := notes }) hsound n
  rw [hwork, write_store]
  exact ⟨rfl, hqueue, hdeferred⟩

theorem Sturdy.work (hg : g.Sturdy) : g.work.Sturdy := by
  rcases hqueue : g.queue with _ | ⟨n, notes⟩
  · rwa [work_nil hqueue]
  · obtain ⟨hstore, hrest, hdeferred⟩ := work_cons hqueue hg.store.sound
    have hwritable := hg.writable
    rw [hqueue] at hwritable
    exact ⟨hstore ▸ hg.store.insertEvent n, hdeferred.trans hg.isDeferred,
      hrest ▸ (List.forall_mem_cons.mp hwritable).2⟩

theorem Overdrawn.work (hg : Overdrawn g) : Overdrawn g.work := by
  refine ⟨hg.sturdy.work, ?_⟩
  rcases hqueue : g.queue with _ | ⟨n, notes⟩
  · rw [work_nil hqueue]
    exact hg.ranks
  · obtain ⟨hstore, hrest, -⟩ := work_cons hqueue hg.sturdy.store.sound
    have hranks := hg.ranks
    rw [hqueue] at hranks
    rw [hstore, hrest]
    exact hranks.pop hg.sturdy.store (hg.sturdy.writable n (by simp [hqueue]))

/-- The worker writes an event that the other registry has written already. -/
theorem Awaits.work (hgh : Awaits g h) : Awaits g.work h := by
  rcases hqueue : g.queue with _ | ⟨n, notes⟩
  · rwa [work_nil hqueue]
  · obtain ⟨hstore, hrest, hdeferred⟩ := work_cons hqueue hgh.store.sturdy.sound
    have hawaits := hgh.store
    rw [hqueue] at hawaits
    refine ⟨?_, hdeferred.trans hgh.isDeferred, hgh.isNow, hgh.idle⟩
    rw [hstore, hrest]
    exact hawaits.pop

theorem Overdrawn.workFor (hg : Overdrawn g) (n : Nat) : Overdrawn (g.workFor n) := by
  induction n generalizing g with
  | zero => exact hg
  | succ n ih => exact ih hg.work

theorem Awaits.workFor (hgh : Awaits g h) (n : Nat) : Awaits (g.workFor n) h := by
  induction n generalizing g with
  | zero => exact hgh
  | succ n ih => exact ih hgh.work

/-- Writing all that waits begins with the worker's next step. -/
theorem flush_work (g : Registry) : g.work.flush = g.flush := by
  rcases hqueue : g.queue with _ | ⟨n, notes⟩
  · rw [work_nil hqueue]
  · have hwrite (q : List Audit.Note) :
        { { g with queue := notes }.write n with queue := q } = { g with queue := q }.write n := by
      unfold write
      rcases g.store.insertEvent n with ⟨_ | _, _⟩ <;> rfl
    have hrest : ({ g with queue := notes }.write n).queue = notes := by
      unfold write
      rcases g.store.insertEvent n with ⟨_ | _, _⟩ <;> rfl
    have hwork : g.work = { g with queue := notes }.write n := by
      rw [work, hqueue]
      rfl
    rw [hwork, flush, flush, hrest, hwrite [], hqueue]
    rfl

/-- Once all that waits is written, both registries hold the same. -/
theorem Awaits.flush (hgh : Awaits g h) : Awaits g.flush h ∧ g.flush.queue = [] := by
  -- by what waits, of which each step of the worker writes one event
  induction hqueue : g.queue generalizing g with
  | nil =>
    rw [flush_nil hqueue]
    exact ⟨hgh, hqueue⟩
  | cons n notes ih =>
    obtain ⟨-, hrest, -⟩ := work_cons hqueue hgh.store.sturdy.sound
    rw [← flush_work]
    exact ih hgh.work hrest

/-- A rank that is too great is given out at last. -/
theorem Overdrawn.flush (hg : Overdrawn g) : g.flush.store.IsSpent := by
  induction hqueue : g.queue generalizing g with
  | nil =>
    obtain ⟨c, hc, hlimit⟩ := hg.ranks
    rw [flush_nil hqueue]
    rw [hqueue] at hlimit
    exact ⟨c, hc, by simpa using hlimit⟩
  | cons n notes ih =>
    obtain ⟨-, hrest, -⟩ := work_cons hqueue hg.sturdy.store.sound
    rw [← flush_work]
    exact ih hg.work hrest

/-! ## What can be seen -/

theorem eventsFrom_content (m : Store.Marks) (issued : Nat) (notes : List Audit.Note) :
    (Store.eventsFrom m issued notes).map Store.KeptEvent.content =
      notes.map Audit.Note.content := by
  induction notes generalizing issued with
  | nil => rfl
  | cons n notes ih => exact congrArg (List.cons n.content) (ih (issued + 1))

/-- The events that have been written and those that wait are the events that have been written at
once. -/
theorem Awaits.trail (hgh : Awaits g h) :
    g.trail ++ g.queue.map Audit.Note.content = h.trail := by
  have hevents := congrArg (List.map Store.KeptEvent.content) hgh.store.events
  rw [List.map_append, eventsFrom_content, List.map_map, List.map_map] at hevents
  exact hevents

/-- Nothing waits, and the same rows are held in the same order. -/
structure Level (g h : Registry) : Prop where
  store : Store.Level g.store h.store
  idle : g.queue = []
  leadIdle : h.queue = []

/-- The same can be seen: in the trail, and by whoever lists events or rules. -/
structure ShowsAs (g h : Registry) : Prop where
  trail : g.trail = h.trail
  events : ∀ limit, (g.events limit).1 = (h.events limit).1
  rules : ∀ action, (g.list action).1 = (h.list action).1

theorem Awaits.level (hgh : Awaits g h) : Level g.flush h.flush := by
  obtain ⟨hawaits, hidle⟩ := hgh.flush
  have hstore := hawaits.store
  rw [hidle] at hstore
  rw [flush_nil hgh.idle]
  exact ⟨hstore.level, hidle, hgh.idle⟩

theorem Level.showsAs (hgh : Level g h) : ShowsAs g h where
  trail := by
    have hevents := congrArg (List.map Store.KeptEvent.content) hgh.store.events
    rwa [List.map_map, List.map_map] at hevents
  events limit := by
    rw [events, events, flush_nil hgh.idle, flush_nil hgh.leadIdle]
    exact congrArg (·.bind (·.take (Store.partsLacking "to_dict")))
      (hgh.store.listEvents limit).1
  rules action :=
    congrArg (·.bind (·.takeEach "to_dict")) (hgh.store.listRules action).1

/-- Closing comes to the same, and leaves the same to be seen when the store is opened again. -/
theorem Awaits.close (hgh : Awaits g h) :
    g.close.1 = h.close.1 ∧ ShowsAs g.close.2.reopened h.close.2.reopened := by
  obtain ⟨heq, hstore⟩ := hgh.level.store.close
  have hreopened : Level g.close.2.reopened h.close.2.reopened :=
    ⟨hstore.openOn _ _, rfl, rfl⟩
  exact ⟨heq, hreopened.showsAs⟩

/-! ## Scripts -/

namespace Script

/-- All steps come to the same whether events are written at once or wait. -/
inductive Deferrable : {α : Type} → Script α → Prop
  | done {α : Type} (r : Except Failure α) : Deferrable (.done r)
  | step {α β : Type} {run : Registry → Outcome β} {next : β → Script α}
    (hrun : Registry.Deferrable run) (hnext : ∀ b, Deferrable (next b)) :
    Deferrable (.step run next)

variable {p : Script α}

theorem Deferrable.overdrawn (hp : p.Deferrable) {g : Registry} (hg : Overdrawn g)
    (pauses : List Nat) : Overdrawn (p.amid pauses g).2 := by
  induction hp generalizing g pauses with
  | done r => exact hg.workFor _
  | step hrun _ ih =>
    exact after_overdrawn (hrun.overdrawn _ (hg.workFor _)) fun b u hu => ih b hu _

/-- Wherever the worker takes its steps, the script comes to what it comes to alone when events are
written at once. -/
theorem Deferrable.tracks (hp : p.Deferrable) {g h : Registry} (hgh : Awaits g h)
    (pauses : List Nat) : Tracks (p.amid pauses g) (p.alone h) := by
  -- the worker's steps before a step of the script leave `g` behind `h` as before
  induction hp generalizing g h pauses with
  | done r => exact Or.inr ⟨rfl, hgh.workFor _⟩
  | step hrun hnext ih =>
    exact (hrun.tracks _ h (hgh.workFor _)).after (fun b u hu => (hnext b).overdrawn hu _)
      fun b u v huv => ih b huv _

theorem Deferrable.map (hp : p.Deferrable) (f : α → β) : (p.map f).Deferrable := by
  induction hp with
  | done r => exact .done _
  | step hrun _ ih => exact .step hrun ih

theorem Deferrable.each (hp : p.Deferrable) {changes : List (Registry → Registry)}
    (hchanges : ∀ change ∈ changes, Registry.Deferrable fun g => (.ok (), change g)) :
    (each changes p).Deferrable := by
  induction changes with
  | nil => exact hp
  | cons change changes ih =>
    obtain ⟨hfirst, hrest⟩ := List.forall_mem_cons.mp hchanges
    exact .step hfirst fun _ => ih hrest

end Script

theorem createScript_deferrable (record : Json) (actor : Option String) :
    (createScript record actor).Deferrable := by
  unfold createScript
  rcases hd : canonicalOf record with r | d
  · exact .done _
  · refine .step (taking_deferrable (insertRule_steady d)
      (fun _ _ _ hst => hst.insertRule (canonicalOf_fits hd)) _) fun r => ?_
    refine .each (.done _) (List.forall_mem_cons.mpr ⟨sayAll_deferrable _, ?_⟩)
    exact List.forall_mem_singleton.mpr (submit_deferrable (createdNote_written none actor r))

theorem createDistinctScript_deferrable {ds : List Draft}
    (hfits : ∀ d ∈ ds, d.confidence.all Number.fits = true) (duplicates : Nat)
    (actor reason : Option String) :
    (createDistinctScript ds duplicates actor reason).Deferrable := by
  refine .step (taking_deferrable (insertRules_steady ds)
    (fun _ _ _ hst => hst.insertRules hfits) _) fun as => ?_
  refine .each (.done _) (List.forall_mem_cons.mpr ⟨sayAll_deferrable [_], ?_⟩)
  intro change hchange
  obtain ⟨r, -, rfl⟩ := List.mem_map.mp hchange
  exact submit_deferrable (createdNote_written reason actor r)

theorem createBatchScript_deferrable (records : Json) (actor reason : Option String) :
    (createBatchScript records actor reason).Deferrable := by
  unfold createBatchScript
  rcases hread : Draft.ofBatch records with f | drafts
  · exact .done _
  · simp only
    rcases hcanonical : canonicalBatch drafts with r | ds
    · exact .done _
    · have hfits := canonicalBatch_fits hread hcanonical
      exact createDistinctScript_deferrable
        (fun d hd => hfits d ((distinct_sublist [] ds).subset hd)) _ actor reason

theorem deleteFoundScript_deferrable (r : Rule) (id : String) (actor : Option String) :
    (deleteFoundScript r id actor).Deferrable := by
  refine .step (withStore_deferrable (deleteRule_steady id)
    fun _ _ _ hst => Or.inr (hst.deleteRule id)) fun answer => ?_
  split
  · refine .each (.done _) (List.forall_mem_cons.mpr ⟨sayAll_deferrable [_], ?_⟩)
    exact List.forall_mem_singleton.mpr (submit_deferrable (deletedNote_written r id actor))
  · exact .done _

theorem deleteScript_deferrable (id : String) (actor : Option String) :
    (deleteScript id actor).Deferrable := by
  have hfind : ∀ notes s t, Store.Awaits notes s t →
      Store.Together (Store.Awaits notes) (s.findRule id) (t.findRule id) :=
    fun notes _ _ hst => Store.findRule_together (Store.awaits_parallel notes) hst
      fun _ _ hst => hst.rule? id
  refine .step (taking_deferrable (findRule_steady id)
    (fun notes s t hst => Or.inr (hfind notes s t hst)) _) fun found => ?_
  rcases found with _ | r
  · exact .done _
  · exact deleteFoundScript_deferrable r id actor

end MailRules.Registry
