import MailRules.Proofs.Store.Parallel
import MailRules.Proofs.Store.Sound

set_option autoImplicit false

/-!
# Stores that differ in ranks

Two stores are `Alike` when they hold the same rows in the same order, but one may have given out
more ranks than the other. Nothing can tell them apart: every operation comes to the same on both
and leaves stores that are alike again (`Agree`). The one exception is that the store that has given
out more ranks gets spent.
-/

namespace MailRules.Store

variable {α β : Type}

/-- Two stores with the same rows in the same order, of which the second may have given out more
ranks. -/
structure Alike (s t : Store) : Prop where
  rules : RowsAlike s.tables.rules t.tables.rules
  events : RowsAlike s.tables.events t.tables.events
  threads : s.tables.threads = t.tables.threads
  tasks : s.tables.tasks = t.tables.tasks
  issued : s.tables.issued = t.tables.issued
  counters : ∃ m n, s.counter = .whole m ∧ t.counter = .whole n ∧ m ≤ n
  isOpen : s.isOpen = t.isOpen
  isBusy : s.isBusy = t.isBusy
  disturbances : s.disturbances = t.disturbances
  marks : s.marks = t.marks
  left : Sound s
  right : Sound t

/-- The same comes of an operation on two stores, and it leaves stores that are alike, unless the
second store is spent. -/
def Agree (o p : Outcome α) : Prop :=
  p.2.IsSpent ∨ o.1 = p.1 ∧ Alike o.2 p.2

theorem Alike.refl {s : Store} (h : Sound s) : Alike s s := by
  obtain ⟨c, hc, hnumbered⟩ := h.numbered
  exact ⟨RowsAlike.refl hnumbered.rules, RowsAlike.refl hnumbered.events, rfl, rfl, rfl,
    ⟨c, c, hc, hc, Int.le_refl c⟩, rfl, rfl, rfl, rfl, h, h⟩

theorem Alike.agree {s t : Store} (h : Alike s t) (r : Except Failure α) : Agree (r, s) (r, t) :=
  Or.inr ⟨rfl, h⟩

theorem Alike.failing {s t : Store} (h : Alike s t) : Failing t.disturbances :=
  h.right.failing

/-- Stores that are alike stay so whatever only fails in them from now on. -/
theorem Alike.withDisturbances {s t : Store} (h : Alike s t) {ds : List Disturbance}
    (hds : Failing ds) :
    Alike { s with disturbances := ds } { t with disturbances := ds } :=
  { h with
    disturbances := rfl
    left := ⟨h.left.numbered, h.left.keyed, hds⟩
    right := ⟨h.right.numbered, h.right.keyed, hds⟩ }

theorem Alike.withBusy {s t : Store} (h : Alike s t) (busy : Bool) :
    Alike { s with isBusy := busy } { t with isBusy := busy } :=
  { h with
    isBusy := rfl
    left := ⟨h.left.numbered, h.left.keyed, h.left.failing⟩
    right := ⟨h.right.numbered, h.right.keyed, h.right.failing⟩ }

/-- Stores that are alike are still so without some rows of rules. -/
theorem Alike.filterRules {s t : Store} (h : Alike s t) (keep : Rule → Bool) :
    Alike
      { s with tables := { s.tables with rules := s.tables.rules.filter fun x => keep x.value } }
      { t with tables := { t.tables with rules := t.tables.rules.filter fun x => keep x.value } } :=
  { h with
    rules := h.rules.filter keep
    left := by
      obtain ⟨c, hc, hnumbered⟩ := h.left.numbered
      exact ⟨⟨c, hc, { hnumbered with rules := hnumbered.rules.sublist List.filter_sublist }⟩,
        h.left.keyed, h.left.failing⟩
    right := by
      obtain ⟨c, hc, hnumbered⟩ := h.right.numbered
      exact ⟨⟨c, hc, { hnumbered with rules := hnumbered.rules.sublist List.filter_sublist }⟩,
        h.right.keyed, h.right.failing⟩ }

/-- Stores that are alike are still so with the same threads and tasks. -/
theorem Alike.withThreads {s t : Store} (h : Alike s t) (threads : List Thread)
    {tasks : List Task} (hkeyed : Keyed tasks) (issued : Issued) :
    Alike
      { s with tables := { s.tables with threads := threads, tasks := tasks, issued := issued } }
      { t with tables := { t.tables with threads := threads, tasks := tasks, issued := issued } } :=
  { h with
    threads := rfl
    tasks := rfl
    issued := rfl
    left := h.left.sameRows (Follows.withTables s _) rfl rfl hkeyed
    right := h.right.sameRows (Follows.withTables t _) rfl rfl hkeyed }

/-- The same rule is found. -/
theorem Alike.rule? {s t : Store} (h : Alike s t) (id : String) :
    s.tables.rule? id = t.tables.rule? id := by
  rw [rule?_eq_find?, rule?_eq_find?, h.rules.map_value]

theorem Alike.thread? {s t : Store} (h : Alike s t) (id : String) :
    s.tables.thread? id = t.tables.thread? id := by
  unfold Tables.thread?
  rw [h.threads]

theorem Alike.views {s t : Store} (h : Alike s t) :
    s.tables.tasks.map s.tables.view = t.tables.tasks.map t.tables.view := by
  have hthread : s.tables.thread? = t.tables.thread? := funext h.thread?
  rw [h.tasks]
  refine List.map_congr_left fun task _ => ?_
  simp only [Tables.view, hthread]

/-! ## Operations step by step -/

/-- Goes on alike after operations that agree. -/
theorem andThen_agree {o p : Outcome α} (ho : Agree o p)
    {next next' : α → Store → Outcome β}
    (hnext : ∀ a s t, Alike s t → Agree (next a s) (next' a t))
    (hfollows : ∀ a t, Follows t (next' a t).2) : Agree (o.andThen next) (p.andThen next') := by
  obtain ⟨r, s⟩ := o
  obtain ⟨q, t⟩ := p
  rcases ho with hspent | ⟨heq, halike⟩
  · exact Or.inl (hspent.follows (andThen_follows (Follows.refl t) hfollows))
  · obtain rfl : r = q := heq
    rcases r with f | a
    · exact halike.agree _
    · exact hnext a s t halike

theorem given_agree {o p : Outcome α} (h : Agree o p) : Agree o.given p.given := by
  rcases h with hspent | ⟨heq, halike⟩
  · exact Or.inl hspent
  · refine Or.inr ⟨?_, halike⟩
    unfold Outcome.given
    rw [heq]

/-- The same disturbance strikes on both stores. -/
theorem guarded_agree {s t : Store} (h : Alike s t) {run run' : Store → Outcome α}
    (hrun : ∀ ds, Recounted s.disturbances ds →
      Agree (run { s with disturbances := ds }) (run' { t with disturbances := ds }))
    (op : Operation) (subject : Option String) (instead instead' : Json → Except Failure α) :
    Agree (s.guarded op subject instead run) (t.guarded op subject instead' run') := by
  have hcount := strike_recounted op subject s.disturbances
  have hfailing := h.left.failing.recounted hcount
  unfold guarded
  rw [← h.disturbances]
  rcases hs : strike op subject s.disturbances with ⟨_ | e, ds⟩
  · rw [hs] at hcount
    exact hrun ds hcount
  · obtain ⟨r, rfl⟩ := strike_failing h.left.failing op subject (congrArg Prod.fst hs)
    rw [hs] at hfailing
    exact (h.withDisturbances hfailing).agree _

variable {s t : Store}

theorem Alike.count (h : Alike s t) {ds : List Disturbance} (hds : Recounted s.disturbances ds) :
    Alike { s with disturbances := ds } { t with disturbances := ds } :=
  h.withDisturbances (h.left.failing.recounted hds)

theorem answered_agree (h : Alike s t) {run run' : Store → Outcome (Answer α)}
    (hrun : ∀ s t, Alike s t → Agree (run s) (run' t)) (op : Operation)
    (subject : Option String) :
    Agree (s.answered op subject run) (t.answered op subject run') :=
  guarded_agree h (fun _ hds => hrun _ _ (h.count hds)) op subject _ _

theorem statement_agree (h : Alike s t) {run run' : Store → Outcome α}
    (hrun : ∀ s t, Alike s t → Agree (run s) (run' t))
    (instead instead' : Json → Except Failure α) :
    Agree (s.statement instead run) (t.statement instead' run') :=
  guarded_agree h (fun _ hds => hrun _ _ (h.count hds)) _ _ _ _

/-- Work that fails on both stores leaves the rows that they had before. -/
theorem Alike.rollBack (h : Alike s t) {u v : Store} (hu : Follows s u) (hv : Follows t v)
    (huv : Alike u v) : Alike { u with tables := s.tables } { v with tables := t.tables } := by
  refine { huv with
    rules := h.rules
    events := h.events
    threads := h.threads
    tasks := h.tasks
    issued := h.issued
    left := ?_
    right := ?_ }
  · exact h.left.sameRows (hu.trans (Follows.withTables u _)) rfl rfl h.left.keyed
  · exact h.right.sameRows (hv.trans (Follows.withTables v _)) rfl rfl h.right.keyed

theorem transaction_agree (h : Alike s t) {work work' : Store → Outcome α}
    (hwork : ∀ s t, Alike s t → Agree (work s) (work' t))
    (hfollows : ∀ s, Follows s (work s).2) (hfollows' : ∀ s, Follows s (work' s).2) :
    Agree (s.transaction work) (t.transaction work') := by
  refine guarded_agree h (fun ds hds => ?_) _ _ _ _
  have hcount := h.count hds
  generalize hs : { s with disturbances := ds } = u at hcount ⊢
  generalize ht : { t with disturbances := ds } = v at hcount ⊢
  have hopen : (!u.isOpen) = !v.isOpen := congrArg not hcount.isOpen
  have hbusy : (u.isBusy = true) = (v.isBusy = true) := congrArg (· = true) hcount.isBusy
  simp only [hopen, hbusy]
  split
  · exact hcount.agree _
  · split
    · exact hcount.agree _
    · have hu := hfollows { u with isBusy := true }
      have hv := hfollows' { v with isBusy := true }
      rcases hwork _ _ (hcount.withBusy true) with hspent | ⟨heq, halike⟩
      · -- a rollback gives back no ranks, so the store stays spent
        refine Or.inl ?_
        rcases hw : work' { v with isBusy := true } with ⟨_ | a, w⟩
        all_goals
          rw [hw] at hspent
          exact hspent
      · rcases hw : work { u with isBusy := true } with ⟨r, x⟩
        rcases hw' : work' { v with isBusy := true } with ⟨r', y⟩
        rw [hw] at hu
        rw [hw'] at hv
        rw [hw, hw'] at heq halike
        obtain rfl : r = r' := heq
        rcases r with f | a
        · exact (((hcount.withBusy true).rollBack hu hv halike).withBusy false).agree _
        · exact (halike.withBusy false).agree _

/-- The same disturbances strike both stores when they are read. -/
theorem alike_parallel : Parallel Alike :=
  ⟨Alike.isOpen, Alike.disturbances, fun h _ hds => h.count hds⟩

theorem Together.agree {o p : Outcome α} (h : Together Alike o p) : Agree o p :=
  Or.inr h

/-! ## Ranks -/

/-- The last rank that was given out is `last + 1`, and no row has it yet. -/
structure Fresh (last : Int) (s : Store) : Prop where
  counter : s.counter = .whole (last + 1)
  numbered : s.tables.NumberedTo last

/-- Work that is given the next rank of each store agrees. -/
theorem giveRank_agree (h : Alike s t) {next next' : Json → Store → Outcome α}
    (hnext : ∀ u v m n, Alike u v → Fresh m u → Fresh n v → m ≤ n →
      Agree (next (.int (m + 1)) u) (next' (.int (n + 1)) v)) :
    Agree (s.giveRank.andThen next) (t.giveRank.andThen next') := by
  obtain ⟨m, n, hm, hn, hle⟩ := h.counters
  obtain ⟨c, hc, hs⟩ := h.left.numbered
  obtain ⟨d, hd, ht⟩ := h.right.numbered
  obtain rfl : m = c := Rank.whole.inj (hm.symm.trans hc)
  obtain rfl : n = d := Rank.whole.inj (hn.symm.trans hd)
  have hcount := strike_recounted .numbering none s.disturbances
  have hfailing := h.left.failing.recounted hcount
  unfold giveRank guarded
  rw [← h.disturbances]
  rcases hstrike : strike .numbering none s.disturbances with ⟨_ | e, ds⟩
  · rw [hstrike] at hfailing
    simp only [hm, hn, Rank.next?, andThen_ok]
    refine hnext _ _ m n ?_ ⟨rfl, hs⟩ ⟨rfl, ht⟩ hle
    refine { h.withDisturbances hfailing with
      counters := ⟨m + 1, n + 1, rfl, rfl, by omega⟩
      left := ⟨⟨m + 1, rfl, hs.mono (by omega)⟩, h.left.keyed, hfailing⟩
      right := ⟨⟨n + 1, rfl, ht.mono (by omega)⟩, h.right.keyed, hfailing⟩ }
  · obtain ⟨r, rfl⟩ := strike_failing h.left.failing _ _ (congrArg Prod.fst hstrike)
    rw [hstrike] at hfailing
    exact (h.withDisturbances hfailing).agree _

theorem Fresh.count {last : Int} (h : Fresh last s) (ds : List Disturbance) :
    Fresh last { s with disturbances := ds } :=
  ⟨h.counter, h.numbered⟩

/-- The same rule becomes a row of each store. -/
theorem Alike.addRule {m n : Int} (h : Alike s t) (hs : Fresh m s) (ht : Fresh n t) (hle : m ≤ n)
    (r : Rule) : Alike (s.addRule (.whole (m + 1)) r) (t.addRule (.whole (n + 1)) r) :=
  { h with
    rules := h.rules.push (by omega) (keptRule r)
    issued := congrArg (fun i : Issued => { i with rules := i.rules + 1 }) h.issued
    left := ⟨⟨m + 1, hs.counter, by have := hs.numbered.nonneg; omega,
      hs.numbered.rules.push hs.numbered.nonneg _, hs.numbered.events.mono (by omega)⟩,
      h.left.keyed, h.left.failing⟩
    right := ⟨⟨n + 1, ht.counter, by have := ht.numbered.nonneg; omega,
      ht.numbered.rules.push ht.numbered.nonneg _, ht.numbered.events.mono (by omega)⟩,
      h.right.keyed, h.right.failing⟩ }

/-- The same event becomes a row of each store. -/
theorem Alike.addEvent {m n : Int} (h : Alike s t) (hs : Fresh m s) (ht : Fresh n t) (hle : m ≤ n)
    (e : KeptEvent) : Alike (s.addEvent (.whole (m + 1)) e) (t.addEvent (.whole (n + 1)) e) :=
  { h with
    events := h.events.push (by omega) e
    issued := congrArg (fun i : Issued => { i with events := i.events + 1 }) h.issued
    left := ⟨⟨m + 1, hs.counter, by have := hs.numbered.nonneg; omega,
      hs.numbered.rules.mono (by omega), hs.numbered.events.push hs.numbered.nonneg _⟩,
      h.left.keyed, h.left.failing⟩
    right := ⟨⟨n + 1, ht.counter, by have := ht.numbered.nonneg; omega,
      ht.numbered.rules.mono (by omega), ht.numbered.events.push ht.numbered.nonneg _⟩,
      h.right.keyed, h.right.failing⟩ }

theorem Alike.nextRule (h : Alike s t) (d : Draft) : s.nextRule d = t.nextRule d := by
  simp only [Store.nextRule, h.marks, h.issued]

theorem Alike.nextEvent (h : Alike s t) (n : Audit.Note) : s.nextEvent n = t.nextEvent n := by
  simp only [Store.nextEvent, h.marks, h.issued]

/-! ## Rules -/

theorem writeRule_agree (h : Alike s t) (d : Draft) : Agree (s.writeRule d) (t.writeRule d) := by
  refine answered_agree h (fun s t hst => ?_) _ _
  rw [ranked_eq, ranked_eq]
  refine giveRank_agree hst fun u v m n huv hu hv hle => ?_
  refine guarded_agree huv (fun ds hds => ?_) _ _ _ _
  have hcount := huv.count hds
  have hm := hu.numbered.nonneg
  have hn := hv.numbered.nonneg
  split
  · rw [keptRank_int _ (by omega), keptRank_int _ (by omega)]
    by_cases hlimit : n + 1 < Decimal.wordLimit
    · -- the rank of the first store is smaller, so it fits as well
      rw [if_pos (by omega), if_pos hlimit, hcount.nextRule d]
      exact (hcount.addRule (hu.count ds) (hv.count ds) hle _).agree _
    · rw [if_neg hlimit]
      exact Or.inl ⟨n + 1, hv.counter, by omega⟩
  · exact hcount.agree _

theorem writeRules_agree (h : Alike s t) (ds : List Draft) :
    Agree (s.writeRules ds) (t.writeRules ds) := by
  induction ds generalizing s t with
  | nil => exact h.agree _
  | cons d ds ih =>
    rw [writeRules_cons, writeRules_cons]
    refine andThen_agree (writeRule_agree h d) (fun a s t hst => ?_) (fun a t => ?_)
    · exact andThen_agree (ih hst) (fun as s t hst => hst.agree _) fun as t => Follows.refl t
    · exact andThen_follows (writeRules_follows t ds) fun as u => Follows.refl u

theorem insertRule_agree (h : Alike s t) (d : Draft) : Agree (s.insertRule d) (t.insertRule d) :=
  answered_agree h
    (fun _ _ hst => transaction_agree hst (fun _ _ hst => writeRule_agree hst d)
      (fun s => writeRule_follows s d) fun s => writeRule_follows s d) _ _

theorem insertRules_agree (h : Alike s t) (ds : List Draft) :
    Agree (s.insertRules ds) (t.insertRules ds) :=
  answered_agree h
    (fun _ _ hst => given_agree (transaction_agree hst (fun _ _ hst => writeRules_agree hst ds)
      (fun s => writeRules_follows s ds) fun s => writeRules_follows s ds)) _ _

theorem eraseRule_agree (h : Alike s t) (id : String) :
    Agree (s.eraseRule id) (t.eraseRule id) := by
  refine statement_agree h (fun s t hst => ?_) _ _
  rw [hst.rule? id]
  exact (hst.filterRules fun r => r.id ≠ id).agree _

theorem deleteRule_agree (h : Alike s t) (id : String) :
    Agree (s.deleteRule id) (t.deleteRule id) :=
  answered_agree h
    (fun _ _ hst => given_agree (transaction_agree hst (fun _ _ hst => eraseRule_agree hst id)
      (fun s => eraseRule_follows s id) fun s => eraseRule_follows s id)) _ _

theorem findRule_agree (h : Alike s t) (id : String) : Agree (s.findRule id) (t.findRule id) :=
  (findRule_together alike_parallel h fun _ _ hst => hst.rule? id).agree

theorem listRules_agree (h : Alike s t) (action : Option RuleAction) :
    Agree (s.listRules action) (t.listRules action) :=
  (listRules_together alike_parallel h fun _ _ hst =>
    hst.left.listed hst.right hst.rules.map_value action).agree

/-! ## Events -/

theorem writeEvent_agree (h : Alike s t) (n : Audit.Note) :
    Agree (s.writeEvent n) (t.writeEvent n) := by
  rw [writeEvent_eq, writeEvent_eq]
  split
  · exact h.agree _
  · refine giveRank_agree h fun u v i j huv hu hv hle => ?_
    refine guarded_agree huv (fun ds hds => ?_) _ _ _ _
    have hcount := huv.count hds
    have hi := hu.numbered.nonneg
    have hj := hv.numbered.nonneg
    rw [keptRank_int _ (by omega), keptRank_int _ (by omega)]
    by_cases hlimit : j + 1 < Decimal.wordLimit
    · rw [if_pos (by omega), if_pos hlimit, hcount.nextEvent n]
      exact (hcount.addEvent (hu.count ds) (hv.count ds) hle _).agree _
    · rw [if_neg hlimit]
      exact Or.inl ⟨j + 1, hv.counter, by omega⟩

theorem insertEvent_agree (h : Alike s t) (n : Audit.Note) :
    Agree (s.insertEvent n) (t.insertEvent n) :=
  guarded_agree h
    (fun _ hds => transaction_agree (h.count hds) (fun _ _ hst => writeEvent_agree hst n)
      (fun s => writeEvent_follows s n) fun s => writeEvent_follows s n) _ _ _ _

theorem listEvents_agree (h : Alike s t) (limit : Int) :
    Agree (s.listEvents limit) (t.listEvents limit) :=
  (listEvents_together alike_parallel h fun _ _ hst =>
    hst.left.newestEvents hst.right hst.events.map_value).agree

/-! ## Threads and tasks -/

theorem writeThread_agree (h : Alike s t) (participants subject id : Option String) :
    Agree (s.writeThread participants subject id) (t.writeThread participants subject id) := by
  unfold writeThread
  simp only [h.marks, h.issued]
  refine statement_agree h (fun s t hst => ?_) _ _
  rw [hst.thread? _]
  split
  · exact hst.agree _
  · simp only [hst.threads, hst.tasks, hst.issued]
    exact (hst.withThreads _ hst.right.keyed _).agree _

theorem insertThread_agree (h : Alike s t) (participants subject id : Option String) :
    Agree (s.insertThread participants subject id) (t.insertThread participants subject id) :=
  answered_agree h
    (fun _ _ hst => given_agree (transaction_agree hst
      (fun _ _ hst => writeThread_agree hst participants subject id)
      (fun s => writeThread_follows s participants subject id)
      fun s => writeThread_follows s participants subject id)) _ _

theorem writeTask_agree (h : Alike s t) (title thread id : Option String) :
    Agree (s.writeTask title thread id) (t.writeTask title thread id) := by
  unfold writeTask
  simp only [h.marks, h.issued]
  refine statement_agree h (fun s t hst => ?_) _ _
  have hthread : s.tables.thread? = t.tables.thread? := funext hst.thread?
  simp only [hst.tasks, hthread]
  split
  · exact hst.agree _
  · split
    · exact hst.agree _
    · split
      · exact hst.agree _
      · rename_i hnew _
        simp only [hst.threads, hst.issued]
        exact (hst.withThreads _ (hst.right.keyed.push (by simpa using hnew)) _).agree _

theorem insertTask_agree (h : Alike s t) (title thread id : Option String) :
    Agree (s.insertTask title thread id) (t.insertTask title thread id) :=
  answered_agree h
    (fun _ _ hst => given_agree (transaction_agree hst
      (fun _ _ hst => writeTask_agree hst title thread id)
      (fun s => writeTask_follows s title thread id)
      fun s => writeTask_follows s title thread id)) _ _

theorem eraseTask_agree (h : Alike s t) (id : String) :
    Agree (s.eraseTask id) (t.eraseTask id) := by
  refine statement_agree h (fun s t hst => ?_) _ _
  simp only [hst.threads, hst.tasks, hst.issued]
  exact (hst.withThreads _ (hst.right.keyed.filter _) _).agree _

theorem deleteTask_agree (h : Alike s t) (id : String) :
    Agree (s.deleteTask id) (t.deleteTask id) :=
  answered_agree h
    (fun _ _ hst => given_agree (transaction_agree hst (fun _ _ hst => eraseTask_agree hst id)
      (fun s => eraseTask_follows s id) fun s => eraseTask_follows s id)) _ _

theorem listTasks_agree (h : Alike s t) : Agree s.listTasks t.listTasks :=
  (listTasks_together alike_parallel h fun _ _ hst => hst.views).agree

theorem countTasks_agree (h : Alike s t) : Agree s.countTasks t.countTasks :=
  (countTasks_together alike_parallel h fun _ _ hst => hst.tasks).agree

/-! ## Closing and opening -/

theorem close_agree (h : Alike s t) : Agree s.close t.close := by
  refine guarded_agree h (fun ds hds => Or.inr ⟨rfl, ?_⟩) _ _ _ _
  exact { h.count hds with
    isOpen := rfl
    left := ⟨h.left.numbered, h.left.keyed, h.left.failing.recounted hds⟩
    right := ⟨h.right.numbered, h.right.keyed, h.left.failing.recounted hds⟩ }

/-- Stores that are opened on tables that are alike. -/
theorem Alike.openOn (h : Alike s t) (marks : Marks) :
    Alike (Store.openOn s.tables marks) (Store.openOn t.tables marks) := by
  obtain ⟨c, -, hs⟩ := h.left.numbered
  obtain ⟨d, -, ht⟩ := h.right.numbered
  obtain ⟨m, hm, hnonneg, -, -, hrank⟩ := lastRank_of_numbered hs.rules hs.events
  obtain ⟨n, hn, hnonneg', hrules, hevents, -⟩ := lastRank_of_numbered ht.rules ht.events
  refine ⟨h.rules, h.events, h.threads, h.tasks, h.issued, ⟨m, n, hm, hn, ?_⟩, rfl, rfl, rfl, rfl,
    openOn_sound h.left marks, openOn_sound h.right marks⟩
  -- the first count is zero or the rank of a row, to which one at least as great corresponds
  rcases hrank with rfl | hrank
  · exact hnonneg'
  · rcases List.mem_append.mp hrank with hrank | hrank
    · obtain ⟨k, hk, hmem⟩ := h.rules.exists_rank hrank
      obtain ⟨row, hrow, heq⟩ := List.mem_map.mp hmem
      obtain ⟨j, hj, -, hle⟩ := hrules.rank_eq hrow
      rw [heq, Rank.whole.injEq] at hj
      omega
    · obtain ⟨k, hk, hmem⟩ := h.events.exists_rank hrank
      obtain ⟨row, hrow, heq⟩ := List.mem_map.mp hmem
      obtain ⟨j, hj, -, hle⟩ := hevents.rank_eq hrow
      rw [heq, Rank.whole.injEq] at hj
      omega

end MailRules.Store
