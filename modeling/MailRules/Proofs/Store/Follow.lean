import MailRules.Proofs.Store.Strike
import MailRules.Store.Events
import MailRules.Store.Rules
import MailRules.Store.Threads

set_option autoImplicit false

/-!
# What operations leave alone

Whatever an operation comes to, the store that is left `Follows` the one before: it is open or
closed as before, marks rows as before, has the same disturbances, and has gone on counting from the
same rank.

An operation that fails moves nothing (`Unmoved`): the tables are the ones before. Work that changes
tables runs in a transaction, so that this holds of any failure inside it, wherever it strikes
(`transaction_error`).
-/

namespace MailRules.Store

variable {α : Type}

/-- `t` comes after `s`, with any tables. -/
structure Follows (s t : Store) : Prop where
  isOpen : t.isOpen = s.isOpen
  isBusy : t.isBusy = s.isBusy
  marks : t.marks = s.marks
  recounted : Recounted s.disturbances t.disturbances
  climbs : ∀ m, s.counter = .whole m → ∃ n, t.counter = .whole n ∧ m ≤ n

/-- `t` comes after `s`, with the same tables. -/
structure Unmoved (s t : Store) : Prop extends Follows s t where
  tables : t.tables = s.tables

/-- When the operation fails it moves nothing. -/
def Atomic (run : Store → Outcome α) : Prop :=
  ∀ s f t, run s = (.error f, t) → Unmoved s t

theorem Follows.refl (s : Store) : Follows s s :=
  ⟨rfl, rfl, rfl, Recounted.refl _, fun m h => ⟨m, h, Int.le_refl m⟩⟩

theorem Follows.trans {s t u : Store} (h : Follows s t) (h' : Follows t u) : Follows s u where
  isOpen := h'.isOpen.trans h.isOpen
  isBusy := h'.isBusy.trans h.isBusy
  marks := h'.marks.trans h.marks
  recounted := h.recounted.trans h'.recounted
  climbs := by
    intro m hm
    obtain ⟨n, hn, hmn⟩ := h.climbs m hm
    obtain ⟨k, hk, hnk⟩ := h'.climbs n hn
    exact ⟨k, hk, Int.le_trans hmn hnk⟩

theorem Unmoved.refl (s : Store) : Unmoved s s :=
  ⟨Follows.refl s, rfl⟩

theorem Unmoved.trans {s t u : Store} (h : Unmoved s t) (h' : Unmoved t u) : Unmoved s u :=
  ⟨h.toFollows.trans h'.toFollows, h'.tables.trans h.tables⟩

/-- Counting calls moves nothing. -/
theorem Unmoved.count {s : Store} {ds : List Disturbance} (h : Recounted s.disturbances ds) :
    Unmoved s { s with disturbances := ds } :=
  ⟨⟨rfl, rfl, rfl, h, fun m hm => ⟨m, hm, Int.le_refl m⟩⟩, rfl⟩

/-- Work that changes only tables is followed by what it leaves. -/
theorem Follows.withTables (s : Store) (tables : Tables) : Follows s { s with tables := tables } :=
  ⟨rfl, rfl, rfl, Recounted.refl _, fun m h => ⟨m, h, Int.le_refl m⟩⟩

/-- `u` is the store from which an operation on `s` starts: its calls may have been counted, and a
transaction may have begun. -/
structure Ready (s u : Store) : Prop where
  tables : u.tables = s.tables
  counter : u.counter = s.counter
  isOpen : u.isOpen = s.isOpen
  marks : u.marks = s.marks
  recounted : Recounted s.disturbances u.disturbances

theorem Ready.trans {s u v : Store} (h : Ready s u) (h' : Ready u v) : Ready s v :=
  ⟨h'.tables.trans h.tables, h'.counter.trans h.counter, h'.isOpen.trans h.isOpen,
    h'.marks.trans h.marks, h.recounted.trans h'.recounted⟩

theorem Ready.count {s : Store} {ds : List Disturbance} (h : Recounted s.disturbances ds) :
    Ready s { s with disturbances := ds } :=
  ⟨rfl, rfl, rfl, rfl, h⟩

theorem Ready.busy {s u : Store} (h : Ready s u) : Ready s { u with isBusy := true } :=
  ⟨h.tables, h.counter, h.isOpen, h.marks, h.recounted⟩

/-! ## One operation after the other -/

/-- Goes on with the answer of an operation that has succeeded. -/
def Outcome.andThen {β : Type} (o : Outcome α) (next : α → Store → Outcome β) : Outcome β :=
  match o with
  | (.error f, s) => (.error f, s)
  | (.ok a, s) => next a s

variable {β : Type}

@[simp] theorem andThen_error (f : Failure) (s : Store) (next : α → Store → Outcome β) :
    Outcome.andThen (.error f, s) next = (.error f, s) := rfl

@[simp] theorem andThen_ok (a : α) (s : Store) (next : α → Store → Outcome β) :
    Outcome.andThen (.ok a, s) next = next a s := rfl

/-- Both operations have succeeded. -/
theorem andThen_eq_ok {o : Outcome α} {next : α → Store → Outcome β} {b : β} {t : Store}
    (h : o.andThen next = (.ok b, t)) : ∃ a u, o = (.ok a, u) ∧ next a u = (.ok b, t) := by
  rcases o with ⟨_ | a, u⟩
  · cases h
  · exact ⟨a, u, rfl, h⟩

theorem andThen_follows {s : Store} {o : Outcome α} {next : α → Store → Outcome β}
    (ho : Follows s o.2) (hnext : ∀ a u, Follows u (next a u).2) :
    Follows s (o.andThen next).2 := by
  rcases o with ⟨_ | a, u⟩
  · exact ho
  · exact ho.trans (hnext a u)

theorem andThen_unmoved {s : Store} {o : Outcome α} {next : α → Store → Outcome β}
    (ho : Unmoved s o.2) (hnext : ∀ a u, Unmoved u (next a u).2) :
    Unmoved s (o.andThen next).2 := by
  rcases o with ⟨_ | a, u⟩
  · exact ho
  · exact ho.trans (hnext a u)

/-! ## Guarded operations and transactions -/

/-- A guarded operation leaves the store with the call counted, or what running on that leaves. -/
theorem guarded_snd (s : Store) (op : Operation) (subject : Option String)
    (instead : Json → Except Failure α) (run : Store → Outcome α) :
    ∃ ds, Recounted s.disturbances ds ∧
      ((s.guarded op subject instead run).2 = { s with disturbances := ds } ∨
        s.guarded op subject instead run = run { s with disturbances := ds }) := by
  refine ⟨(strike op subject s.disturbances).2, strike_recounted op subject s.disturbances, ?_⟩
  unfold guarded
  rcases strike op subject s.disturbances with ⟨_ | _ | _, ds⟩
  · exact Or.inr rfl
  · exact Or.inl rfl
  · exact Or.inl rfl

theorem guarded_follows {run : Store → Outcome α} (hrun : ∀ s, Follows s (run s).2) (s : Store)
    (op : Operation) (subject : Option String) (instead : Json → Except Failure α) :
    Follows s (s.guarded op subject instead run).2 := by
  obtain ⟨ds, hcount, h | h⟩ := guarded_snd s op subject instead run
  · exact h ▸ (Unmoved.count hcount).toFollows
  · exact h ▸ (Unmoved.count hcount).toFollows.trans (hrun _)

theorem guarded_unmoved {run : Store → Outcome α} (hrun : ∀ s, Unmoved s (run s).2) (s : Store)
    (op : Operation) (subject : Option String) (instead : Json → Except Failure α) :
    Unmoved s (s.guarded op subject instead run).2 := by
  obtain ⟨ds, hcount, h | h⟩ := guarded_snd s op subject instead run
  · exact h ▸ Unmoved.count hcount
  · exact h ▸ (Unmoved.count hcount).trans (hrun _)

theorem guarded_error {run : Store → Outcome α} (hrun : Atomic run) {s t : Store} {f : Failure}
    {op : Operation} {subject : Option String} {instead : Json → Except Failure α}
    (h : s.guarded op subject instead run = (.error f, t)) : Unmoved s t := by
  obtain ⟨ds, hcount, hsnd | hsnd⟩ := guarded_snd s op subject instead run
  · rw [h] at hsnd
    obtain rfl : t = _ := hsnd
    exact Unmoved.count hcount
  · exact (Unmoved.count hcount).trans (hrun _ f t (hsnd ▸ h))

theorem answered_follows {run : Store → Outcome (Answer α)} (hrun : ∀ s, Follows s (run s).2)
    (s : Store) (op : Operation) (subject : Option String) :
    Follows s (s.answered op subject run).2 :=
  guarded_follows hrun s op subject _

theorem answered_unmoved {run : Store → Outcome (Answer α)} (hrun : ∀ s, Unmoved s (run s).2)
    (s : Store) (op : Operation) (subject : Option String) :
    Unmoved s (s.answered op subject run).2 :=
  guarded_unmoved hrun s op subject _

theorem answered_error {run : Store → Outcome (Answer α)} (hrun : Atomic run) {s t : Store}
    {f : Failure} {op : Operation} {subject : Option String}
    (h : s.answered op subject run = (.error f, t)) : Unmoved s t :=
  guarded_error hrun h

theorem statement_follows {run : Store → Outcome α} (hrun : ∀ s, Follows s (run s).2) (s : Store)
    (instead : Json → Except Failure α) : Follows s (s.statement instead run).2 :=
  guarded_follows hrun s _ _ instead

@[simp] theorem given_snd (o : Outcome α) : o.given.2 = o.2 := rfl

theorem given_eq_error {o : Outcome α} {f : Failure} {t : Store} :
    o.given = (.error f, t) ↔ o = (.error f, t) := by
  rcases o with ⟨_ | _, u⟩ <;> simp [Outcome.given, Except.map]

theorem given_eq_ok {o : Outcome α} {a : Answer α} {t : Store} (h : o.given = (.ok a, t)) :
    ∃ b, a = .given b ∧ o = (.ok b, t) := by
  rcases o with ⟨_ | b, u⟩
  · cases h
  · cases h
    exact ⟨b, rfl, rfl⟩

/-- A transaction leaves no other behind. -/
theorem transaction_follows {work : Store → Outcome α} (hwork : ∀ s, Follows s (work s).2)
    (s : Store) : Follows s (s.transaction work).2 := by
  refine guarded_follows (fun s => ?_) s _ _ _
  split
  · exact Follows.refl s
  · split
    · exact Follows.refl s
    · rename_i _ hidle
      have hbusy := hwork { s with isBusy := true }
      rcases hw : work { s with isBusy := true } with ⟨_ | a, t⟩
      all_goals
        rw [hw] at hbusy
        exact ⟨hbusy.isOpen, (by simpa using hidle), hbusy.marks, hbusy.recounted, hbusy.climbs⟩

/-- Whatever the work, and wherever in it the failure is: the tables are those before. -/
theorem transaction_error {work : Store → Outcome α} (hwork : ∀ s, Follows s (work s).2)
    {s t : Store} {f : Failure} (h : s.transaction work = (.error f, t)) : Unmoved s t := by
  refine guarded_error (fun s f t h => ?_) h
  split at h
  · rw [← (Prod.mk.inj h).2]
    exact Unmoved.refl s
  · split at h
    · rw [← (Prod.mk.inj h).2]
      exact Unmoved.refl s
    · rename_i _ hidle
      have hbusy := hwork { s with isBusy := true }
      rcases hw : work { s with isBusy := true } with ⟨_ | a, u⟩
      · rw [hw] at hbusy h
        rw [← (Prod.mk.inj h).2]
        exact ⟨⟨hbusy.isOpen, (by simpa using hidle), hbusy.marks, hbusy.recounted, hbusy.climbs⟩,
          rfl⟩
      · rw [hw] at h
        cases (Prod.mk.inj h).1

/-- Where disturbances only fail, an operation that succeeds has run. -/
theorem guarded_ok {run : Store → Outcome α} {s t : Store} (hf : Failing s.disturbances)
    {op : Operation} {subject : Option String} {instead : Json → Except Failure α} {a : α}
    (h : s.guarded op subject instead run = (.ok a, t)) :
    ∃ u, Ready s u ∧ run u = (.ok a, t) := by
  obtain ⟨ds, hcount, ⟨f, hfail⟩ | hrun⟩ := guarded_cases hf op subject instead run
  · rw [hfail] at h
    cases h
  · exact ⟨_, Ready.count hcount, hrun ▸ h⟩

theorem answered_ok {run : Store → Outcome (Answer α)} {s t : Store}
    (hf : Failing s.disturbances) {op : Operation} {subject : Option String} {a : Answer α}
    (h : s.answered op subject run = (.ok a, t)) : ∃ u, Ready s u ∧ run u = (.ok a, t) :=
  guarded_ok hf h

theorem statement_ok {instead : Json → Except Failure α} {run : Store → Outcome α} {s t : Store}
    (hf : Failing s.disturbances) {a : α} (h : s.statement instead run = (.ok a, t)) :
    ∃ u, Ready s u ∧ run u = (.ok a, t) :=
  guarded_ok hf h

/-- A transaction that succeeds leaves what its work leaves. -/
theorem transaction_ok {work : Store → Outcome α} {s t : Store} (hf : Failing s.disturbances)
    {a : α} (h : s.transaction work = (.ok a, t)) :
    ∃ u v, Ready s u ∧ work u = (.ok a, v) ∧ t = { v with isBusy := false } := by
  obtain ⟨u, hu, hrun⟩ := guarded_ok hf h
  split at hrun
  · cases hrun
  · split at hrun
    · cases hrun
    · rcases hw : work { u with isBusy := true } with ⟨_ | b, v⟩
      · rw [hw] at hrun
        cases hrun
      · rw [hw] at hrun
        cases hrun
        exact ⟨_, v, hu.busy, hw, rfl⟩

/-- A transaction that succeeds has begun on an open store. -/
theorem transaction_isOpen {work : Store → Outcome α} {s t : Store} (hf : Failing s.disturbances)
    {a : α} (h : s.transaction work = (.ok a, t)) : s.isOpen = true := by
  obtain ⟨u, hu, hrun⟩ := guarded_ok hf h
  split at hrun
  · cases hrun
  · rename_i hopen
    rw [← hu.isOpen]
    simpa using hopen

/-- Asking moves nothing, whatever the answer. -/
theorem question_unmoved (s : Store) (rows : Tables → Except Failure (List α)) :
    Unmoved s (s.question rows).2 := by
  refine guarded_unmoved (fun s => ?_) s _ _ _
  split
  · exact Unmoved.refl s
  · exact Unmoved.refl s

/-- Rows that are given are those of the tables. -/
theorem question_ok {rows : Tables → Except Failure (List α)} {s t : Store}
    (hf : Failing s.disturbances) {a : Answer (List α)} (h : s.question rows = (.ok a, t)) :
    ∃ bs, a = .given bs ∧ rows s.tables = .ok bs ∧ Unmoved s t := by
  have hmove := question_unmoved s rows
  rw [h] at hmove
  obtain ⟨u, hu, hrun⟩ := answered_ok hf h
  split at hrun
  · obtain ⟨bs, rfl, hbs⟩ := given_eq_ok hrun
    exact ⟨bs, rfl, hu.tables ▸ (Prod.mk.inj hbs).1, hmove⟩
  · cases hrun

/-- Whether a rank can be kept. -/
theorem keptRank_int (place : Nat) {n : Int} (h : 0 ≤ n) :
    keptRank place (.int n) =
      if n < Decimal.wordLimit then .ok (some (.whole n)) else .error .outOfRange := by
  have hword : Decimal.isWord n = decide (n < Decimal.wordLimit) := by
    have hlow : -Decimal.wordLimit ≤ n := by
      unfold Decimal.wordLimit
      omega
    simp [Decimal.isWord, hlow]
  simp only [keptRank, hword, decide_eq_true_eq]

/-- A rank that is given out is the next one. -/
theorem giveRank_ok {s t : Store} (hf : Failing s.disturbances) {c : Int}
    (hc : s.counter = .whole c) {v : Json} (h : s.giveRank = (.ok v, t)) :
    v = .int (c + 1) ∧ t.tables = s.tables ∧ t.counter = .whole (c + 1) := by
  obtain ⟨u, hu, hrun⟩ := guarded_ok hf h
  simp only [hu.counter, hc, Rank.next?] at hrun
  cases hrun
  exact ⟨rfl, hu.tables, rfl⟩

/-- Giving out a rank moves nothing. -/
theorem giveRank_unmoved (s : Store) : Unmoved s s.giveRank.2 := by
  refine guarded_unmoved (fun s => ?_) s _ _ _
  rcases hc : s.counter with n | x | t
  · exact ⟨⟨rfl, rfl, rfl, Recounted.refl _, fun m hm => by
      rw [hc, Rank.whole.injEq] at hm
      exact ⟨n + 1, rfl, by omega⟩⟩, rfl⟩
  · exact ⟨⟨rfl, rfl, rfl, Recounted.refl _, fun m hm => by rw [hc] at hm; cases hm⟩, rfl⟩
  · exact Unmoved.refl s

theorem giveRank_follows (s : Store) : Follows s s.giveRank.2 :=
  (giveRank_unmoved s).toFollows

end MailRules.Store
