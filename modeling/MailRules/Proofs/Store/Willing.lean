import MailRules.Proofs.Store.Calm

set_option autoImplicit false

/-!
# Stores in which writing does not go wrong

In a store in which writing rules does not go wrong (`Receptive`) it can be foretold from the count
of ranks: rules are written as long as their ranks can be kept (`insertRules_within`). Writing an
event uses up one rank at most, and exactly one if that does not go wrong either
(`insertEvent_calm`).

If nothing but writing events goes wrong (`Willing`), rules are found, erased and listed as well.
-/

namespace MailRules.Store

variable {s : Store}

/-! ## Writing rules -/

/-- The store after rules have been written, when `last` was the last rank. -/
def withRules (s : Store) (last : Int) (rs : List Rule) : Store :=
  { s with
    counter := .whole (last + rs.length)
    tables := s.tables.withRules last rs }

theorem withRules_nil {c : Int} (hc : s.counter = .whole c) : s.withRules c [] = s := by
  have hcount : s.withRules c [] = { s with counter := .whole c } := by
    simp [withRules, Tables.withRules, rowsFrom]
  rw [hcount, ← hc]

theorem writeRules_within (hcalm : ∀ op ∈ ruleWriting, Calm op s.disturbances) {c : Int}
    (hc : s.counter = .whole c) (hnonneg : 0 ≤ c) {ds : List Draft}
    (hfits : ∀ d ∈ ds, d.confidence.all Number.fits = true)
    (hlimit : c + ds.length < Decimal.wordLimit) :
    s.writeRules ds = (.ok ((rulesFrom s.marks s.tables.issued.rules ds).map .given),
      s.withRules c (rulesFrom s.marks s.tables.issued.rules ds)) := by
  induction ds generalizing s c with
  | nil =>
    rw [rulesFrom, withRules_nil hc]
    rfl
  | cons d ds ih =>
    obtain ⟨hd, hds⟩ := List.forall_mem_cons.mp hfits
    rw [List.length_cons] at hlimit
    have hrest :=
      ih (s := { s with counter := .whole (c + 1) }.addRule (.whole (c + 1)) (s.nextRule d)) hcalm
        rfl (by omega) hds (by omega)
    rw [writeRules_cons, writeRule_calm hcalm hc hnonneg hd, if_pos (by omega), andThen_ok, hrest,
      andThen_ok]
    simp [withRules, addRule, nextRule, Tables.withRules, rulesFrom, rowsFrom, Nat.add_comm,
      Nat.add_left_comm]
    omega

/-- Rules are written, unless one of their ranks is too great. -/
theorem writeRules_of_calm (hcalm : ∀ op ∈ ruleWriting, Calm op s.disturbances) {c : Int}
    (hc : s.counter = .whole c) (hnonneg : 0 ≤ c) {ds : List Draft}
    (hfits : ∀ d ∈ ds, d.confidence.all Number.fits = true) :
    (∃ as t, s.writeRules ds = (.ok as, t)) ∨ (s.writeRules ds).2.IsSpent := by
  induction ds generalizing s c with
  | nil => exact Or.inl ⟨_, _, rfl⟩
  | cons d ds ih =>
    obtain ⟨hd, hds⟩ := List.forall_mem_cons.mp hfits
    rw [writeRules_cons, writeRule_calm hcalm hc hnonneg hd]
    by_cases hlimit : c + 1 < Decimal.wordLimit
    · rw [if_pos hlimit, andThen_ok]
      have hrest :=
        ih (s := { s with counter := .whole (c + 1) }.addRule (.whole (c + 1)) (s.nextRule d)) hcalm
          rfl (by omega) hds
      rcases hrest with ⟨as, t, hok⟩ | hspent
      · rw [hok]
        exact Or.inl ⟨_, _, rfl⟩
      · refine Or.inr ?_
        rcases hwritten : writeRules _ ds with ⟨f | as, t⟩
        all_goals
          rw [hwritten] at hspent
          exact hspent
    · rw [if_neg hlimit, andThen_error]
      exact Or.inr ⟨c + 1, rfl, by omega⟩

/-- Rules whose ranks can be kept are written. -/
theorem insertRules_within (hw : s.Receptive) {c : Int} (hc : s.counter = .whole c)
    (hnonneg : 0 ≤ c) {ds : List Draft} (hfits : ∀ d ∈ ds, d.confidence.all Number.fits = true)
    (hlimit : c + ds.length < Decimal.wordLimit) :
    s.insertRules ds = (.ok (.given ((rulesFrom s.marks s.tables.issued.rules ds).map .given)),
      s.withRules c (rulesFrom s.marks s.tables.issued.rules ds)) := by
  unfold insertRules answered
  rw [guarded_of_calm (hw.calm .insertRules (by decide)),
    transaction_of_calm (hw.calm .transaction (by decide)) hw.isOpen hw.idle,
    writeRules_within (s := { s with isBusy := true }) hw.calm hc hnonneg hfits hlimit]
  simp only [Outcome.given, Except.map, withRules, hw.idle]

theorem insertRules_receptive (hw : s.Receptive) {c : Int} (hc : s.counter = .whole c)
    (hnonneg : 0 ≤ c) {ds : List Draft} (hfits : ∀ d ∈ ds, d.confidence.all Number.fits = true) :
    (∃ a t, s.insertRules ds = (.ok a, t)) ∨ (s.insertRules ds).2.IsSpent := by
  unfold insertRules answered
  rw [guarded_of_calm (hw.calm .insertRules (by decide)),
    transaction_of_calm (hw.calm .transaction (by decide)) hw.isOpen hw.idle]
  rcases writeRules_of_calm (s := { s with isBusy := true }) hw.calm hc hnonneg hfits
    with ⟨as, t, hok⟩ | hspent
  · rw [hok]
    exact Or.inl ⟨_, _, rfl⟩
  · refine Or.inr ?_
    rcases hwritten : writeRules { s with isBusy := true } ds with ⟨f | as, t⟩
    all_goals
      rw [hwritten] at hspent
      exact hspent

/-- A rule whose rank can be kept is written. -/
theorem insertRule_within (hw : s.Receptive) {c : Int} (hc : s.counter = .whole c) (hnonneg : 0 ≤ c)
    {d : Draft} (hfits : d.confidence.all Number.fits = true)
    (hlimit : c + 1 < Decimal.wordLimit) :
    s.insertRule d = (.ok (.given (s.nextRule d)), s.withRules c [s.nextRule d]) := by
  unfold insertRule answered
  rw [guarded_of_calm (hw.calm .insertRule (by decide)),
    transaction_of_calm (hw.calm .transaction (by decide)) hw.isOpen hw.idle,
    writeRule_calm (s := { s with isBusy := true }) hw.calm hc hnonneg hfits, if_pos hlimit]
  simp only [addRule, nextRule, withRules, Tables.withRules, rowsFrom, hw.idle]
  rfl

/-- A rule whose rank cannot be kept is refused. -/
theorem insertRule_beyond (hw : s.Receptive) {c : Int} (hc : s.counter = .whole c) (hnonneg : 0 ≤ c)
    {d : Draft} (hfits : d.confidence.all Number.fits = true)
    (hlimit : Decimal.wordLimit ≤ c + 1) : (s.insertRule d).1 = .error .outOfRange := by
  unfold insertRule answered
  rw [guarded_of_calm (hw.calm .insertRule (by decide)),
    transaction_of_calm (hw.calm .transaction (by decide)) hw.isOpen hw.idle,
    writeRule_calm (s := { s with isBusy := true }) hw.calm hc hnonneg hfits,
    if_neg (by omega)]
  rfl

/-! ## Finding and erasing rules -/

theorem findRule_willing (hw : s.Willing) (id : String) :
    s.findRule id = (.ok (.given (s.tables.rule? id)), s) :=
  findRule_of_calm (hw.calm .findRule (by decide)) (hw.calm .question (by decide))
    (hw.calm .readRule (by decide)) hw.isOpen id

/-- A rule is erased in a transaction. -/
theorem erased_receptive (hw : s.Receptive) (id : String) :
    (s.transaction fun s => s.eraseRule id) =
      (.ok (s.tables.rule? id).isSome, { s with tables := s.tables.withoutRule id }) := by
  rw [transaction_of_calm (hw.calm .transaction (by decide)) hw.isOpen hw.idle]
  unfold eraseRule statement
  rw [guarded_of_calm (s := { s with isBusy := true }) (hw.calm .statement (by decide))]
  simp only [Tables.withoutRule, hw.idle]

theorem deleteRule_willing (hw : s.Willing) (id : String) :
    s.deleteRule id =
      (.ok (.given (s.tables.rule? id).isSome), { s with tables := s.tables.withoutRule id }) := by
  unfold deleteRule answered
  rw [guarded_of_calm (hw.calm .deleteRule (by decide)), erased_receptive hw.receptive]
  rfl

/-! ## Writing events -/

/-- An event is written with the next rank if that can be kept. -/
theorem writeEvent_calm (hcalm : ∀ op ∈ ruleWriting, Calm op s.disturbances) {c : Int}
    (hc : s.counter = .whole c) (hnonneg : 0 ≤ c) {n : Audit.Note} (hn : refusal? n = none) :
    s.writeEvent n =
      if c + 1 < Decimal.wordLimit then
        (.ok (), { s with counter := .whole (c + 1) }.addEvent (.whole (c + 1)) (s.nextEvent n))
      else (.error .outOfRange, { s with counter := .whole (c + 1) }) := by
  rw [writeEvent_eq, hn]
  unfold giveRank
  rw [guarded_of_calm (hcalm .numbering (by decide))]
  simp only [hc, Rank.next?, andThen_ok]
  unfold statement
  rw [guarded_of_calm (s := { s with counter := .whole (c + 1) }) (hcalm .statement (by decide))]
  simp only [Rank.toJson]
  rw [keptRank_int _ (by omega)]
  by_cases hlimit : c + 1 < Decimal.wordLimit
  · rw [if_pos hlimit, if_pos hlimit]
    rfl
  · rw [if_neg hlimit, if_neg hlimit]

/-- If nothing goes wrong, an event is written with the next rank if that can be kept. -/
theorem insertEvent_calm (hw : s.Receptive) (hcalm : Calm .insertEvent s.disturbances) {c : Int}
    (hc : s.counter = .whole c) (hnonneg : 0 ≤ c) {n : Audit.Note} (hn : refusal? n = none) :
    ((s.insertEvent n).1 = .ok () ↔ c + 1 < Decimal.wordLimit) ∧
      (s.insertEvent n).2.counter = .whole (c + 1) := by
  unfold insertEvent
  rw [guarded_of_calm hcalm,
    transaction_of_calm (hw.calm .transaction (by decide)) hw.isOpen hw.idle,
    writeEvent_calm (s := { s with isBusy := true }) hw.calm hc hnonneg hn]
  by_cases hlimit : c + 1 < Decimal.wordLimit
  · rw [if_pos hlimit]
    exact ⟨iff_of_true rfl hlimit, rfl⟩
  · rw [if_neg hlimit]
    exact ⟨iff_of_false nofun hlimit, rfl⟩

/-- An event whose rank can be kept is written. -/
theorem insertEvent_within (hw : s.Receptive) (hcalm : Calm .insertEvent s.disturbances) {c : Int}
    (hc : s.counter = .whole c) (hnonneg : 0 ≤ c) {n : Audit.Note} (hn : refusal? n = none)
    (hlimit : c + 1 < Decimal.wordLimit) :
    s.insertEvent n = (.ok (), { s with
      counter := .whole (c + 1)
      tables := s.tables.withEvent c (s.nextEvent n) }) := by
  unfold insertEvent
  rw [guarded_of_calm hcalm,
    transaction_of_calm (hw.calm .transaction (by decide)) hw.isOpen hw.idle,
    writeEvent_calm (s := { s with isBusy := true }) hw.calm hc hnonneg hn, if_pos hlimit]
  simp only [addEvent, nextEvent, Tables.withEvent, hw.idle]

/-- Writing an event uses up one rank at most. -/
theorem insertEvent_counter (hs : s.Sound) (hw : s.Receptive) {c : Int} (hc : s.counter = .whole c)
    (hnonneg : 0 ≤ c) {n : Audit.Note} (hn : refusal? n = none) :
    ∃ m, (s.insertEvent n).2.counter = .whole m ∧ m ≤ c + 1 := by
  unfold insertEvent
  obtain ⟨ds, hcount, ⟨f, hstruck⟩ | hruns⟩ := guarded_cases hs.failing .insertEvent
    (some n.actor) (fun _ => .ok ()) (fun s => s.transaction fun s => s.writeEvent n)
  · rw [hstruck]
    exact ⟨c, hc, by omega⟩
  · have hcalm : ∀ op ∈ ruleWriting, Calm op ds :=
      fun op hop => (hw.calm op hop).recounted hcount
    rw [hruns, transaction_of_calm (s := { s with disturbances := ds })
      (hcalm .transaction (by decide)) hw.isOpen hw.idle,
      writeEvent_calm (s := { s with disturbances := ds, isBusy := true }) hcalm hc hnonneg hn]
    refine ⟨c + 1, ?_, Int.le_refl _⟩
    by_cases hlimit : c + 1 < Decimal.wordLimit
    · rw [if_pos hlimit]
      rfl
    · rw [if_neg hlimit]

/-- All events are listed, newest first. -/
theorem listEvents_willing (hw : s.Willing) :
    s.listEvents (-1) =
      (.ok (.given ((newestFirst s.tables.events).map KeptEvent.event)), s) :=
  listEvents_of_calm (hw.calm .listEvents (by decide)) (hw.calm .question (by decide)) hw.isOpen
    (by decide)

end MailRules.Store
