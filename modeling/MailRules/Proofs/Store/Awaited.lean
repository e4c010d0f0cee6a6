import MailRules.Proofs.Store.Parallel
import MailRules.Proofs.Store.Willing

set_option autoImplicit false

/-!
# Events that are still to be written

A store that `Awaits` notes holds the same rules as another one, and of its events the first; the
other has written the notes as well. Rules and events share one count, so the rows of the two stores
have different ranks: an event that is written late comes after rules that were written meanwhile.
What the ranks have in common is that there are as many of them as rows, and that they grow.

What is done with rules comes to the same on both stores. An event that is written to the second one
is awaited by the first (`Awaits.push`) until it is written there (`Awaits.pop`). The one exception
is that the notes leave no rank to a row (`Overdrawn`).
-/

namespace MailRules.Store

/-- The events that notes become, one after the other, when so many identifiers of events have been
given out. -/
def eventsFrom (m : Marks) (issued : Nat) : List Audit.Note → List KeptEvent
  | [] => []
  | n :: ns =>
    ⟨m.event issued, n.actor, n.kind, n.entity, n.entityId, m.time, n.text⟩ ::
      eventsFrom m (issued + 1) ns

theorem eventsFrom_concat (m : Marks) (issued : Nat) (notes : List Audit.Note) (n : Audit.Note) :
    eventsFrom m issued (notes ++ [n]) =
      eventsFrom m issued notes ++ eventsFrom m (issued + notes.length) [n] := by
  induction notes generalizing issued with
  | nil => rfl
  | cons k notes ih =>
    have hlength : issued + (k :: notes).length = issued + 1 + notes.length := by
      rw [List.length_cons]
      omega
    rw [hlength]
    exact congrArg (List.cons _) (ih (issued + 1))

/-- A sound store in which writing rules and events does not go wrong. -/
structure Sturdy (s : Store) : Prop where
  sound : s.Sound
  receptive : s.Receptive
  calm : Calm .insertEvent s.disturbances

/-- There are not enough ranks for so many further rows. -/
def Overdrawn (further : Nat) (s : Store) : Prop :=
  ∃ c, s.counter = .whole c ∧ Decimal.wordLimit ≤ c + further

/-- `t` holds what `s` holds and, besides, the events that notes become. -/
structure Awaits (notes : List Audit.Note) (s t : Store) : Prop where
  rules : s.tables.rules.map Row.value = t.tables.rules.map Row.value
  events : s.tables.events.map Row.value ++ eventsFrom s.marks s.tables.issued.events notes =
    t.tables.events.map Row.value
  issuedRules : s.tables.issued.rules = t.tables.issued.rules
  issuedEvents : s.tables.issued.events + notes.length = t.tables.issued.events
  /-- The count of `t` is ahead by the ranks of the notes, and all of them can be kept. -/
  counters : ∃ c : Int, s.counter = .whole c ∧ t.counter = .whole (c + notes.length) ∧
    c + notes.length < Decimal.wordLimit
  marks : s.marks = t.marks
  disturbances : s.disturbances = t.disturbances
  sturdy : s.Sturdy
  leadSturdy : t.Sturdy
  writable : ∀ n ∈ notes, refusal? n = none

variable {s t : Store} {notes : List Audit.Note}

theorem Sturdy.nonneg (h : s.Sturdy) {c : Int} (hc : s.counter = .whole c) : 0 ≤ c := by
  obtain ⟨n, hn, hnumbered⟩ := h.sound.numbered
  exact Rank.whole.inj (hn.symm.trans hc) ▸ hnumbered.nonneg

theorem Sturdy.step (h : s.Sturdy) (hst : s.Follows t) (hsound : t.Sound) : t.Sturdy :=
  ⟨hsound, h.receptive.follows hst, h.calm.recounted hst.recounted⟩

/-- Rows that are written meanwhile leave even fewer ranks. -/
theorem Overdrawn.follows {m n : Nat} (h : Overdrawn m s) (hst : s.Follows t) (hmn : m ≤ n) :
    Overdrawn n t := by
  obtain ⟨c, hc, hlimit⟩ := h
  obtain ⟨d, hd, hle⟩ := hst.climbs c hc
  exact ⟨d, hd, by omega⟩

theorem IsSpent.overdrawn (h : s.IsSpent) (further : Nat) : Overdrawn further s := by
  obtain ⟨c, hc, hlimit⟩ := h
  exact ⟨c, hc, by omega⟩

/-- At first nothing is awaited. -/
theorem Sturdy.awaits (h : s.Sturdy) : Overdrawn 0 s ∨ Awaits [] s s := by
  obtain ⟨c, hc, -⟩ := h.sound.numbered
  by_cases hlimit : c < Decimal.wordLimit
  · exact Or.inr {
      rules := rfl
      events := List.append_nil _
      issuedRules := rfl
      issuedEvents := rfl
      counters := ⟨c, hc, by simpa using hc, by simpa using hlimit⟩
      marks := rfl
      disturbances := rfl
      sturdy := h
      leadSturdy := h
      writable := List.forall_mem_nil _ }
  · exact Or.inl ⟨c, hc, by simpa using hlimit⟩

/-! ## Rules -/

theorem Awaits.rule? (h : Awaits notes s t) (id : String) :
    s.tables.rule? id = t.tables.rule? id := by
  rw [rule?_eq_find?, rule?_eq_find?, h.rules]

theorem awaits_parallel (notes : List Audit.Note) : Parallel (Awaits notes) where
  isOpen h := h.sturdy.receptive.isOpen.trans h.leadSturdy.receptive.isOpen.symm
  disturbances := Awaits.disturbances
  count h ds hds := { h with
    disturbances := rfl
    sturdy := h.sturdy.step (Unmoved.count hds).toFollows (h.sturdy.sound.unmoved (.count hds))
    leadSturdy := by
      have hcount : Recounted _ ds := h.disturbances ▸ hds
      exact h.leadSturdy.step (Unmoved.count hcount).toFollows
        (h.leadSturdy.sound.unmoved (.count hcount)) }

theorem Sturdy.withRules (h : s.Sturdy) {c : Int} (hc : s.counter = .whole c) (rs : List Rule) :
    (s.withRules c rs).Sturdy := by
  obtain ⟨n, hn, hnumbered⟩ := h.sound.numbered
  obtain rfl := Rank.whole.inj (hc.symm.trans hn)
  exact ⟨⟨⟨_, rfl, hnumbered.withRules rs⟩, h.sound.keyed, h.sound.failing⟩,
    ⟨h.receptive.isOpen, h.receptive.idle, h.receptive.calm⟩, h.calm⟩

/-- The same rules are added to both stores. -/
theorem Awaits.withRules (h : Awaits notes s t) {c : Int} (hc : s.counter = .whole c)
    (hlead : t.counter = .whole (c + notes.length)) (rs : List Rule)
    (hlimit : c + notes.length + rs.length < Decimal.wordLimit) :
    Awaits notes (s.withRules c rs) (t.withRules (c + notes.length) rs) where
  rules := by simp [Store.withRules, Tables.withRules, h.rules]
  events := h.events
  issuedRules := congrArg (· + rs.length) h.issuedRules
  issuedEvents := h.issuedEvents
  counters := ⟨c + rs.length, rfl, congrArg Rank.whole (by omega), by omega⟩
  marks := h.marks
  disturbances := h.disturbances
  sturdy := h.sturdy.withRules hc rs
  leadSturdy := h.leadSturdy.withRules hlead rs
  writable := h.writable

/-- Rules are written to both stores, unless that leaves too few ranks for the notes. -/
theorem Awaits.insertRules (h : Awaits notes s t) {ds : List Draft}
    (hfits : ∀ d ∈ ds, d.confidence.all Number.fits = true) :
    Overdrawn notes.length (s.insertRules ds).2 ∨
      Together (Awaits notes) (s.insertRules ds) (t.insertRules ds) := by
  obtain ⟨c, hc, hlead, -⟩ := h.counters
  have hnonneg := h.sturdy.nonneg hc
  -- the ranks of the second store run out first, since those of the notes are given out already
  by_cases hlimit : c + notes.length + ds.length < Decimal.wordLimit
  · have hrules : rulesFrom s.marks s.tables.issued.rules ds =
        rulesFrom t.marks t.tables.issued.rules ds := by
      rw [h.marks, h.issuedRules]
    rw [insertRules_within h.sturdy.receptive hc hnonneg hfits (by omega),
      insertRules_within h.leadSturdy.receptive hlead (by omega) hfits hlimit, hrules]
    refine Or.inr ⟨rfl, h.withRules hc hlead _ ?_⟩
    rwa [length_rulesFrom]
  · refine Or.inl ?_
    rcases insertRules_receptive h.sturdy.receptive hc hnonneg hfits with ⟨a, u, hok⟩ | hspent
    · obtain ⟨-, -, hcounter⟩ := insertRules_ok h.sturdy.sound.failing hc hok
      rw [hok]
      exact ⟨_, hcounter, by omega⟩
    · exact hspent.overdrawn _

/-- A rule is written to both stores, unless that leaves too few ranks for the notes. -/
theorem Awaits.insertRule (h : Awaits notes s t) {d : Draft}
    (hfits : d.confidence.all Number.fits = true) :
    Overdrawn notes.length (s.insertRule d).2 ∨
      Together (Awaits notes) (s.insertRule d) (t.insertRule d) := by
  obtain ⟨c, hc, hlead, -⟩ := h.counters
  have hnonneg := h.sturdy.nonneg hc
  by_cases hlimit : c + notes.length + 1 < Decimal.wordLimit
  · have hnext : s.nextRule d = t.nextRule d := by
      simp only [nextRule, h.marks, h.issuedRules]
    rw [insertRule_within h.sturdy.receptive hc hnonneg hfits (by omega),
      insertRule_within h.leadSturdy.receptive hlead (by omega) hfits hlimit, hnext]
    exact Or.inr ⟨rfl, h.withRules hc hlead _ hlimit⟩
  · refine Or.inl ?_
    rcases insertRule_receptive h.sturdy.sound h.sturdy.receptive hfits with ⟨a, u, hok⟩ | hspent
    · obtain ⟨-, -, hcounter⟩ := insertRule_ok h.sturdy.sound.failing hc hok
      rw [hok]
      exact ⟨_, hcounter, by omega⟩
    · exact hspent.overdrawn _

theorem Sturdy.withoutRule (h : s.Sturdy) (id : String) :
    Sturdy { s with tables := s.tables.withoutRule id } := by
  have hfollows := Follows.withTables s (s.tables.withoutRule id)
  obtain ⟨c, hc, hnumbered⟩ := h.sound.numbered
  refine h.step hfollows ⟨⟨c, hc, ?_⟩, h.sound.keyed, h.sound.failing⟩
  exact ⟨hnumbered.nonneg, hnumbered.rules.sublist List.filter_sublist, hnumbered.events⟩

/-- A rule is erased from both stores, or that goes wrong in both. -/
theorem Awaits.deleteRule (h : Awaits notes s t) (id : String) :
    Together (Awaits notes) (s.deleteRule id) (t.deleteRule id) := by
  refine answered_together (awaits_parallel notes) h (fun s t h => given_together ?_) _ _
  rw [erased_receptive h.sturdy.receptive, erased_receptive h.leadSturdy.receptive, h.rule? id]
  refine ⟨rfl, { h with
    rules := ?_
    sturdy := h.sturdy.withoutRule id
    leadSturdy := h.leadSturdy.withoutRule id }⟩
  exact (map_value_withoutRule _ id).trans
    ((congrArg _ h.rules).trans (map_value_withoutRule _ id).symm)

/-! ## Events -/

theorem Sturdy.insertEvent (h : s.Sturdy) (n : Audit.Note) : (s.insertEvent n).2.Sturdy :=
  h.step (insertEvent_follows s n) (insertEvent_sound h.sound n)

/-- What is written to the second store is awaited by the first, behind all that is awaited
already. -/
theorem Awaits.push (h : Awaits notes s t) {n : Audit.Note} (hn : refusal? n = none) :
    Overdrawn (notes.length + 1) s ∨ Awaits (notes ++ [n]) s (t.insertEvent n).2 := by
  obtain ⟨c, hc, hlead, -⟩ := h.counters
  have hnonneg := h.sturdy.nonneg hc
  by_cases hlimit : c + notes.length + 1 < Decimal.wordLimit
  · have hsturdy := h.leadSturdy.insertEvent n
    rw [insertEvent_within h.leadSturdy.receptive h.leadSturdy.calm hlead (by omega) hn hlimit]
      at hsturdy ⊢
    refine Or.inr { h with
      events := ?_
      issuedEvents := ?_
      counters := ⟨c, hc, congrArg Rank.whole ?_, ?_⟩
      leadSturdy := hsturdy
      writable := ?_ }
    · rw [eventsFrom_concat, ← List.append_assoc, h.events, h.marks, h.issuedEvents]
      simp [Tables.withEvent, nextEvent, eventsFrom]
    · simp [Tables.withEvent, ← h.issuedEvents, Nat.add_assoc]
    · rw [List.length_append, List.length_singleton]
      omega
    · rw [List.length_append, List.length_singleton]
      omega
    · intro m hm
      rcases List.mem_append.mp hm with hm | hm
      · exact h.writable m hm
      · rwa [List.mem_singleton.mp hm]
  · exact Or.inl ⟨c, hc, by omega⟩

/-- What is awaited first is written. -/
theorem Awaits.pop {n : Audit.Note} (h : Awaits (n :: notes) s t) :
    Awaits notes (s.insertEvent n).2 t := by
  obtain ⟨c, hc, hlead, hlimit⟩ := h.counters
  obtain ⟨hn, hnotes⟩ := List.forall_mem_cons.mp h.writable
  rw [List.length_cons] at hlead hlimit
  have hsturdy := h.sturdy.insertEvent n
  rw [insertEvent_within h.sturdy.receptive h.sturdy.calm hc (h.sturdy.nonneg hc) hn (by omega)]
    at hsturdy ⊢
  refine { h with
    events := ?_
    issuedEvents := ?_
    counters := ⟨c + 1, rfl, ?_, by omega⟩
    sturdy := hsturdy
    writable := hnotes }
  · rw [← h.events]
    simp [Tables.withEvent, nextEvent, eventsFrom]
  · rw [← h.issuedEvents, List.length_cons]
    simp only [Tables.withEvent]
    omega
  · rw [hlead]
    congr 1
    omega

/-- A note that is written takes a rank, so that the others are left as few as before. -/
theorem Overdrawn.pop {k : Nat} (h : Overdrawn (k + 1) s) (hs : s.Sturdy) {n : Audit.Note}
    (hn : refusal? n = none) : Overdrawn k (s.insertEvent n).2 := by
  obtain ⟨c, hc, hlimit⟩ := h
  obtain ⟨-, hcounter⟩ := insertEvent_calm hs.receptive hs.calm hc (hs.nonneg hc) hn
  exact ⟨c + 1, hcounter, by omega⟩

/-! ## Stores that hold the same -/

/-- Two stores hold the same rules and events in the same order. -/
structure Level (s t : Store) : Prop where
  rules : s.tables.rules.map Row.value = t.tables.rules.map Row.value
  events : s.tables.events.map Row.value = t.tables.events.map Row.value
  isOpen : s.isOpen = t.isOpen
  disturbances : s.disturbances = t.disturbances
  sound : s.Sound
  leadSound : t.Sound

/-- Stores are level when nothing is awaited any more. -/
theorem Awaits.level (h : Awaits [] s t) : Level s t := by
  have hevents := h.events
  rw [eventsFrom, List.append_nil] at hevents
  exact ⟨h.rules, hevents, (awaits_parallel []).isOpen h, h.disturbances, h.sturdy.sound,
    h.leadSturdy.sound⟩

theorem level_parallel : Parallel Level where
  isOpen := Level.isOpen
  disturbances := Level.disturbances
  count h _ hds := { h with
    disturbances := rfl
    sound := h.sound.unmoved (.count hds)
    leadSound := h.leadSound.unmoved (.count (h.disturbances ▸ hds)) }

theorem Level.listRules (h : Level s t) (action : Option RuleAction) :
    Together Level (s.listRules action) (t.listRules action) :=
  listRules_together level_parallel h fun _ _ hst =>
    hst.sound.listed hst.leadSound hst.rules action

theorem Level.listEvents (h : Level s t) (limit : Int) :
    Together Level (s.listEvents limit) (t.listEvents limit) :=
  listEvents_together level_parallel h fun _ _ hst =>
    hst.sound.newestEvents hst.leadSound hst.events

theorem Level.close (h : Level s t) : Together Level s.close t.close := by
  refine guarded_together level_parallel h (fun s t hst => ?_) _ _ _
  exact ⟨rfl, { hst with
    isOpen := rfl
    sound := ⟨hst.sound.numbered, hst.sound.keyed, hst.sound.failing⟩
    leadSound := ⟨hst.leadSound.numbered, hst.leadSound.keyed, hst.leadSound.failing⟩ }⟩

/-- Stores that are opened on the tables of level stores are level. -/
theorem Level.openOn (h : Level s t) (marks marks' : Marks) :
    Level (Store.openOn s.tables marks) (Store.openOn t.tables marks') :=
  ⟨h.rules, h.events, rfl, rfl, openOn_sound h.sound marks, openOn_sound h.leadSound marks'⟩

end MailRules.Store
