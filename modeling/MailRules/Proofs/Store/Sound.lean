import MailRules.Proofs.Store.Events
import MailRules.Proofs.Store.Rules
import MailRules.Proofs.Store.Threads

set_option autoImplicit false

/-!
# Sound stores

A store is `Sound` when its ranks have been given out by counting, no two tasks have the same
identifier, and nothing but failures disturbs it. Every operation leaves a sound store sound, and so
does opening a store on its tables.

Ranks are kept in 64 bits. A store that has given out one beyond that `IsSpent`: it can keep no new
row until it is opened again.
-/

namespace MailRules.Store

variable {α : Type}

/-- Rules and events have ranks up to `last`, in the order in which they lie. -/
structure Tables.NumberedTo (t : Tables) (last : Int) : Prop where
  nonneg : 0 ≤ last
  rules : Numbered last t.rules
  events : Numbered last t.events

/-- No two tasks have the same identifier. -/
def Keyed (tasks : List Task) : Prop :=
  (tasks.map Task.id).Nodup

/-- Ranks are given out by counting, tasks are told apart by their identifiers, and only failures
disturb the store. -/
structure Sound (s : Store) : Prop where
  numbered : ∃ c, s.counter = .whole c ∧ s.tables.NumberedTo c
  keyed : Keyed s.tables.tasks
  failing : Failing s.disturbances

/-- A rank has been given out that is too great to be kept. -/
def IsSpent (s : Store) : Prop :=
  ∃ n, s.counter = .whole n ∧ Decimal.wordLimit ≤ n

theorem Tables.NumberedTo.mono {t : Tables} {last later : Int} (h : t.NumberedTo last)
    (hle : last ≤ later) : t.NumberedTo later :=
  ⟨Int.le_trans h.nonneg hle, h.rules.mono hle, h.events.mono hle⟩

instance (s : Store) : Decidable s.IsSpent :=
  match hc : s.counter with
  | .whole n =>
    if h : Decimal.wordLimit ≤ n then isTrue ⟨n, hc, h⟩
    else isFalse fun ⟨_, hm, hle⟩ => h (Rank.whole.inj (hc.symm.trans hm) ▸ hle)
  | .real _ => isFalse fun ⟨_, hm, _⟩ => nomatch hc.symm.trans hm
  | .text _ => isFalse fun ⟨_, hm, _⟩ => nomatch hc.symm.trans hm

/-- A rank that is too great stays given out. -/
theorem IsSpent.follows {s t : Store} (h : s.IsSpent) (hst : Follows s t) : t.IsSpent := by
  obtain ⟨m, hm, hlimit⟩ := h
  obtain ⟨n, hn, hle⟩ := hst.climbs m hm
  exact ⟨n, hn, Int.le_trans hlimit hle⟩

theorem Sound.unmoved {s t : Store} (h : Sound s) (hst : Unmoved s t) : Sound t := by
  obtain ⟨c, hc, hnumbered⟩ := h.numbered
  obtain ⟨d, hd, hle⟩ := hst.climbs c hc
  refine ⟨⟨d, hd, ?_⟩, hst.tables ▸ h.keyed, h.failing.recounted hst.recounted⟩
  rw [hst.tables]
  exact hnumbered.mono hle

/-- A store with the same rules and events as a sound one. -/
theorem Sound.sameRows {s t : Store} (h : Sound s) (hst : Follows s t)
    (hrules : t.tables.rules = s.tables.rules) (hevents : t.tables.events = s.tables.events)
    (hkeyed : Keyed t.tables.tasks) : Sound t := by
  obtain ⟨c, hc, hnumbered⟩ := h.numbered
  obtain ⟨d, hd, hle⟩ := hst.climbs c hc
  have hlater := hnumbered.mono hle
  exact ⟨⟨d, hd, hlater.nonneg, hrules ▸ hlater.rules, hevents ▸ hlater.events⟩, hkeyed,
    h.failing.recounted hst.recounted⟩

/-- Tasks stay told apart when some are deleted. -/
theorem Keyed.filter {tasks : List Task} (h : Keyed tasks) (keep : Task → Bool) :
    Keyed (tasks.filter keep) :=
  List.Nodup.sublist (List.filter_sublist.map Task.id) h

/-- Tasks stay told apart when one with a new identifier is added. -/
theorem Keyed.push {tasks : List Task} (h : Keyed tasks) {task : Task}
    (hnew : ∀ u ∈ tasks, u.id ≠ task.id) : Keyed (tasks ++ [task]) := by
  unfold Keyed
  rw [List.map_append, List.nodup_append]
  refine ⟨h, by simp, ?_⟩
  simpa using hnew

/-- The same rules are listed in the same order. -/
theorem Sound.listed {s t : Store} (hs : Sound s) (ht : Sound t)
    (h : s.tables.rules.map Row.value = t.tables.rules.map Row.value)
    (action : Option RuleAction) : s.tables.listed action = t.tables.listed action := by
  obtain ⟨c, -, hnumbered⟩ := hs.numbered
  obtain ⟨d, -, hnumbered'⟩ := ht.numbered
  unfold Tables.listed
  rw [newestFirst_of_values hnumbered.rules hnumbered'.rules h]

/-- The same events are listed in the same order. -/
theorem Sound.newestEvents {s t : Store} (hs : Sound s) (ht : Sound t)
    (h : s.tables.events.map Row.value = t.tables.events.map Row.value) :
    newestFirst s.tables.events = newestFirst t.tables.events := by
  obtain ⟨c, -, hnumbered⟩ := hs.numbered
  obtain ⟨d, -, hnumbered'⟩ := ht.numbered
  exact newestFirst_of_values hnumbered.events hnumbered'.events h

/-! ## Operations -/

theorem Tables.NumberedTo.withRules {t : Tables} {c : Int} (h : t.NumberedTo c) (rs : List Rule) :
    (t.withRules c rs).NumberedTo (c + rs.length) :=
  ⟨by have := h.nonneg; omega, h.rules.append_rowsFrom h.nonneg rs, h.events.mono (by omega)⟩

theorem insertRule_sound {s : Store} (h : Sound s) (d : Draft) : Sound (s.insertRule d).2 := by
  have hfollows := insertRule_follows s d
  rcases hi : s.insertRule d with ⟨f | a, t⟩
  · exact h.unmoved (insertRule_error hi)
  · rw [hi] at hfollows
    obtain ⟨c, hc, hnumbered⟩ := h.numbered
    obtain ⟨-, htables, hcounter⟩ := insertRule_ok h.failing hc hi
    refine ⟨⟨c + 1, hcounter, ?_⟩, htables ▸ h.keyed, h.failing.recounted hfollows.recounted⟩
    rw [htables]
    exact hnumbered.withRules [s.nextRule d]

theorem insertRules_sound {s : Store} (h : Sound s) (ds : List Draft) :
    Sound (s.insertRules ds).2 := by
  have hfollows := insertRules_follows s ds
  rcases hi : s.insertRules ds with ⟨f | a, t⟩
  · exact h.unmoved (insertRules_error hi)
  · rw [hi] at hfollows
    obtain ⟨c, hc, hnumbered⟩ := h.numbered
    obtain ⟨-, htables, hcounter⟩ := insertRules_ok h.failing hc hi
    refine ⟨⟨c + ds.length, hcounter, ?_⟩, htables ▸ h.keyed,
      h.failing.recounted hfollows.recounted⟩
    rw [htables]
    have hwith := hnumbered.withRules (rulesFrom s.marks s.tables.issued.rules ds)
    rwa [length_rulesFrom] at hwith

theorem deleteRule_sound {s : Store} (h : Sound s) (id : String) : Sound (s.deleteRule id).2 := by
  have hfollows := deleteRule_follows s id
  rcases hd : s.deleteRule id with ⟨f | a, t⟩
  · exact h.unmoved (deleteRule_error hd)
  · rw [hd] at hfollows
    obtain ⟨c, hc, hnumbered⟩ := h.numbered
    obtain ⟨-, htables, hcounter⟩ := deleteRule_ok h.failing hd
    refine ⟨⟨c, hcounter.trans hc, ?_⟩, htables ▸ h.keyed,
      h.failing.recounted hfollows.recounted⟩
    rw [htables]
    exact ⟨hnumbered.nonneg, hnumbered.rules.sublist List.filter_sublist, hnumbered.events⟩

theorem insertEvent_sound {s : Store} (h : Sound s) (n : Audit.Note) :
    Sound (s.insertEvent n).2 := by
  have hfollows := insertEvent_follows s n
  rcases hi : s.insertEvent n with ⟨f | a, t⟩
  · exact h.unmoved (insertEvent_error hi)
  · rw [hi] at hfollows
    obtain ⟨c, hc, hnumbered⟩ := h.numbered
    obtain ⟨htables, hcounter⟩ := insertEvent_ok h.failing hc hi
    refine ⟨⟨c + 1, hcounter, ?_⟩, htables ▸ h.keyed, h.failing.recounted hfollows.recounted⟩
    rw [htables]
    exact ⟨by have := hnumbered.nonneg; omega, hnumbered.rules.mono (by omega),
      hnumbered.events.push hnumbered.nonneg _⟩

/-- Whatever becomes of an event, the rules stay as they are. -/
theorem insertEvent_rules {s : Store} (h : Sound s) (n : Audit.Note) :
    (s.insertEvent n).2.tables.rules = s.tables.rules ∧
      (s.insertEvent n).2.tables.issued.rules = s.tables.issued.rules := by
  obtain ⟨c, hc, -⟩ := h.numbered
  rcases hi : s.insertEvent n with ⟨f | a, t⟩
  · rw [(insertEvent_error hi).tables]
    exact ⟨rfl, rfl⟩
  · rw [(insertEvent_ok h.failing hc hi).1]
    exact ⟨rfl, rfl⟩

/-- Events are only added. -/
theorem insertEvent_events {s : Store} (h : Sound s) (n : Audit.Note) :
    s.tables.events <+: (s.insertEvent n).2.tables.events := by
  obtain ⟨c, hc, -⟩ := h.numbered
  rcases hi : s.insertEvent n with ⟨f | a, t⟩
  · exact (insertEvent_error hi).tables ▸ List.prefix_refl _
  · exact (insertEvent_ok h.failing hc hi).1 ▸ List.prefix_append _ _

theorem insertThread_sound {s : Store} (h : Sound s) (participants subject id : Option String) :
    Sound (s.insertThread participants subject id).2 := by
  have hfollows := insertThread_follows s participants subject id
  rcases hi : s.insertThread participants subject id with ⟨f | a, t⟩
  · exact h.unmoved (insertThread_error hi)
  · rw [hi] at hfollows
    obtain ⟨new, issued, -, -, htables⟩ := insertThread_ok h.failing hi
    exact h.sameRows hfollows (by rw [htables]) (by rw [htables]) (htables ▸ h.keyed)

theorem insertTask_sound {s : Store} (h : Sound s) (title thread id : Option String) :
    Sound (s.insertTask title thread id).2 := by
  have hfollows := insertTask_follows s title thread id
  rcases hi : s.insertTask title thread id with ⟨f | a, t⟩
  · exact h.unmoved (insertTask_error hi)
  · rw [hi] at hfollows
    obtain ⟨new, text, issued, -, -, hnew, -, htables⟩ := insertTask_ok h.failing hi
    exact h.sameRows hfollows (by rw [htables]) (by rw [htables])
      (htables ▸ h.keyed.push hnew)

theorem deleteTask_sound {s : Store} (h : Sound s) (id : String) : Sound (s.deleteTask id).2 := by
  have hfollows := deleteTask_follows s id
  rcases hd : s.deleteTask id with ⟨f | a, t⟩
  · exact h.unmoved (deleteTask_error hd)
  · rw [hd] at hfollows
    obtain ⟨-, htables⟩ := deleteTask_ok h.failing hd
    exact h.sameRows hfollows (by rw [htables]) (by rw [htables])
      (htables ▸ h.keyed.filter _)

/-- A store that is opened on the tables of a sound one. -/
theorem openOn_sound {s : Store} (h : Sound s) (marks : Marks) : Sound (openOn s.tables marks) := by
  obtain ⟨c, -, hnumbered⟩ := h.numbered
  obtain ⟨m, hm, hnonneg, hrules, hevents, -⟩ :=
    lastRank_of_numbered hnumbered.rules hnumbered.events
  exact ⟨⟨m, hm, hnonneg, hrules, hevents⟩, h.keyed, failing_nil⟩

end MailRules.Store
