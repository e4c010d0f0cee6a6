import MailRules.Engine
import MailRules.Proofs.Registry.Confined

set_option autoImplicit false

/-!
# What operations of the engine do to rules, threads and tasks

Reading an instruction or a sheet, listing and asking for events leave rules, threads and tasks as
they are (`Reads`), and so does any operation that fails (`FailsCleanly`), whatever the tables are
like. An import that succeeds puts as many rows of rules behind the others as it says
(`importRules_gains`).
-/

namespace MailRules

open Store (Tables)

/-- So many rows of rules have come behind the others, and threads and tasks are as they were. -/
def Store.Tables.Gained (n : Nat) (t t' : Tables) : Prop :=
  ∃ rows, rows.length = n ∧ t'.contents = (t.rules ++ rows, t.threads, t.tasks)

/-- Rules, threads and tasks are as they were. -/
abbrev Store.Tables.Spared : Tables → Tables → Prop :=
  Tables.Shows Tables.contents

theorem Store.Tables.Gained.spared {n : Nat} {t t' t'' : Tables} (h : t.Gained n t')
    (h' : t'.Spared t'') : t.Gained n t'' := by
  obtain ⟨rows, hlength, hcontents⟩ := h
  exact ⟨rows, hlength, h'.trans hcontents⟩

theorem Store.Tables.Spared.then {n : Nat} {t t' t'' : Tables} (h : t.Spared t')
    (h' : t'.Gained n t'') : t.Gained n t'' := by
  obtain ⟨rows, hlength, hcontents⟩ := h'
  obtain ⟨hrules, hrest⟩ := Prod.mk.inj (show t'.contents = t.contents from h)
  obtain ⟨hthreads, htasks⟩ := Prod.mk.inj hrest
  exact ⟨rows, hlength, by rw [hcontents, hrules, hthreads, htasks]⟩

theorem Store.Tables.Spared.gained {t t' : Tables} (h : t.Spared t') : t.Gained 0 t' :=
  Tables.Gained.spared ⟨[], rfl, by rw [List.append_nil]; rfl⟩ h

namespace Registry

theorem spared_stepwise : Store.Stepwise Tables.Spared :=
  Store.shows_stepwise _

theorem Apart.spared {change : Registry → Registry} (h : Confined Apart change) :
    Confined Tables.Spared change :=
  h.mono fun _ _ hsame => hsame.map Tables.contents

theorem Untouched.spared {g g' : Registry} (h : Untouched g g') :
    g.store.tables.Spared g'.store.tables :=
  congrArg Tables.contents h.store.tables

/-- Reporting a batch only records events. -/
theorem reportBatch_spared {g g' : Registry} {as : List (Store.Answer Rule)} {duplicates : Nat}
    {actor reason : Option String} {r : Except Failure (List Rule)}
    (h : g.reportBatch as duplicates actor reason = (r, g')) :
    g.store.tables.Spared g'.store.tables := by
  rw [reportBatch_eq, foldl_recordCreated] at h
  have hrecorded := Apart.spared
    (confined_foldl apart_stepwise submit_apart ((leading as).1.map (createdNote reason actor)))
    (g.say (batchLine as.length duplicates))
  rwa [(Prod.mk.inj h).2] at hrecorded

/-- Each rule that is given back is a new row. -/
theorem createDistinct_gains {g g' : Registry} (hf : Store.Failing g.store.disturbances)
    {ds : List Draft} {duplicates : Nat} {actor reason : Option String} {rs : List Rule}
    (h : g.createDistinct ds duplicates actor reason = (.ok rs, g')) :
    g.store.tables.Gained rs.length g'.store.tables := by
  rw [createDistinct_eq] at h
  obtain ⟨as, u, hok, hreport⟩ := after_eq_ok h
  obtain ⟨t, hw, rfl⟩ := taking_ok (fun a t hok => ⟨_, (Store.insertRules_given hf hok).1⟩) hok
  obtain ⟨heq, rows, hlength, htables⟩ := Store.insertRules_given hf hw
  obtain rfl := Store.Answer.given.inj heq
  have hspared := reportBatch_spared hreport
  -- every answer of the store is a rule, so that the report gives all of them back
  rw [reportBatch_eq, leading_given] at hreport
  obtain rfl := Except.ok.inj (Prod.mk.inj hreport).1
  refine Tables.Gained.spared ⟨rows, ?_, ?_⟩ hspared
  · rw [hlength, Store.length_rulesFrom]
  · show t.tables.contents = _
    rw [htables]
    rfl

/-- Of a batch that is created, each rule that is given back is a new row. -/
theorem createBatch_gains {g g' : Registry} (hf : Store.Failing g.store.disturbances)
    {records : Json} {actor reason : Option String} {rs : List Rule}
    (h : g.createBatch records actor reason = (.ok rs, g')) :
    g.store.tables.Gained rs.length g'.store.tables := by
  unfold createBatch at h
  split at h
  · cases h
  · split at h
    · cases h
    · exact createDistinct_gains hf h

end Registry

namespace Sweep

open Registry (spared_stepwise)

/-- A sweep that is stopped has not begun to delete. -/
theorem runWith_error {order : Schedule} {g g' : Registry} {rules : List Rule} {f : Failure}
    (h : runWith order g rules = (.error f, g')) : g.store.tables.Spared g'.store.tables := by
  rw [runWith_eq] at h
  split at h
  · cases h
  · -- only loading the tasks can stop it: what goes wrong with one of them is tallied
    have hlist := Store.confined_of_unmoved spared_stepwise Store.listTasks_unmoved g.store
    rcases Registry.after_eq_error h with hfail | ⟨a, u, hok, hrest⟩
    · rwa [← (Prod.mk.inj hfail).2]
    · obtain rfl : _ = u := (Prod.mk.inj hok).2
      cases a with
      | given tasks => cases hrest
      | «instead» v =>
        simp only [settleInstead] at hrest
        split at hrest
        · rwa [← (Prod.mk.inj hrest).2]
        · cases hrest
        · rwa [← (Prod.mk.inj hrest).2]

theorem run_error {order : Schedule} {g g' : Registry} {rules : Option (List Rule)} {f : Failure}
    (h : run g rules order = (.error f, g')) : g.store.tables.Spared g'.store.tables := by
  cases rules with
  | some rs => exact runWith_error h
  | none =>
    have hlist := Store.confined_of_unmoved spared_stepwise
      (fun s => s.listRules_unmoved (some .suppress)) g.store
    rw [run_none] at h
    rcases Registry.after_eq_error h with hfail | ⟨rs, u, hok, hrest⟩
    · rwa [← (Prod.mk.inj hfail).2]
    · obtain rfl : _ = u := (Prod.mk.inj hok).2
      exact spared_stepwise.trans hlist (runWith_error hrest)

end Sweep

namespace Engine

variable {α : Type}

/-! ## The engine -/

/-- Whatever comes of an operation, it leaves the settings, and rules, threads and tasks. -/
def Reads (op : Engine → Outcome α) : Prop :=
  ∀ e, (op e).2.settings = e.settings ∧
    e.registry.store.tables.Spared (op e).2.registry.store.tables

/-- An operation leaves the settings, and rules, threads and tasks too if it fails. -/
def FailsCleanly (op : Engine → Outcome α) : Prop :=
  ∀ e, (op e).2.settings = e.settings ∧
    (Store.Failing e.registry.store.disturbances → ∀ f, (op e).1 = .error f →
      e.registry.store.tables.Spared (op e).2.registry.store.tables)

/-- What fails cleanly in the registry does so in the engine. -/
theorem withRegistry_failsCleanly {work : Registry → Registry.Outcome α}
    (h : ∀ g g' f, Store.Failing g.store.disturbances → work g = (.error f, g') →
      g.store.tables.Spared g'.store.tables) : FailsCleanly fun e => e.withRegistry work := by
  intro e
  refine ⟨rfl, fun hf f hfail => ?_⟩
  exact h e.registry _ f hf (Prod.ext hfail rfl)

theorem withRegistry_reads {work : Registry → Registry.Outcome α}
    (h : Registry.Confined Tables.Spared fun g => (work g).2) :
    Reads fun e => e.withRegistry work :=
  fun e => ⟨rfl, h e.registry⟩

theorem after_reads (e : Engine) (actor : Option String) (effects : List Instruction.Effect)
    (asked : Extraction.Asked) (assistant : Option Extraction.Assistant) :
    (e.after actor effects asked assistant).settings = e.settings ∧
      e.registry.store.tables.Spared
        (e.after actor effects asked assistant).registry.store.tables :=
  ⟨rfl, Registry.Apart.spared (Registry.carryOut_apart actor effects) e.registry⟩

theorem parse_reads (text : Option String) (action : Json) (actor : Option String) :
    Reads fun e => e.parse text action actor := by
  intro e
  simp only [parse]
  split
  · exact ⟨rfl, rfl⟩
  · exact after_reads e actor _ _ _

theorem analyze_reads (text : String) (action : Json) : Reads fun e => e.analyze text action := by
  intro e
  simp only [analyze]
  split
  · exact ⟨rfl, rfl⟩
  · split
    · exact ⟨rfl, rfl⟩
    · exact after_reads e none _ _ _

theorem listRules_reads : Reads listRules :=
  withRegistry_reads (Registry.list_confined Registry.spared_stepwise none)

theorem close_reads : Reads close :=
  withRegistry_reads (Registry.Apart.spared Registry.close_apart)

theorem events_reads (limit : Option Int) : Reads fun e => e.events limit :=
  fun e => ⟨rfl, Registry.Apart.spared (Registry.events_apart _) e.registry⟩

/-- Analyzing a sheet disturbs nothing. -/
theorem analyze_failing {e : Engine} (hf : Store.Failing e.registry.store.disturbances)
    (text : String) (action : Json) :
    Store.Failing (e.analyze text action).2.registry.store.disturbances := by
  unfold analyze
  split
  · exact hf
  · split
    · exact hf
    · exact hf.recounted ((Registry.carryOut_quiet none _).follows e.registry).recounted

theorem createRule_failsCleanly (record : Json) (actor : Option String) :
    FailsCleanly fun e => e.createRule record actor :=
  withRegistry_failsCleanly fun _ _ _ hf h => (Registry.create_error hf h).spared

theorem deleteRule_failsCleanly (id : String) (actor : Option String) :
    FailsCleanly fun e => e.deleteRule id actor :=
  withRegistry_failsCleanly fun _ _ _ hf h => (Registry.delete_error hf h).spared

theorem sweep_failsCleanly : FailsCleanly sweep :=
  withRegistry_failsCleanly fun _ _ _ _ h => Sweep.run_error h

theorem importRules_failsCleanly (records : Json) (actor : Option String) :
    FailsCleanly fun e => e.importRules records actor := by
  refine withRegistry_failsCleanly fun g g' f hf h => ?_
  simp only at h
  split at h
  · cases h
  · next hb =>
    cases h
    exact (Registry.createBatch_error hf hb).spared

/-- An import that succeeds says how many rows of rules have come in. -/
theorem importRules_gains {e e' : Engine} (hf : Store.Failing e.registry.store.disturbances)
    {records : Json} {actor : Option String} {n : Nat}
    (h : e.importRules records actor = (.ok n, e')) :
    e.registry.store.tables.Gained n e'.registry.store.tables := by
  simp only [importRules, withRegistry] at h
  rcases hb : e.registry.createBatch records _ _ with ⟨f | rs, u⟩
  · rw [hb] at h
    cases h
  · rw [hb] at h
    cases h
    exact Registry.createBatch_gains hf hb

end Engine

end MailRules
