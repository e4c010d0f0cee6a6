import Mathlib.Data.List.Nodup
import MailRules.Proofs.Registry.Confined
import MailRules.Proofs.Registry.Session

set_option autoImplicit false

/-!
# Sweeps one after the other

Where nothing goes wrong a sweep leaves the tables without the tasks that its rules condemn
(`Tables.without`), in whatever order its workers take their steps. Which tasks those are does not
depend on other tasks, and a list of rules condemns what one of its parts condemns
(`condemns_append`). So sweeps with two lists of rules come to one with both lists, in either order;
a sweep that is run again finds nothing to delete; and it makes up for an earlier one in which
deletions have failed (`sweeps_compose`).
-/

namespace MailRules

open Store (Tables)

/-- The tables without the tasks that rules condemn. -/
def Store.Tables.without (t : Tables) (rules : List Rule) : Tables :=
  { t with tasks := t.tasks.filter fun u => !Sweep.condemns rules (t.view u) }

/-- How many tasks rules condemn. -/
def Store.Tables.condemned (t : Tables) (rules : List Rule) : Nat :=
  t.tasks.countP fun u => Sweep.condemns rules (t.view u)

namespace Sweep

/-! ## Rules of two lists -/

/-- Rules condemn a task if those of a part do: no rule has a say in what another one condemns. -/
theorem condemns_append (rules more : List Rule) (v : Store.TaskView) :
    condemns (rules ++ more) v = (condemns rules v || condemns more v) := by
  unfold condemns
  rcases subjectOf? v with _ | s
  · rfl
  · exact suppressed_append rules more s

theorem condemns_comm (rules more : List Rule) :
    condemns (rules ++ more) = condemns (more ++ rules) := by
  funext v
  rw [condemns_append, condemns_append, Bool.or_comm]

theorem condemns_of_none {rules : List Rule} (h : ∀ r ∈ rules, r.draft.action ≠ .suppress) :
    condemns rules = fun _ => false := by
  have hnone : suppressed rules = fun _ => false := by
    funext s
    rw [← Bool.not_eq_true, suppressed, firstApplying_isSome_iff]
    rintro ⟨r, hr, hfires⟩
    exact h r hr hfires.action
  funext v
  simp [condemns, hnone]

theorem without_without (t : Tables) (rules more : List Rule) :
    (t.without rules).without more = t.without (rules ++ more) := by
  simp only [Tables.without, List.filter_filter]
  congr 2
  funext u
  rw [condemns_append, Bool.not_or, Bool.and_comm]
  rfl

/-- What the first list leaves is counted with the second. -/
theorem condemned_without (t : Tables) (rules more : List Rule) :
    t.condemned rules + (t.without rules).condemned more = t.condemned (rules ++ more) := by
  let p (u : Store.Task) : Bool := condemns rules (t.view u)
  let q (u : Store.Task) : Bool := condemns more (t.view u)
  have hboth : t.condemned (rules ++ more) = t.tasks.countP fun u => p u || q u := by
    simp only [Tables.condemned, condemns_append, p, q]
  rw [hboth, List.countP_eq_countP_filter_add _ _ p]
  change t.tasks.countP p + (t.tasks.filter fun u => !p u).countP q = _
  congr 1
  · rw [List.countP_filter]
    exact List.countP_congr fun u _ => by cases p u <;> simp
  · exact List.countP_congr fun u hu => by
      have hp : p u = false := by simpa using List.of_mem_filter hu
      rw [hp, Bool.false_or]

/-! ## Sweeps in which nothing goes wrong -/

/-- In whatever order its workers take their steps, a sweep with rules succeeds, and then its tally
and the registry that it leaves are as said. -/
def Achieves (g : Registry) (rules : List Rule) (post : Tally → Registry → Prop) : Prop :=
  ∀ order, Fair order → ∃ n h, run g (some rules) order = (.ok n, h) ∧ post n h

theorem Achieves.mono {g : Registry} {rules : List Rule} {post post' : Tally → Registry → Prop}
    (h : Achieves g rules post) (hpost : ∀ n k, post n k → post' n k) :
    Achieves g rules post' := by
  intro order horder
  obtain ⟨n, k, hrun, hk⟩ := h order horder
  exact ⟨n, k, hrun, hpost n k hk⟩

/-- An open store without a transaction that nothing disturbs, whose tasks are told apart by their
identifiers. -/
structure Faultless (s : Store) : Prop where
  isOpen : s.isOpen = true
  idle : s.isBusy = false
  undisturbed : s.disturbances = []
  keyed : Store.Keyed s.tables.tasks

variable {s t : Store} {g : Registry} {rules more : List Rule}

theorem Faultless.calm (h : Faultless s) (op : Store.Operation) : Store.Calm op s.disturbances := by
  rw [h.undisturbed]
  exact Store.calm_nil op

theorem Faultless.follows (h : Faultless s) (hst : s.Follows t)
    (hkeyed : Store.Keyed t.tables.tasks) : Faultless t := by
  refine ⟨hst.isOpen.trans h.isOpen, hst.isBusy.trans h.idle, ?_, hkeyed⟩
  have hplans := hst.recounted
  rw [h.undisturbed] at hplans
  exact List.map_eq_nil_iff.mp hplans

theorem Faultless.loadable (h : Faultless s) : Loadable s where
  isOpen := h.isOpen
  failing := by
    rw [h.undisturbed]
    exact Store.failing_nil
  calm op _ := h.calm op

/-- No task is kept from being deleted. -/
theorem Faultless.refuses (h : Faultless s) : Refuses s fun _ => false := by
  intro t hst id
  have hcalm (op : Store.Operation) := (h.calm op).recounted hst.recounted
  simp only [Bool.false_eq_true, iff_false, not_exists]
  obtain ⟨b, u, herased⟩ := Store.erased_of_calm (hcalm .transaction) (hcalm .statement)
    (hst.isOpen.trans h.isOpen) (hst.isBusy.trans h.idle) id
  unfold Store.deleteTask Store.answered
  rw [Store.guarded_of_calm (hcalm .deleteTask), herased]
  exact fun f hfail => nomatch hfail

/-- What a sweep has done: exactly the tasks that the rules condemn are gone, and counted. -/
structure Cleared (g : Registry) (rules : List Rule) (n : Tally) (h : Registry) : Prop where
  tables : h.store.tables = g.store.tables.without rules
  deleted : n.deleted = g.store.tables.condemned rules
  faultless : Faultless h.store

theorem without_of_none (t : Tables) (h : ∀ r ∈ rules, r.draft.action ≠ .suppress) :
    t.without rules = t ∧ t.condemned rules = 0 := by
  simp [Tables.without, Tables.condemned, condemns_of_none h]

/-- Where nothing goes wrong, a sweep clears the tasks that its rules condemn. -/
theorem achieves_cleared (h : Faultless g.store) (rules : List Rule) :
    Achieves g rules (Cleared g rules) := by
  intro order horder
  obtain ⟨n, k, hrun, hactive, hnone⟩ :=
    run_swept h.loadable h.refuses h.keyed (some rules) order (horder _)
  have hfollows := (sweep_steady (some rules) order).follows g
  rw [hrun] at hfollows
  have hcleared : k.store.tables = g.store.tables.without rules ∧
      n.deleted = g.store.tables.condemned rules := by
    by_cases hsuppress : ∃ r ∈ rules, r.draft.action = .suppress
    · obtain ⟨htables, hdeleted, -⟩ := hactive hsuppress
      simpa [Tables.without, Tables.condemned, applied] using And.intro htables hdeleted
    · have hidle : ∀ r ∈ rules, r.draft.action ≠ .suppress :=
        fun r hr heq => hsuppress ⟨r, hr, heq⟩
      obtain ⟨rfl, htables⟩ := hnone hidle
      obtain ⟨hwithout, hcondemned⟩ := without_of_none g.store.tables hidle
      exact ⟨htables.trans hwithout.symm, hcondemned.symm⟩
  obtain ⟨htables, hdeleted⟩ := hcleared
  refine ⟨n, k, hrun, htables, hdeleted, h.follows hfollows ?_⟩
  rw [htables]
  exact h.keyed.filter _

/-- A sweep and then another clear the tasks that the rules of either condemn. -/
theorem achieves_both (h : Faultless g.store) (rules more : List Rule) :
    Achieves g rules fun m u => Achieves u more fun n k =>
      k.store.tables = g.store.tables.without (rules ++ more) ∧
        m.deleted + n.deleted = g.store.tables.condemned (rules ++ more) := by
  refine (achieves_cleared h rules).mono fun m u hu => ?_
  refine (achieves_cleared hu.faultless more).mono fun n k hk => ⟨?_, ?_⟩
  · rw [hk.tables, hu.tables, without_without]
  · rw [hu.deleted, hk.deleted, hu.tables, condemned_without]

/-! ## Sweeps in which deletions fail -/

/-- What a task with an identifier is condemned by is seen on the task itself. -/
theorem condemned_view {t : Tables} (hkeyed : Store.Keyed t.tasks) {u : Store.Task}
    (hu : u ∈ t.tasks) (h : Condemned rules (t.tasks.map t.view) u.id) :
    condemns rules (t.view u) = true := by
  obtain ⟨v, hv, hid, hcondemns⟩ := h
  obtain ⟨w, hw, rfl⟩ := List.mem_map.mp hv
  obtain rfl : w = u := List.inj_on_of_nodup_map hkeyed hw hu hid
  exact hcondemns

/-- A sweep that can load its tasks. -/
theorem run_loaded (hload : Loadable g.store) (rules : List Rule) (order : Schedule) :
    run g (some rules) order =
      if (rules.filter (·.draft.action = .suppress)).isEmpty then
        (.ok {}, g.say (note .info "No suppression rules found. Nothing to clean."))
      else settle order (rules.filter (·.draft.action = .suppress)) g
        (g.store.tables.tasks.map g.store.tables.view) := by
  have htasks : (g.withStore Store.listTasks) = _ := hload.listTasks
  change runWith order g rules = _
  rw [runWith_eq, htasks]
  rfl

/-- Whatever disturbs it later, a sweep that can load its tasks ends, and deletes at most tasks that
its rules condemn. -/
theorem run_purges_loaded (hload : Loadable g.store) (hkeyed : Store.Keyed g.store.tables.tasks)
    (rules : List Rule) (order : Schedule) :
    ∃ n h, run g (some rules) order = (.ok n, h) ∧
      ∃ keep : Store.Task → Bool,
        h.store.tables = { g.store.tables with tasks := g.store.tables.tasks.filter keep } ∧
        ∀ u ∈ g.store.tables.tasks, keep u = false →
          condemns rules (g.store.tables.view u) = true := by
  rw [run_loaded hload]
  split
  · exact ⟨_, _, rfl, fun _ => true, by simp [Registry.say], by simp⟩
  · obtain ⟨keep, htables, hgone⟩ := settle_purges order
      (rules.filter (·.draft.action = .suppress)) g (g.store.tables.tasks.map g.store.tables.view)
    refine ⟨_, _, rfl, keep, htables, fun u hu hkeep => ?_⟩
    rw [← condemns_filter]
    exact condemned_view hkeyed hu (hgone u hu hkeep)

/-- Tasks that have been deleted because they are condemned make no difference to which others
are. -/
theorem without_purged {t t' : Tables} {keep : Store.Task → Bool}
    (htables : t' = { t with tasks := t.tasks.filter keep })
    (hgone : ∀ u ∈ t.tasks, keep u = false → condemns rules (t.view u) = true) :
    t'.without rules = t.without rules := by
  subst htables
  simp only [Tables.without, List.filter_filter]
  congr 1
  refine List.filter_congr fun u hu => ?_
  change (!condemns rules (t.view u) && keep u) = !condemns rules (t.view u)
  cases hkeep : keep u with
  | true => rw [Bool.and_true]
  | false => rw [hgone u hu hkeep, Bool.not_true, Bool.false_and]

/-- A sweep makes up for an earlier one with the same rules, whatever went wrong in that once its
tasks were loaded. -/
theorem achieves_recovered (h : Faultless g.store) (rules : List Rule)
    {ds : List Store.Disturbance} (hload : Loadable (g.withDisturbances ds).store) :
    Achieves (g.withDisturbances ds) rules fun _ u =>
      Achieves (u.withDisturbances []) rules fun _ k =>
        k.store.tables = g.store.tables.without rules := by
  intro order _
  obtain ⟨n, u, hrun, keep, htables, hgone⟩ := run_purges_loaded hload h.keyed rules order
  have hfollows := (sweep_steady (some rules) order).follows (g.withDisturbances ds)
  rw [hrun] at hfollows
  have hkeyed : Store.Keyed u.store.tables.tasks := by
    rw [htables]
    exact h.keyed.filter keep
  have hfaultless : Faultless (u.withDisturbances []).store :=
    ⟨hfollows.isOpen.trans h.isOpen, hfollows.isBusy.trans h.idle, rfl, hkeyed⟩
  refine ⟨n, u, hrun, (achieves_cleared hfaultless rules).mono fun _ k hk => ?_⟩
  rw [hk.tables]
  exact without_purged htables hgone

/-! ## All of it -/

/-- How sweeps with two lists of rules compose, and how one can be run again. -/
structure Composes (g : Registry) (rules more : List Rule) : Prop where
  /-- Two sweeps come to one with both lists. -/
  joined : Achieves g rules fun m u => Achieves u more fun n k =>
    Achieves g (rules ++ more) fun b v =>
      k.store.tables = v.store.tables ∧ m.deleted + n.deleted = b.deleted
  /-- Two sweeps come to the same in the opposite order. -/
  swapped : Achieves g rules fun m u => Achieves u more fun n k =>
    Achieves g more fun m' u' => Achieves u' rules fun n' k' =>
      k.store.tables = k'.store.tables ∧ m.deleted + n.deleted = m'.deleted + n'.deleted
  /-- A sweep that is run again deletes nothing. -/
  repeated : Achieves g rules fun _ u => Achieves u rules fun n k =>
    n.deleted = 0 ∧ k.store.tables = u.store.tables
  /-- After a sweep in which deletions have failed, one without a fault leaves what it would have
  left in the first place. -/
  recovered : ∀ ds, Loadable (g.withDisturbances ds).store →
    Achieves (g.withDisturbances ds) rules fun _ u =>
      Achieves (u.withDisturbances []) rules fun _ k =>
        Achieves g rules fun _ v => k.store.tables = v.store.tables

theorem without_swap (t : Tables) (rules more : List Rule) :
    t.without (rules ++ more) = t.without (more ++ rules) ∧
      t.condemned (rules ++ more) = t.condemned (more ++ rules) := by
  simp only [Tables.without, Tables.condemned, condemns_comm rules more, and_self]

theorem without_self (t : Tables) (rules : List Rule) :
    t.without (rules ++ rules) = t.without rules ∧
      t.condemned (rules ++ rules) = t.condemned rules := by
  simp only [Tables.without, Tables.condemned, condemns_append, Bool.or_self, and_self]

/-- Sweeps of any tables compose and can be run again. -/
theorem sweeps_compose (h : Faultless g.store) (rules more : List Rule) :
    Composes g rules more where
  joined := by
    refine (achieves_both h rules more).mono fun m u hu => hu.mono fun n k hk => ?_
    obtain ⟨htables, hdeleted⟩ := hk
    refine (achieves_cleared h (rules ++ more)).mono fun b v hv => ⟨?_, ?_⟩
    · rw [htables, hv.tables]
    · rw [hdeleted, hv.deleted]
  swapped := by
    refine (achieves_both h rules more).mono fun m u hu => hu.mono fun n k hk => ?_
    obtain ⟨htables, hdeleted⟩ := hk
    obtain ⟨hsame, hcount⟩ := without_swap g.store.tables rules more
    refine (achieves_both h more rules).mono fun m' u' hu' => hu'.mono fun n' k' hk' => ⟨?_, ?_⟩
    · rw [htables, hk'.1, hsame]
    · rw [hdeleted, hk'.2, hcount]
  repeated := by
    refine (achieves_cleared h rules).mono fun m u hu => ?_
    refine (achieves_cleared hu.faultless rules).mono fun n k hk => ?_
    obtain ⟨hsame, hcount⟩ := without_self g.store.tables rules
    have htotal := condemned_without g.store.tables rules rules
    rw [← hu.tables, ← hk.deleted, hcount] at htotal
    refine ⟨by omega, ?_⟩
    rw [hk.tables, hu.tables, without_without, hsame]
  recovered ds hload := by
    refine (achieves_recovered h rules hload).mono fun _ u hu => hu.mono fun _ k hk => ?_
    refine (achieves_cleared h rules).mono fun _ v hv => ?_
    rw [hk, hv.tables]

/-- A registry on tables with tasks that a rule condemns, and others. -/
def calmCrowd : Registry where
  store := crowded

/-- The rules on one of the senders, and on the other. -/
def annRules : List Rule :=
  [⟨"a", ⟨.domain, "x.com", .suppress, none, none, none⟩, "2024-01-01"⟩]

def bobRules : List Rule :=
  [⟨"v", ⟨.domain, "x.com", .vip, none, none, none⟩, "2024-01-01"⟩,
    ⟨"b", ⟨.domain, "y.com", .suppress, none, none, none⟩, "2024-01-01"⟩]

theorem calmCrowd_faultless : Faultless calmCrowd.store :=
  ⟨rfl, rfl, rfl, by unfold Store.Keyed; decide⟩

/-- Every second deletion fails. -/
def everySecond : List Store.Disturbance :=
  [⟨.deleteTask, fun call _ => call % 2 = 0, .failure ⟨.database, "locked"⟩, 0⟩]

theorem everySecond_loadable : Loadable (calmCrowd.withDisturbances everySecond).store := by
  refine ⟨rfl, by simp [everySecond, Registry.withDisturbances, Store.Failing], fun op hop => ?_⟩
  revert hop
  cases op <;> simp [everySecond, Registry.withDisturbances, Store.Calm]

/-- The tasks of one sender and then of the other are deleted, also where every second deletion
fails at first. -/
theorem sweeps_compose_crowd :
    Fair inTurn ∧ calmCrowd.store.tables.condemned annRules = 2 ∧
      calmCrowd.store.tables.condemned (annRules ++ bobRules) = 3 ∧
      Composes calmCrowd annRules bobRules ∧
      Loadable (calmCrowd.withDisturbances everySecond).store :=
  ⟨inTurn_fair, by decide +kernel, by decide +kernel,
    sweeps_compose calmCrowd_faultless annRules bobRules, everySecond_loadable⟩

end Sweep

end MailRules
