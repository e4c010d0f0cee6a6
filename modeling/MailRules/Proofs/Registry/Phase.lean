import MailRules.Proofs.Registry.Confined

set_option autoImplicit false

/-!
# A sweep step by step

What a sweep does between two moments at which something else may get at the store: it loads the
rules, it loads the tasks, one of its workers looks at its task or deletes it, and it counts what
became of the tasks once all workers are done (`Phase.move`).

A sweep whose steps are taken one after the other, without anything in between, is the sweep that
runs as a whole (`moves_alone`).
-/

namespace MailRules

namespace Sweep

open Store (TaskView)

/-- How far a sweep has come. -/
inductive Phase
  /-- It has been given rules or is to load those stored. -/
  | start (rules : Option (List Rule))
  /-- It has its rules. -/
  | ruled (rules : List Rule)
  /-- It has loaded tasks, and its workers have these jobs. -/
  | busy (rules : List Rule) (views : List TaskView) (jobs : List Job)
  /-- It has counted what became of the tasks. -/
  | ended (rules : List Rule) (views : List TaskView) (jobs : List Job)
  /-- It has come to nothing. -/
  | failed (f : Failure)

/-- What comes next in a sweep. -/
inductive Move
  /-- It loads its rules or tasks, or ends. -/
  | proceed
  /-- The worker of the task at a place takes its next step. -/
  | serve (place : Nat)

/-- The rules that suppress. -/
def active (rules : List Rule) : List Rule :=
  rules.filter (·.draft.action = .suppress)

namespace Phase

/-- The rules that a sweep applies. -/
def rules : Phase → List Rule
  | ruled rs | busy rs _ _ | ended rs _ _ => rs
  | _ => []

/-- The tasks that a sweep has loaded. -/
def views : Phase → List TaskView
  | busy _ vs _ | ended _ vs _ => vs
  | _ => []

/-- The jobs of the workers. -/
def jobs : Phase → List Job
  | busy _ _ js | ended _ _ js => js
  | _ => []

/-- What has been counted so far. -/
def tally (p : Phase) : Tally :=
  Tally.ofFates (p.jobs.filterMap Job.fate?)

/-- What has come of a sweep, if it has ended. -/
def outcome? : Phase → Option (Except Failure Tally)
  | ended rs vs js => some (.ok (tally (ended rs vs js)))
  | failed f => some (.error f)
  | _ => none

/-- The workers begin on tasks. -/
def begin (rules : List Rule) (views : List TaskView) (g : Registry) : Phase × Registry :=
  (busy rules views (views.map .waiting), g.say (openingLine views.length (active rules).length))

/-- A value in place of the tasks has been loaded. -/
def beginInstead (rules : List Rule) (v : Json) (g : Registry) : Phase × Registry :=
  match Store.counted v with
  | .error f => (failed f, g)
  | .ok [] => begin rules [] g
  | .ok (w :: ws) =>
    (failed (.noMember w.kindName "has_thread"),
      g.say (openingLine (ws.length + 1) (active rules).length))

/-- The sweep loads its rules or tasks, or ends once all workers are done. -/
def proceed (g : Registry) : Phase → Phase × Registry
  | start (some rs) => (ruled rs, g)
  | start none =>
    match g.takingEach "action" fun s => s.listRules (some .suppress) with
    | (.error f, g) => (failed f, g)
    | (.ok rs, g) => (ruled rs, g)
  | ruled rs =>
    if (active rs).isEmpty then
      (ended rs [] [], g.say (note .info "No suppression rules found. Nothing to clean."))
    else
      match g.withStore Store.listTasks with
      | (.error f, g) => (failed f, g)
      | (.ok (.given views), g) => begin rs views g
      | (.ok (.instead v), g) => beginInstead rs v g
  | busy rs vs js =>
    if js.all fun j => j.fate?.isSome then
      (ended rs vs js, g.say (closingLine (tally (ended rs vs js))))
    else (busy rs vs js, g)
  | p => (p, g)

/-- The worker of the task at a place takes its next step. -/
def serve (g : Registry) (place : Nat) : Phase → Phase × Registry
  | busy rs vs js =>
    match Pool.step (active rs) ⟨js, g⟩ place with
    | ⟨js, g⟩ => (busy rs vs js, g)
  | p => (p, g)

/-- The sweep takes its next step. -/
def move (p : Phase) (g : Registry) : Move → Phase × Registry
  | .proceed => p.proceed g
  | .serve place => p.serve g place

/-- The sweep takes steps one after the other. -/
def moves (p : Phase) (g : Registry) : List Move → Phase × Registry
  | [] => (p, g)
  | m :: ms => (p.move g m).1.moves (p.move g m).2 ms

/-- A sweep ends when its workers are done. -/
theorem proceed_settled (rules : List Rule) (views : List TaskView) (g : Registry)
    {jobs : List Job} (h : (jobs.all fun j => j.fate?.isSome) = true) :
    (busy rules views jobs).proceed g =
      (ended rules views jobs, g.say (closingLine (tally (ended rules views jobs)))) := by
  simp only [proceed, h, if_true]

theorem moves_append (p : Phase) (g : Registry) (ms more : List Move) :
    p.moves g (ms ++ more) = (p.moves g ms).1.moves (p.moves g ms).2 more := by
  induction ms generalizing p g with
  | nil => rfl
  | cons m ms ih => exact ih _ _

/-- Nothing comes after the outcome. -/
theorem moves_over {p : Phase} (h : p.outcome?.isSome) (g : Registry) (ms : List Move) :
    p.moves g ms = (p, g) := by
  have hmove (m : Move) : p.move g m = (p, g) := by
    cases p with
    | ended | failed => cases m <;> rfl
    | _ => cases h
  induction ms with
  | nil => rfl
  | cons m ms ih =>
    unfold moves
    rw [hmove]
    exact ih

/-- Workers that are served in an order take their steps in that order. -/
theorem moves_serve (rules : List Rule) (views : List TaskView) (p : Pool) (order : List Nat) :
    (busy rules views p.jobs).moves p.registry (order.map .serve) =
      (busy rules views (p.run (active rules) order).jobs,
        (p.run (active rules) order).registry) := by
  induction order generalizing p with
  | nil => rfl
  | cons place order ih => exact ih (p.step (active rules) place)

end Phase

/-! ## Workers that are done -/

theorem step_served {done : List Nat} {p : Pool} (h : Served done p.jobs) (rules : List Rule)
    (place : Nat) : Served (done ++ [place]) (p.step rules place).jobs := by
  unfold Pool.step
  rcases hj : p.jobs[place]? with _ | j
  · exact h.idle hj
  · exact h.set hj (advance_progress rules p.registry j)

theorem run_served {done : List Nat} {p : Pool} (h : Served done p.jobs) (rules : List Rule)
    (order : List Nat) : Served (done ++ order) (p.run rules order).jobs := by
  induction order generalizing done p with
  | nil => simpa [Pool.run] using h
  | cons place order ih =>
    have hnext := ih (step_served h rules place)
    rw [List.append_assoc] at hnext
    exact hnext

theorem length_run (rules : List Rule) (p : Pool) (order : List Nat) :
    (p.run rules order).jobs.length = p.jobs.length := by
  induction order generalizing p with
  | nil => rfl
  | cons place order ih =>
    refine (ih (p.step rules place)).trans ?_
    unfold Pool.step
    rcases p.jobs[place]? with _ | j
    · rfl
    · exact List.length_set

/-- When all workers have taken both their steps they are done. -/
theorem all_settled (rules : List Rule) {p : Pool} {order : List Nat}
    (hcomplete : Completes p.jobs.length order) :
    ((p.run rules order).jobs.all fun j => j.fate?.isSome) = true := by
  have hstart : Served [] p.jobs := fun i j _ => Nat.zero_le _
  have hserved := run_served hstart rules order
  rw [List.all_eq_true]
  intro j hj
  obtain ⟨i, hi⟩ := List.mem_iff_getElem?.mp hj
  have hlt := (List.getElem?_eq_some_iff.mp hi).1
  rw [length_run] at hlt
  have hsteps := hserved i j hi
  have hcount := hcomplete i hlt
  rw [List.nil_append] at hsteps
  cases j with
  | settled f => rfl
  | _ =>
    simp only [Job.progress] at hsteps
    omega

/-! ## A sweep alone -/

/-- The steps of a sweep whose workers are served in an order. -/
def alone (order : List Nat) : List Move :=
  [.proceed, .proceed] ++ order.map .serve ++ [.proceed]

/-- Steps lead a sweep to an outcome. -/
def Leads (o : Phase × Registry) (outcome : Registry.Outcome Tally) : Prop :=
  o.1.outcome? = some outcome.1 ∧ o.2 = outcome.2

theorem leads_over {p : Phase} {r : Except Failure Tally} (h : p.outcome? = some r) (g : Registry)
    (ms : List Move) : Leads (p.moves g ms) (r, g) := by
  rw [Phase.moves_over (by rw [h]; rfl)]
  exact ⟨h, rfl⟩

/-- Workers that begin on tasks lead to what settling these comes to. -/
theorem begin_leads (order : Schedule) (rules : List Rule) (views : List TaskView) (g : Registry)
    (hcomplete : Completes views.length (order views.length)) :
    Leads ((Phase.begin rules views g).1.moves (Phase.begin rules views g).2
      ((order views.length).map .serve ++ [.proceed])) (settle order (active rules) g views) := by
  let start : Pool :=
    ⟨views.map .waiting, g.say (openingLine views.length (active rules).length)⟩
  have hlength : start.jobs.length = views.length := List.length_map _
  have hserve := Phase.moves_serve rules views start (order views.length)
  have hsteps : Completes start.jobs.length (order views.length) := by
    rw [hlength]
    exact hcomplete
  have hsettled := all_settled (active rules) hsteps
  rw [Phase.moves_append]
  change Leads (Phase.moves ((Phase.busy rules views start.jobs).moves start.registry _).1
    ((Phase.busy rules views start.jobs).moves start.registry _).2 _) _
  rw [hserve]
  have hend := Phase.proceed_settled rules views
    (start.run (active rules) (order views.length)).registry hsettled
  change Leads ((Phase.busy rules views _).proceed _) _
  rw [hend]
  exact ⟨rfl, rfl⟩

/-- A value in place of the tasks leads to what the sweep as a whole makes of it. -/
theorem beginInstead_leads (order : Schedule) (rules : List Rule) (v : Json) (g : Registry)
    (hfair : Fair order) :
    ∃ n, Leads ((Phase.beginInstead rules v g).1.moves (Phase.beginInstead rules v g).2
      ((order n).map .serve ++ [.proceed])) (settleInstead order (active rules) g v) := by
  unfold Phase.beginInstead settleInstead
  rcases Store.counted v with f | _ | ⟨w, ws⟩
  · exact ⟨0, leads_over rfl _ _⟩
  · exact ⟨0, begin_leads order rules [] g (hfair 0)⟩
  · exact ⟨0, leads_over rfl _ _⟩

theorem ruled_leads (order : Schedule) (rules : List Rule) (g : Registry)
    (hfair : Fair order) :
    ∃ n, Leads ((Phase.ruled rules).moves g ([.proceed] ++ (order n).map .serve ++ [.proceed]))
      (runWith order g rules) := by
  have hfirst (n : Nat) : (Phase.ruled rules).moves g
      ([.proceed] ++ (order n).map .serve ++ [.proceed]) =
        ((Phase.ruled rules).proceed g).1.moves ((Phase.ruled rules).proceed g).2
          ((order n).map .serve ++ [.proceed]) := rfl
  simp only [hfirst, runWith_eq]
  change ∃ n, Leads _ (if (active rules).isEmpty then _ else _)
  by_cases hnone : (active rules).isEmpty = true
  · simp only [Phase.proceed, hnone, if_true]
    exact ⟨0, leads_over rfl _ _⟩
  · simp only [Phase.proceed, hnone]
    rcases g.withStore Store.listTasks with ⟨f | views | v, u⟩
    · exact ⟨0, leads_over rfl _ _⟩
    · exact ⟨views.length, begin_leads order rules views u (hfair _)⟩
    · exact beginInstead_leads order rules v u hfair

/-- A sweep whose steps are taken one after the other comes to what it comes to as a whole. -/
theorem moves_alone (rules : Option (List Rule)) {order : Schedule}
    (hfair : Fair order) (g : Registry) :
    ∃ n, Leads ((Phase.start rules).moves g (alone (order n))) (run g rules order) := by
  have hfirst (n : Nat) : (Phase.start rules).moves g (alone (order n)) =
      ((Phase.start rules).proceed g).1.moves ((Phase.start rules).proceed g).2
        ([.proceed] ++ (order n).map .serve ++ [.proceed]) := rfl
  simp only [hfirst]
  cases rules with
  | some rs => exact ruled_leads order rs g hfair
  | none =>
    simp only [run_none, Phase.proceed]
    rcases g.takingEach "action" _ with ⟨f | rs, u⟩
    · exact ⟨0, leads_over rfl _ _⟩
    · exact ruled_leads order rs u hfair

end Sweep

end MailRules
