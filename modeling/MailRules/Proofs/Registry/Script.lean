import MailRules.Proofs.Registry.Steady

set_option autoImplicit false

/-!
# Operations step by step

What an operation on rules does between two moments at which the worker may get at the store: it
asks the store for one thing, puts lines into the log, or submits one event. A `Script` tells its
steps, where what is done next may depend on what has come of a step.

A script that is carried out without anything in between (`Script.alone`) comes to what the
operation comes to as a whole (`createScript_alone` and others). In general the worker takes steps
of its own before each step of the script (`Script.amid`).
-/

namespace MailRules.Registry

variable {α β : Type}

/-- The worker takes so many steps. -/
def workFor (g : Registry) : Nat → Registry
  | 0 => g
  | n + 1 => g.work.workFor n

/-- What is done step by step; a step that fails is the last one. -/
inductive Script (α : Type) : Type 1
  | done (r : Except Failure α)
  | step {β : Type} (run : Registry → Outcome β) (next : β → Script α)

namespace Script

/-- The steps are taken one after the other. -/
def alone : Script α → Registry → Outcome α
  | done r, g => (r, g)
  | step run next, g => after (run g) fun b g => (next b).alone g

/-- The steps are taken one after the other, and the worker takes steps as well: before each step,
and at the end, as many as the next of the numbers says. -/
def amid : Script α → List Nat → Registry → Outcome α
  | done r, pauses, g => (r, g.workFor (pauses.headD 0))
  | step run next, pauses, g =>
    after (run (g.workFor (pauses.headD 0))) fun b g => (next b).amid pauses.tail g

/-- What comes of a script, made into something else. -/
def map (f : α → β) : Script α → Script β
  | done r => done (r.map f)
  | step run next => step run fun b => (next b).map f

/-- Changes that are made one after the other, and what comes after them. -/
def each (changes : List (Registry → Registry)) (rest : Script α) : Script α :=
  changes.foldr (fun change s => step (fun g => (.ok (), change g)) fun _ => s) rest

theorem alone_each (changes : List (Registry → Registry)) (rest : Script α) (g : Registry) :
    (each changes rest).alone g = rest.alone (changes.foldl (fun g change => change g) g) := by
  induction changes generalizing g with
  | nil => rfl
  | cons change changes ih => exact ih (change g)

theorem alone_map (f : α → β) (p : Script α) (g : Registry) :
    (p.map f).alone g = ((p.alone g).1.map f, (p.alone g).2) := by
  induction p generalizing g with
  | done r => rfl
  | step run next ih =>
    simp only [map, alone]
    rcases run g with ⟨e | b, u⟩
    · rfl
    · exact ih b u

end Script

/-! ## The scripts of operations -/

/-- Creating a rule from a record. -/
def createScript (record : Json) (actor : Option String) : Script Rule :=
  match canonicalOf record with
  | .error r => .done (.error (.rejected r))
  | .ok d =>
    .step (fun g => g.taking (Store.lacking "action") fun s => s.insertRule d) fun r =>
      .each [fun g => g.sayCreated r, fun g => g.recordCreated none actor r] (.done (.ok r))

/-- Creating rules from canonical drafts, of which some were left out as duplicates. -/
def createDistinctScript (ds : List Draft) (duplicates : Nat) (actor reason : Option String) :
    Script (List Rule) :=
  .step (fun g => g.taking (fun v => (Store.counted v).map (·.map .instead))
      fun s => s.insertRules ds) fun as =>
    .each ((fun g => g.say (batchLine as.length duplicates)) ::
        (leading as).1.map fun r g => g.recordCreated reason actor r)
      (.done (match (leading as).2 with
        | none => .ok (leading as).1
        | some v => Store.lacking "id" v))

/-- Creating rules from a batch of records. -/
def createBatchScript (records : Json) (actor reason : Option String) : Script (List Rule) :=
  match Draft.ofBatch records with
  | .error f => .done (.error f)
  | .ok drafts =>
    match canonicalBatch drafts with
    | .error r => .done (.error (.rejected r))
    | .ok ds =>
      createDistinctScript (distinct [] ds) (ds.length - (distinct [] ds).length) actor reason

/-- Deleting the row of a rule that has been looked up. -/
def deleteFoundScript (r : Rule) (id : String) (actor : Option String) : Script Unit :=
  .step (fun g => g.withStore fun s => s.deleteRule id) fun answer =>
    if answer.isTruthy then
      .each [fun g => g.say (note .info s!"Deleted rule {id}"),
        fun g => g.record .ruleDeleted ruleEntity id (ruleDetails r none) actor] (.done (.ok ()))
    else .done (.error (.unknownRule id))

/-- Deleting the rule with an identifier. -/
def deleteScript (id : String) (actor : Option String) : Script Unit :=
  .step (fun g => g.taking (insteadOfRule "type") fun s => s.findRule id) fun
    | none => .done (.error (.unknownRule id))
    | some r => deleteFoundScript r id actor

/-- Doing what parsing does on the side, which has come to a result. -/
def carryOutScript (actor : Option String) (effects : List Instruction.Effect)
    (r : Except Failure α) : Script α :=
  .each (effects.map fun e g => g.carryOutOne actor e) (.done r)

/-! ## Scripts alone -/

theorem createScript_alone (record : Json) (actor : Option String) (g : Registry) :
    (createScript record actor).alone g = g.create record actor := by
  unfold createScript create
  rcases canonicalOf record with r | d
  · rfl
  · simp only [createCanonical_eq, Script.alone, Script.alone_each]
    rfl

theorem createDistinctScript_alone (ds : List Draft) (duplicates : Nat)
    (actor reason : Option String) (g : Registry) :
    (createDistinctScript ds duplicates actor reason).alone g =
      g.createDistinct ds duplicates actor reason := by
  rw [createDistinctScript, createDistinct_eq, Script.alone]
  congr 1
  funext as u
  refine (Script.alone_each _ _ u).trans ?_
  rw [List.foldl_cons, List.foldl_map]
  exact (reportBatch_eq u as duplicates actor reason).symm

theorem createBatchScript_alone (records : Json) (actor reason : Option String) (g : Registry) :
    (createBatchScript records actor reason).alone g = g.createBatch records actor reason := by
  unfold createBatchScript createBatch
  rcases Draft.ofBatch records with f | drafts
  · rfl
  · simp only
    rcases canonicalBatch drafts with r | ds
    · rfl
    · exact createDistinctScript_alone _ _ actor reason g

theorem deleteFoundScript_alone (r : Rule) (id : String) (actor : Option String) (g : Registry) :
    (deleteFoundScript r id actor).alone g = g.deleteFound r id actor := by
  rw [deleteFoundScript, deleteFound_eq, Script.alone]
  congr 1
  funext answer u
  split
  · rw [Script.alone_each]
    rfl
  · rfl

theorem deleteScript_alone (id : String) (actor : Option String) (g : Registry) :
    (deleteScript id actor).alone g = g.delete id actor := by
  rw [deleteScript, delete_eq, lookUp_eq, Script.alone]
  rcases g.taking _ _ with ⟨f | _ | r, u⟩
  · rfl
  · rfl
  · exact deleteFoundScript_alone r id actor u

theorem carryOutScript_alone (actor : Option String) (effects : List Instruction.Effect)
    (r : Except Failure α) (g : Registry) :
    (carryOutScript actor effects r).alone g = (r, g.carryOut actor effects) := by
  rw [carryOutScript, Script.alone_each, List.foldl_map]
  rfl

end MailRules.Registry
