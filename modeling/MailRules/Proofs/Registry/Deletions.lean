import MailRules.Proofs.Registry.Adding

set_option autoImplicit false

/-!
# Deletions at the same time

Deleting a rule takes three steps: it is looked up, its row is deleted, and that is recorded.
Several calls take their steps on one registry in any order, while others create rules. So a call
can know a rule that is gone by the time it comes to delete the row, and only what the store says
then decides whose deletion it is.

The invariant is `Settling`: the rows that have ever been there (`born`) are those that are left and
those that exactly one call has erased, and the events on deletions are those of the calls that have
recorded theirs. Each step of a call keeps it (`step_settling`), as does each step of creating rules
(`Settling.add`), so every run does (`run_settling`). A call that begins while a row is there
pursues that row until it is gone (`run_pursued`). So once the calls on a rule are over, either it
is stored as it was and none of them has succeeded, or it is gone, one has succeeded, and there is
one event on it (`deletions_settle`).
-/

namespace MailRules.Registry

open Store (Row)

/-! ## The steps of a call -/

/-- How far a call that deletes a rule has got. -/
inductive Stage
  /-- The rule is to be looked up. -/
  | asked
  /-- The rule is known; its row is to be deleted. -/
  | found (r : Rule)
  /-- The row has been there and is deleted; the event is to be recorded. -/
  | erased (r : Rule)
  | recorded (r : Rule)
  | failed (f : Failure)

/-- A call that deletes a rule. -/
structure Deletion where
  id : String
  actor : Option String
  stage : Stage := .asked

/-- Records that a rule was deleted. -/
def recordDeleted (g : Registry) (r : Rule) (id : String) (actor : Option String) : Registry :=
  (g.say (note .info s!"Deleted rule {id}")).record .ruleDeleted ruleEntity id (ruleDetails r none)
    actor

namespace Deletion

/-- The call at another stage. -/
def now (d : Deletion) (stage : Stage) : Deletion :=
  { d with stage := stage }

/-- What the call has come to, once it is over. -/
def result? (d : Deletion) : Option (Except Failure Unit) :=
  match d.stage with
  | .recorded _ => some (.ok ())
  | .failed f => some (.error f)
  | _ => none

/-- The rule that the call has looked up. -/
def rule? (d : Deletion) : Option Rule :=
  match d.stage with
  | .found r | .erased r | .recorded r => some r
  | _ => none

/-- The identifier of the row that the call has deleted. -/
def taken (d : Deletion) : List String :=
  match d.stage with
  | .erased _ | .recorded _ => [d.id]
  | _ => []

/-- The event that the call has recorded. -/
def events (d : Deletion) : List Audit.Content :=
  match d.stage with
  | .recorded r => [(deletedNote r d.id d.actor).content]
  | _ => []

/-- The call takes its next step. -/
def proceed (d : Deletion) (g : Registry) : Deletion × Registry :=
  match d.stage with
  | .asked =>
    match g.lookUp d.id "type" with
    | (.error f, g) => (d.now (.failed f), g)
    | (.ok r, g) => (d.now (.found r), g)
  | .found r =>
    match g.withStore fun s => s.deleteRule d.id with
    | (.error f, g) => (d.now (.failed f), g)
    | (.ok answer, g) =>
      (d.now (if answer.isTruthy then .erased r else .failed (.unknownRule d.id)), g)
  | .erased r => (d.now (.recorded r), g.recordDeleted r d.id d.actor)
  | .recorded _ | .failed _ => (d, g)

/-- The call takes so many steps, and nobody else does anything. -/
def proceeds (d : Deletion) (g : Registry) : Nat → Deletion × Registry
  | 0 => (d, g)
  | n + 1 => (d.proceed g).1.proceeds (d.proceed g).2 n

/-- What is left of the call, as a whole. -/
def rest (d : Deletion) (g : Registry) : Outcome Unit :=
  match d.stage with
  | .asked => g.delete d.id d.actor
  | .found r => g.deleteFound r d.id d.actor
  | .erased r => (.ok (), g.recordDeleted r d.id d.actor)
  | .recorded _ => (.ok (), g)
  | .failed f => (.error f, g)

/-- How many steps a call takes at most. -/
def stepsLeft (d : Deletion) : Nat :=
  match d.stage with
  | .asked => 3
  | .found _ => 2
  | .erased _ => 1
  | .recorded _ | .failed _ => 0

theorem proceed_rest (d : Deletion) (g : Registry) :
    (d.proceed g).1.rest (d.proceed g).2 = d.rest g := by
  obtain ⟨id, actor, stage⟩ := d
  cases stage with
  | asked =>
    simp only [proceed, rest, delete_eq]
    rcases g.lookUp id "type" with ⟨f | r, u⟩ <;> rfl
  | found r =>
    simp only [proceed, rest, deleteFound_eq]
    rcases g.withStore fun s => s.deleteRule id with ⟨f | answer, u⟩
    · rfl
    · simp only [after, now]
      cases answer.isTruthy <;> rfl
  | erased r | recorded r | failed f => rfl

theorem proceed_stepsLeft (d : Deletion) (g : Registry) :
    (d.proceed g).1.stepsLeft ≤ d.stepsLeft - 1 := by
  obtain ⟨id, actor, stage⟩ := d
  cases stage with
  | asked =>
    simp only [proceed]
    rcases g.lookUp id "type" with ⟨f | r, u⟩ <;> simp [stepsLeft, now]
  | found r =>
    simp only [proceed]
    rcases g.withStore fun s => s.deleteRule id with ⟨f | answer, u⟩
    · simp [stepsLeft, now]
    · simp only [stepsLeft, now]
      cases answer.isTruthy <;> simp
  | erased r | recorded r | failed f => simp [proceed, stepsLeft, now]

theorem proceeds_rest (d : Deletion) (g : Registry) (n : Nat) :
    (d.proceeds g n).1.rest (d.proceeds g n).2 = d.rest g ∧
      (d.proceeds g n).1.stepsLeft ≤ d.stepsLeft - n := by
  induction n generalizing d g with
  | zero => exact ⟨rfl, Nat.le_refl _⟩
  | succ n ih =>
    obtain ⟨hrest, hleft⟩ := ih (d.proceed g).1 (d.proceed g).2
    have hstep := proceed_stepsLeft d g
    exact ⟨hrest.trans (proceed_rest d g), by simp only [proceeds]; omega⟩

/-- Three steps that are taken alone are what deleting a rule comes to. -/
theorem delete_by_steps (id : String) (actor : Option String) (g : Registry) :
    let o := Deletion.proceeds ⟨id, actor, .asked⟩ g 3
    o.1.result? = some (g.delete id actor).1 ∧ o.2 = (g.delete id actor).2 := by
  obtain ⟨hrest, hleft⟩ := proceeds_rest ⟨id, actor, .asked⟩ g 3
  have hwhole : (Deletion.mk id actor .asked).rest g = g.delete id actor := rfl
  rw [hwhole] at hrest
  rw [← hrest]
  generalize Deletion.proceeds ⟨id, actor, .asked⟩ g 3 = o at hleft ⊢
  obtain ⟨⟨id', actor', stage⟩, u⟩ := o
  cases stage with
  | recorded r | failed f => exact ⟨rfl, rfl⟩
  | asked | found r | erased r => cases hleft

end Deletion

/-- The registry without a rule. -/
def withoutRule (g : Registry) (id : String) : Registry :=
  { g with store := { g.store with tables := g.store.tables.withoutRule id } }

/-- What a step of a call does where nothing goes wrong but writing events. -/
inductive Deletion.Step (g : Registry) (d : Deletion) : Deletion × Registry → Prop
  | finds {r : Rule} (hstage : d.stage = .asked) (hrule : g.store.tables.rule? d.id = some r) :
    Step g d (d.now (.found r), g)
  | misses (hstage : d.stage = .asked) (hnone : g.store.tables.rule? d.id = none) :
    Step g d (d.now (.failed (.unknownRule d.id)), g)
  | erases {r : Rule} (hstage : d.stage = .found r)
    (hthere : (g.store.tables.rule? d.id).isSome = true) :
    Step g d (d.now (.erased r), g.withoutRule d.id)
  | comesLate {r : Rule} (hstage : d.stage = .found r) (hnone : g.store.tables.rule? d.id = none) :
    Step g d (d.now (.failed (.unknownRule d.id)), g.withoutRule d.id)
  | records {r : Rule} (hstage : d.stage = .erased r) :
    Step g d (d.now (.recorded r), g.recordDeleted r d.id d.actor)
  | rests (hover : d.result?.isSome = true) : Step g d (d, g)

theorem Deletion.proceed_step {g : Registry} (hw : g.store.Willing) (d : Deletion) :
    Deletion.Step g d (d.proceed g) := by
  cases hstage : d.stage with
  | asked =>
    simp only [proceed, hstage, lookUp_willing hw]
    cases hrule : g.store.tables.rule? d.id with
    | none => exact .misses hstage hrule
    | some r => exact .finds hstage hrule
  | found r =>
    simp only [proceed, hstage, withStore, Store.deleteRule_willing hw]
    cases hrule : g.store.tables.rule? d.id with
    | none => exact .comesLate hstage hrule
    | some q => exact .erases hstage (by rw [hrule]; rfl)
  | erased r =>
    simp only [proceed, hstage]
    exact .records hstage
  | recorded r | failed f =>
    simp only [proceed, hstage]
    exact .rests (by simp [result?, hstage])

/-! ## Calls at the same time -/

/-- A call that creates rules. -/
inductive Creation
  | one (record : Json) (actor : Option String)
  | batch (records : Json) (actor reason : Option String)

/-- The steps of creating rules. -/
def Creation.script : Creation → Script Unit
  | one record actor => (createScript record actor).map fun _ => ()
  | batch records actor reason => (createBatchScript records actor reason).map fun _ => ()

theorem Creation.script_adding (c : Creation) : c.script.Adding := by
  cases c with
  | one record actor => exact (createScript_adding record actor).map _
  | batch records actor reason => exact (createBatchScript_adding records actor reason).map _

/-- A registry on which calls are under way. -/
structure Shared where
  registry : Registry
  deletions : List Deletion
  creations : List (Script Unit)

/-- Whose turn it is. -/
inductive Turn
  /-- The call at a place among those that delete takes its next step. -/
  | delete (place : Nat)
  /-- The call at a place among those that create takes its next step. -/
  | create (place : Nat)
  /-- The worker writes an event that waits. -/
  | work

namespace Shared

/-- Calls that are to begin on a registry. -/
def start (g : Registry) (deletions : List (String × Option String)) (creations : List Creation) :
    Shared where
  registry := g
  deletions := deletions.map fun d => ⟨d.1, d.2, .asked⟩
  creations := creations.map Creation.script

/-- Who has the turn takes a step. -/
def step (x : Shared) : Turn → Shared
  | .delete place =>
    match x.deletions[place]? with
    | none => x
    | some d =>
      match d.proceed x.registry with
      | (d, g) => { x with registry := g, deletions := x.deletions.set place d }
  | .create place =>
    match x.creations[place]? with
    | none => x
    | some p =>
      match p.proceed x.registry with
      | (p, g) => { x with registry := g, creations := x.creations.set place p }
  | .work => { x with registry := x.registry.work }

/-- Steps are taken one after the other. -/
def run (x : Shared) (turns : List Turn) : Shared :=
  turns.foldl step x

theorem step_delete {x : Shared} {place : Nat} {d : Deletion} (hd : x.deletions[place]? = some d) :
    x.step (.delete place) = { x with
      registry := (d.proceed x.registry).2
      deletions := x.deletions.set place (d.proceed x.registry).1 } := by
  simp only [step, hd]

theorem step_delete_none {x : Shared} {place : Nat} (hnone : x.deletions[place]? = none) :
    x.step (.delete place) = x := by
  simp only [step, hnone]

theorem step_create_deletions (x : Shared) (place : Nat) :
    (x.step (.create place)).deletions = x.deletions := by
  simp only [step]
  cases x.creations[place]? with
  | none => rfl
  | some p => rfl

/-- The rows of rules that are stored. -/
def rows (x : Shared) : List (Row Rule) :=
  x.registry.store.tables.rules

/-- The identifiers of the rows that calls have deleted. -/
def erased (x : Shared) : List String :=
  x.deletions.flatMap Deletion.taken

/-- The events that calls have recorded. -/
def events (x : Shared) : List Audit.Content :=
  x.deletions.flatMap Deletion.events

end Shared

/-- The identifier of the rule in a row. -/
def rowId (row : Row Rule) : String :=
  row.value.id

/-- How things stand while calls are under way, if `born` are the rows of rules that have ever been
there since `base`. -/
structure Settling (base : Registry) (born : List (Row Rule)) (x : Shared) : Prop where
  sound : x.registry.store.Sound
  willing : x.registry.store.Willing
  apart : Function.Injective x.registry.store.marks.rule
  /-- Identifiers that are still to be given out are none of those that have been. -/
  unused : ∀ n, x.registry.store.tables.issued.rules ≤ n →
    x.registry.store.marks.rule n ∉ born.map rowId
  once : (born.map rowId).Nodup
  adding : ∀ p ∈ x.creations, p.Adding
  /-- Each row has been deleted by one call at most. -/
  erasedOnce : x.erased.Nodup
  existed : ∀ id ∈ x.erased, id ∈ born.map rowId
  /-- The rows that are left are those that no call has deleted. -/
  left : x.rows = born.filter fun row => rowId row ∉ x.erased
  /-- A call knows the rule of a row. -/
  known : ∀ d ∈ x.deletions, ∀ r, d.rule? = some r → ∃ row ∈ born, row.value = r ∧ r.id = d.id
  /-- A call fails because there is no rule. -/
  refused : ∀ d ∈ x.deletions, ∀ f, d.stage = .failed f → f = .unknownRule d.id
  log : base.log <+: x.registry.log
  /-- The events on deletions are those that calls have recorded. -/
  told : Silent base x.registry → x.registry.told.Perm (base.told ++ x.events)

variable {base : Registry} {born : List (Row Rule)} {x : Shared}

/-! ## Rows and identifiers -/

theorem Settling.mem_rows_iff (h : Settling base born x) {row : Row Rule} :
    row ∈ x.rows ↔ row ∈ born ∧ rowId row ∉ x.erased := by
  rw [h.left, List.mem_filter, decide_eq_true_eq]

/-- A rule that is found is that of a row, and no call has deleted that. -/
theorem Settling.found_row (h : Settling base born x) {id : String} {r : Rule}
    (hr : x.registry.store.tables.rule? id = some r) :
    ∃ row ∈ born, row.value = r ∧ r.id = id ∧ id ∉ x.erased := by
  rw [Store.rule?_eq_find?] at hr
  have hid : r.id = id := by simpa using List.find?_some hr
  obtain ⟨row, hrow, rfl⟩ := List.mem_map.mp (List.mem_of_find?_eq_some hr)
  obtain ⟨hborn, herased⟩ := h.mem_rows_iff.mp hrow
  exact ⟨row, hborn, rfl, hid, hid ▸ herased⟩

/-- Where no rule is found, a call has deleted the row if there ever was one. -/
theorem Settling.missing_row (h : Settling base born x) {id : String}
    (hnone : x.registry.store.tables.rule? id = none) {row : Row Rule} (hrow : row ∈ born)
    (hid : rowId row = id) : id ∈ x.erased := by
  by_contra herased
  have hleft : row ∈ x.rows := h.mem_rows_iff.mpr ⟨hrow, hid ▸ herased⟩
  rw [Store.rule?_eq_find?, List.find?_eq_none] at hnone
  exact hnone row.value (List.mem_map_of_mem hleft) (by simpa [rowId] using hid)

/-! ## One step -/

/-- The item at a place, and what comes before it and after it. -/
theorem exists_split {α : Type} {l : List α} {place : Nat} {a : α} (h : l[place]? = some a) :
    ∃ before after, l = before ++ a :: after ∧ ∀ b, l.set place b = before ++ b :: after := by
  induction l generalizing place with
  | nil => cases h
  | cons c l ih =>
    cases place with
    | zero =>
      cases h
      exact ⟨[], l, rfl, fun b => rfl⟩
    | succ place =>
      obtain ⟨before, after, hl, hset⟩ := ih h
      exact ⟨c :: before, after, by rw [hl]; rfl, fun b => by rw [List.set_cons_succ, hset]; rfl⟩

section Step

variable {before after : List Deletion} {d d' : Deletion} {g : Registry}

theorem flatMap_replace {α : Type} {f : Deletion → List α} {more : List α}
    (h : f d' = f d ++ more) :
    ((before ++ d' :: after).flatMap f).Perm ((before ++ d :: after).flatMap f ++ more) := by
  simp only [List.flatMap_append, List.flatMap_cons, h, List.append_assoc]
  refine List.Perm.append_left _ (List.Perm.append_left _ ?_)
  exact List.perm_append_comm

/-- A call takes a step, in which it may delete rows that are there, and record events. -/
theorem Settling.advance (h : Settling base born x) (hsplit : x.deletions = before ++ d :: after)
    (gone : List String) (htaken : d'.taken = d.taken ++ gone) (honce : gone.Nodup)
    (hgone : ∀ id ∈ gone, id ∈ born.map rowId ∧ id ∉ x.erased)
    (more : List Audit.Content) (hevents : d'.events = d.events ++ more)
    (hknown : ∀ r, d'.rule? = some r → ∃ row ∈ born, row.value = r ∧ r.id = d'.id)
    (hrefused : ∀ f, d'.stage = .failed f → f = .unknownRule d'.id)
    (hsound : g.store.Sound) (hfollows : x.registry.store.Follows g.store)
    (hissued : g.store.tables.issued.rules = x.registry.store.tables.issued.rules)
    (hrows : g.store.tables.rules = x.rows.filter fun row => rowId row ∉ gone)
    (hlog : x.registry.log <+: g.log)
    (htold : Silent x.registry g → g.told.Perm (x.registry.told ++ more)) :
    Settling base born ⟨g, before ++ d' :: after, x.creations⟩ := by
  have herased : (Shared.erased ⟨g, before ++ d' :: after, x.creations⟩).Perm
      (x.erased ++ gone) := by
    rw [Shared.erased, Shared.erased, hsplit]
    exact flatMap_replace htaken
  have hrecorded : (Shared.events ⟨g, before ++ d' :: after, x.creations⟩).Perm
      (x.events ++ more) := by
    rw [Shared.events, Shared.events, hsplit]
    exact flatMap_replace hevents
  have hall {P : Deletion → Prop} (hold : ∀ e ∈ x.deletions, P e) (hnew : P d') :
      ∀ e ∈ before ++ d' :: after, P e := by
    simp only [hsplit, List.forall_mem_append, List.forall_mem_cons] at hold ⊢
    exact ⟨hold.1, hnew, hold.2.2⟩
  refine {
    sound := hsound
    willing := h.willing.follows hfollows
    apart := by rw [hfollows.marks]; exact h.apart
    unused := by rw [hfollows.marks, hissued]; exact h.unused
    once := h.once
    adding := h.adding
    erasedOnce := ?_
    existed := ?_
    left := ?_
    known := hall h.known hknown
    refused := hall h.refused hrefused
    log := h.log.trans hlog
    told := ?_ }
  · rw [herased.nodup_iff, List.nodup_append]
    refine ⟨h.erasedOnce, honce, ?_⟩
    rintro id hid _ hmem rfl
    exact (hgone id hmem).2 hid
  · intro id hid
    rcases List.mem_append.mp (herased.mem_iff.mp hid) with hold | hnew
    · exact h.existed id hold
    · exact (hgone id hnew).1
  · change g.store.tables.rules = _
    rw [hrows, h.left, List.filter_filter]
    refine List.filter_congr fun row _ => ?_
    simp [herased.mem_iff, not_or, and_comm]
  · intro hsilent
    obtain ⟨hbefore, hstep⟩ := hsilent.parts h.log hlog
    refine (htold hstep).trans (((h.told hbefore).append_right more).trans ?_)
    rw [List.append_assoc]
    exact List.Perm.append_left _ hrecorded.symm

/-- A call goes on without touching the registry. -/
theorem Settling.goOn (h : Settling base born x) (hsplit : x.deletions = before ++ d :: after)
    (htaken : d'.taken = d.taken) (hevents : d'.events = d.events)
    (hknown : ∀ r, d'.rule? = some r → ∃ row ∈ born, row.value = r ∧ r.id = d'.id)
    (hrefused : ∀ f, d'.stage = .failed f → f = .unknownRule d'.id) :
    Settling base born ⟨x.registry, before ++ d' :: after, x.creations⟩ := by
  refine h.advance hsplit [] ?_ List.nodup_nil (by simp) [] ?_ hknown hrefused
    h.sound (Store.Follows.refl _) rfl ?_ (List.prefix_refl _) fun _ => ?_
  · rw [htaken, List.append_nil]
  · rw [hevents, List.append_nil]
  · simp [Shared.rows]
  · rw [List.append_nil]

theorem withoutRule_of_missing {id : String} (hnone : g.store.tables.rule? id = none) :
    g.withoutRule id = g := by
  have hrules : g.store.tables.rules.filter (·.value.id ≠ id) = g.store.tables.rules := by
    rw [Store.rule?_eq_find?, List.find?_eq_none] at hnone
    refine List.filter_eq_self.mpr fun row hrow => ?_
    simpa using hnone row.value (List.mem_map_of_mem hrow)
  rw [withoutRule, Store.Tables.withoutRule, hrules]

/-- A call deletes the row of a rule that is there. -/
theorem Settling.erase (h : Settling base born x) (hsplit : x.deletions = before ++ d :: after)
    {r : Rule} (hstage : d.stage = .found r)
    (hthere : (x.registry.store.tables.rule? d.id).isSome = true) :
    Settling base born
      ⟨x.registry.withoutRule d.id, before ++ d.now (.erased r) :: after, x.creations⟩ := by
  obtain ⟨q, hq⟩ := Option.isSome_iff_exists.mp hthere
  obtain ⟨row, hrow, rfl, hid, hnew⟩ := h.found_row hq
  have hstored : (x.registry.store.deleteRule d.id).2 = (x.registry.withoutRule d.id).store := by
    rw [Store.deleteRule_willing h.willing]
    rfl
  have hknown := h.known d (by simp [hsplit]) r (by simp [Deletion.rule?, hstage])
  refine h.advance hsplit [d.id] ?_ (List.nodup_singleton _) ?_ [] ?_ ?_
    (fun f hf => by cases hf) ?_ ?_ rfl ?_ (List.prefix_refl _) fun _ => ?_
  · simp [Deletion.taken, hstage, Deletion.now]
  · rintro _ hmem
    obtain rfl := List.mem_singleton.mp hmem
    exact ⟨List.mem_map.mpr ⟨row, hrow, hid⟩, hnew⟩
  · simp [Deletion.events, hstage, Deletion.now]
  · rintro q hq
    cases hq
    exact hknown
  · rw [← hstored]
    exact Store.deleteRule_sound h.sound d.id
  · rw [← hstored]
    exact Store.deleteRule_follows _ _
  · simp [withoutRule, Store.Tables.withoutRule, Shared.rows, rowId]
  · rw [List.append_nil]
    exact List.Perm.refl _

theorem recordDeleted_voices (hg : g.store.Sound) (r : Rule) (id : String) (actor : Option String) :
    Voices g [(deletedNote r id actor).content] (g.recordDeleted r id actor) := by
  have hsubmit := submit_voices (g := g.say (note .info s!"Deleted rule {id}")) hg
    (deletedNote r id actor)
  refine ⟨hsubmit.follows, hsubmit.sound, hsubmit.rules, hsubmit.issued,
    (List.prefix_append _ _).trans hsubmit.log, fun hsilent => ?_⟩
  exact hsubmit.voiced (hsilent.parts (List.prefix_append _ _) hsubmit.log).2

/-- A call records that it has deleted the row. -/
theorem Settling.record (h : Settling base born x) (hsplit : x.deletions = before ++ d :: after)
    {r : Rule} (hstage : d.stage = .erased r) :
    Settling base born
      ⟨x.registry.recordDeleted r d.id d.actor, before ++ d.now (.recorded r) :: after,
        x.creations⟩ := by
  have hvoices := recordDeleted_voices h.sound r d.id d.actor
  have hknown := h.known d (by simp [hsplit]) r (by simp [Deletion.rule?, hstage])
  refine h.advance hsplit [] ?_ List.nodup_nil (by simp)
    [(deletedNote r d.id d.actor).content] ?_ ?_ (fun f hf => by cases hf)
    hvoices.sound hvoices.follows hvoices.issued ?_ hvoices.log hvoices.told
  · simp [Deletion.taken, hstage, Deletion.now]
  · simp [Deletion.events, hstage, Deletion.now]
  · rintro q hq
    cases hq
    exact hknown
  · simp [hvoices.rules, Shared.rows]

/-- Every step of a call keeps the invariant. -/
theorem step_settling (h : Settling base born x) (hsplit : x.deletions = before ++ d :: after)
    {o : Deletion × Registry} (hstep : Deletion.Step x.registry d o) :
    Settling base born ⟨o.2, before ++ o.1 :: after, x.creations⟩ := by
  have hthis : d ∈ x.deletions := by simp [hsplit]
  cases hstep with
  | @finds r hstage hrule =>
    obtain ⟨row, hrow, hvalue, hid, -⟩ := h.found_row hrule
    refine h.goOn hsplit ?_ ?_ ?_ fun f hf => by cases hf
    · simp [Deletion.taken, hstage, Deletion.now]
    · simp [Deletion.events, hstage, Deletion.now]
    · rintro q hq
      cases hq
      exact ⟨row, hrow, hvalue, hid⟩
  | misses hstage hnone =>
    refine h.goOn hsplit ?_ ?_ (fun r hr => by cases hr) ?_
    · simp [Deletion.taken, hstage, Deletion.now]
    · simp [Deletion.events, hstage, Deletion.now]
    · rintro f hf
      cases hf
      rfl
  | erases hstage hthere => exact h.erase hsplit hstage hthere
  | comesLate hstage hnone =>
    simp only [withoutRule_of_missing hnone]
    refine h.goOn hsplit ?_ ?_ (fun r hr => by cases hr) ?_
    · simp [Deletion.taken, hstage, Deletion.now]
    · simp [Deletion.events, hstage, Deletion.now]
    · rintro f hf
      cases hf
      rfl
  | records hstage => exact h.record hsplit hstage
  | rests =>
    have hsame : Shared.mk x.registry (before ++ d :: after) x.creations = x := by rw [← hsplit]
    rwa [hsame]

end Step

/-! ## All steps -/

/-- Adding rules keeps the invariant, and the rows that come in have been there then. -/
theorem Settling.add (h : Settling base born x) {g : Registry} (hadds : Adds x.registry g)
    {creations : List (Script Unit)} (hadding : ∀ p ∈ creations, p.Adding) :
    ∃ more, Settling base (born ++ more) ⟨g, x.deletions, creations⟩ := by
  obtain ⟨new, hrows, hids, hissued⟩ := hadds.rules
  have hunused : ∀ id ∈ new.map rowId, id ∉ born.map rowId := by
    intro id hid
    change id ∈ new.map fun row => row.value.id at hid
    rw [hids] at hid
    obtain ⟨n, hn, rfl⟩ := List.mem_map.mp hid
    exact h.unused n (List.mem_range'_1.mp hn).1
  have honce : (new.map rowId).Nodup := by
    change (new.map fun row => row.value.id).Nodup
    rw [hids]
    exact (List.nodup_range' 1).map h.apart
  refine ⟨new, {
    sound := hadds.sound
    willing := h.willing.follows hadds.follows
    apart := by rw [hadds.follows.marks]; exact h.apart
    unused := ?_
    once := ?_
    adding := hadding
    erasedOnce := h.erasedOnce
    existed := ?_
    left := ?_
    known := ?_
    refused := h.refused
    log := h.log.trans hadds.log
    told := ?_ }⟩
  · intro n hn
    rw [hissued] at hn
    rw [hadds.follows.marks, List.map_append, List.mem_append, not_or]
    refine ⟨h.unused n (by omega), fun hmem => ?_⟩
    change _ ∈ new.map fun row => row.value.id at hmem
    rw [hids] at hmem
    obtain ⟨m, hm, heq⟩ := List.mem_map.mp hmem
    obtain rfl := h.apart heq
    have hbelow := (List.mem_range'_1.mp hm).2
    omega
  · rw [List.map_append, List.nodup_append]
    refine ⟨h.once, honce, ?_⟩
    rintro id hold _ hnew rfl
    exact hunused id hnew hold
  · intro id hid
    rw [List.map_append]
    exact List.mem_append_left _ (h.existed id hid)
  · have hkept : new.filter (fun row => rowId row ∉ x.erased) = new := by
      refine List.filter_eq_self.mpr fun row hrow => decide_eq_true fun hid => ?_
      exact hunused _ (List.mem_map_of_mem hrow) (h.existed _ hid)
    change g.store.tables.rules = _
    rw [hrows, List.filter_append]
    exact congrArg₂ (· ++ ·) h.left hkept.symm
  · intro d hd r hr
    obtain ⟨row, hrow, hknown⟩ := h.known d hd r hr
    exact ⟨row, List.mem_append_left _ hrow, hknown⟩
  · intro hsilent
    obtain ⟨hbefore, hstep⟩ := hsilent.parts h.log hadds.log
    exact (hadds.told hstep).trans (h.told hbefore)

/-- Whoever has the turn, the invariant is kept. -/
theorem turn_settling (h : Settling base born x) (turn : Turn) :
    ∃ more, Settling base (born ++ more) (x.step turn) := by
  have hsame : ∃ more, Settling base (born ++ more) x := ⟨[], by rwa [List.append_nil]⟩
  cases turn with
  | delete place =>
    cases hplace : x.deletions[place]? with
    | none => rwa [Shared.step_delete_none hplace]
    | some d =>
      obtain ⟨before, after, hsplit, hset⟩ := exists_split hplace
      have hnext := step_settling h hsplit (d.proceed_step h.willing)
      rw [Shared.step_delete hplace, hset]
      exact ⟨[], by rwa [List.append_nil]⟩
  | create place =>
    cases hplace : x.creations[place]? with
    | none => simpa only [Shared.step, hplace] using hsame
    | some p =>
      obtain ⟨hadds, hadding⟩ := (h.adding p (List.mem_of_getElem? hplace)).proceed h.sound
      simp only [Shared.step, hplace]
      refine h.add hadds fun q hq => ?_
      rcases List.mem_or_eq_of_mem_set hq with hq | rfl
      · exact h.adding q hq
      · exact hadding
  | work => exact h.add (work_adds h.sound) h.adding

theorem run_settling (h : Settling base born x) (turns : List Turn) :
    ∃ more, Settling base (born ++ more) (x.run turns) := by
  induction turns generalizing born x with
  | nil => exact ⟨[], by rwa [List.append_nil]⟩
  | cons turn turns ih =>
    obtain ⟨first, hfirst⟩ := turn_settling h turn
    obtain ⟨later, hlater⟩ := ih hfirst
    exact ⟨first ++ later, by rwa [← List.append_assoc]⟩

/-- Calls are about to begin on a registry whose rules are told apart by their identifiers. -/
theorem start_settling {g : Registry} (hg : g.store.Sound) (hw : g.store.Willing)
    (hids : g.store.ruleIds.Nodup) (hfresh : g.store.FreshIds)
    (deletions : List (String × Option String)) (creations : List Creation) :
    Settling g g.store.tables.rules (Shared.start g deletions creations) := by
  have hrowIds : g.store.tables.rules.map rowId = g.store.ruleIds := by
    rw [Store.ruleIds, List.map_map]
    rfl
  have hnone : (Shared.start g deletions creations).erased = [] := by
    simp only [Shared.erased, Shared.start, List.flatMap_map]
    exact List.flatMap_eq_nil_iff.mpr fun _ _ => rfl
  have hnone' : (Shared.start g deletions creations).events = [] := by
    simp only [Shared.events, Shared.start, List.flatMap_map]
    exact List.flatMap_eq_nil_iff.mpr fun _ _ => rfl
  have hasked : ∀ d ∈ (Shared.start g deletions creations).deletions, d.stage = .asked := by
    intro d hd
    obtain ⟨call, -, rfl⟩ := List.mem_map.mp hd
    rfl
  exact {
    sound := hg
    willing := hw
    apart := hfresh.apart
    unused := fun n hn => by rw [hrowIds]; exact hfresh.unused n hn
    once := by rw [hrowIds]; exact hids
    adding := by
      intro p hp
      obtain ⟨c, -, rfl⟩ := List.mem_map.mp hp
      exact c.script_adding
    erasedOnce := by rw [hnone]; exact List.nodup_nil
    existed := by rw [hnone]; simp
    left := by
      rw [hnone]
      simp [Shared.rows, Shared.start]
    known := fun d hd r hr => by simp [Deletion.rule?, hasked d hd] at hr
    refused := fun d hd f hf => by simp [hasked d hd] at hf
    log := List.prefix_refl _
    told := fun _ => by rw [hnone', List.append_nil]; exact List.Perm.refl _ }

/-! ## What becomes of calls and rows -/

theorem Deletion.proceed_call (d : Deletion) (g : Registry) :
    (d.proceed g).1.id = d.id ∧ (d.proceed g).1.actor = d.actor := by
  unfold proceed
  cases d.stage with
  | asked =>
    simp only
    rcases g.lookUp d.id "type" with ⟨f | r, u⟩ <;> exact ⟨rfl, rfl⟩
  | found r =>
    simp only
    rcases g.withStore fun s => s.deleteRule d.id with ⟨f | answer, u⟩ <;> exact ⟨rfl, rfl⟩
  | erased r | recorded r | failed f => exact ⟨rfl, rfl⟩

/-- The calls are those that began. -/
theorem run_calls (x : Shared) (turns : List Turn) :
    ((x.run turns).deletions.map fun d => (d.id, d.actor)) =
      x.deletions.map fun d => (d.id, d.actor) := by
  induction turns generalizing x with
  | nil => rfl
  | cons turn turns ih =>
    refine (ih (x.step turn)).trans ?_
    cases turn with
    | delete place =>
      cases hplace : x.deletions[place]? with
      | none => rw [Shared.step_delete_none hplace]
      | some d =>
        obtain ⟨before, after, hsplit, hset⟩ := exists_split hplace
        obtain ⟨hid, hactor⟩ := d.proceed_call x.registry
        simp only [Shared.step_delete hplace, hset]
        rw [hsplit, List.map_append, List.map_append, List.map_cons, List.map_cons, hid, hactor]
    | create place => rw [Shared.step_create_deletions]
    | work => rfl

/-- A call that has deleted a row has its end before it. -/
theorem Deletion.taken_cases {d : Deletion} {id : String} (hid : id ∈ d.taken) :
    d.id = id ∧ ∃ r, d.stage = .erased r ∨ d.stage = .recorded r := by
  unfold taken at hid
  cases hstage : d.stage with
  | erased r =>
    simp only [hstage] at hid
    exact ⟨(List.mem_singleton.mp hid).symm, r, .inl rfl⟩
  | recorded r =>
    simp only [hstage] at hid
    exact ⟨(List.mem_singleton.mp hid).symm, r, .inr rfl⟩
  | asked | found r | failed f =>
    simp only [hstage] at hid
    cases hid

/-- A call does not give back what it has deleted. -/
theorem Deletion.proceed_taken {d : Deletion} {id : String} (hid : id ∈ d.taken) (g : Registry) :
    id ∈ (d.proceed g).1.taken := by
  obtain ⟨rfl, r, hstage | hstage⟩ := taken_cases hid
  · simp [proceed, hstage, taken, now]
  · simp [proceed, hstage, taken]

/-- A row with this identifier has been deleted, or the call at a place is still to do so. -/
def Pursued (place : Nat) (id : String) (x : Shared) : Prop :=
  id ∈ x.erased ∨ ∃ d, x.deletions[place]? = some d ∧ d.id = id ∧
    (d.stage = .asked ∨ ∃ r, d.stage = .found r)

theorem erased_mono {id : String} (hid : id ∈ x.erased) (turn : Turn) :
    id ∈ (x.step turn).erased := by
  cases turn with
  | delete place =>
    cases hplace : x.deletions[place]? with
    | none => rwa [Shared.step_delete_none hplace]
    | some d =>
      obtain ⟨before, after, hsplit, hset⟩ := exists_split hplace
      rw [Shared.erased, hsplit] at hid
      simp only [Shared.step_delete hplace, hset, Shared.erased]
      simp only [List.flatMap_append, List.flatMap_cons, List.mem_append] at hid ⊢
      exact hid.imp_right (Or.imp_left fun h => d.proceed_taken h x.registry)
  | create place => rwa [Shared.erased, Shared.step_create_deletions]
  | work => exact hid

theorem turn_pursued (h : Settling base born x) {place : Nat} {id : String}
    (hborn : id ∈ born.map rowId) (hp : Pursued place id x) (turn : Turn) :
    Pursued place id (x.step turn) := by
  rcases hp with herased | ⟨d, hd, hid, hopen⟩
  · exact .inl (erased_mono herased turn)
  obtain ⟨row, hrow, hrowId⟩ := List.mem_map.mp hborn
  have hmissing (hnone : x.registry.store.tables.rule? d.id = none) :
      Pursued place id (x.step turn) :=
    .inl (erased_mono (hid ▸ h.missing_row hnone hrow (hrowId.trans hid.symm)) turn)
  cases turn with
  | delete other =>
    by_cases hsame : other = place
    · subst hsame
      have hlength : other < x.deletions.length := (List.getElem?_eq_some_iff.mp hd).1
      have hstep := d.proceed_step h.willing
      have hthere : (x.step (.delete other)).deletions[other]? =
          some (d.proceed x.registry).1 := by
        rw [Shared.step_delete hd, List.getElem?_set_self hlength]
      generalize d.proceed x.registry = o at hstep hthere
      cases hstep with
      | finds hstage hrule => exact .inr ⟨_, hthere, hid, .inr ⟨_, rfl⟩⟩
      | misses hstage hnone => exact hmissing hnone
      | comesLate hstage hnone => exact hmissing hnone
      | erases hstage hrule =>
        refine .inl (List.mem_flatMap.mpr ⟨_, List.mem_of_getElem? hthere, ?_⟩)
        simp [Deletion.taken, Deletion.now, hid]
      | records hstage => simp [hstage] at hopen
      | rests hover =>
        rcases hopen with hstage | ⟨r, hstage⟩
        all_goals simp [Deletion.result?, hstage] at hover
    · refine .inr ⟨d, ?_, hid, hopen⟩
      cases hother : x.deletions[other]? with
      | none => rwa [Shared.step_delete_none hother]
      | some e => rwa [Shared.step_delete hother, List.getElem?_set_ne hsame]
  | create other => exact .inr ⟨d, by rwa [Shared.step_create_deletions], hid, hopen⟩
  | work => exact .inr ⟨d, hd, hid, hopen⟩

theorem run_pursued (h : Settling base born x) {place : Nat} {id : String}
    (hborn : id ∈ born.map rowId) (hp : Pursued place id x) (turns : List Turn) :
    Pursued place id (x.run turns) := by
  induction turns generalizing born x with
  | nil => exact hp
  | cons turn turns ih =>
    obtain ⟨more, hmore⟩ := turn_settling h turn
    refine ih hmore ?_ (turn_pursued h hborn hp turn)
    rw [List.map_append]
    exact List.mem_append_left _ hborn

/-- The events among these that are on the deletion of the rule with an identifier. -/
def deletionsOf (id : String) (cs : List Audit.Content) : List Audit.Content :=
  cs.filter fun c => c.2.1 = .ruleDeleted ∧ c.2.2.2.1 = id

/-- What has become of a row of a rule that was there earlier, and of the calls on the rule, once
they are over. -/
inductive Settled (base : Registry) (earlier : Shared) (row : Row Rule) (x : Shared) : Prop
  /-- The row is there as it was, since every call on the rule had failed before it came in. -/
  | kept (hrow : row ∈ x.rows)
    (hearly : ∀ d ∈ earlier.deletions, d.id = rowId row →
      d.result? = some (.error (.unknownRule d.id)))
    (hrefused : ∀ d ∈ x.deletions, d.id = rowId row →
      d.result? = some (.error (.unknownRule d.id)))
    (htold : (deletionsOf (rowId row) x.registry.flush.trail).Perm
      (deletionsOf (rowId row) base.voiced))
  /-- The row is gone. One call has succeeded, every other one has failed, and one event has been
  written. -/
  | gone {before after : List Deletion} {d : Deletion} (hnone : ∀ q ∈ x.rows, rowId q ≠ rowId row)
    (hcalls : x.deletions = before ++ d :: after) (hid : d.id = rowId row)
    (hdone : d.result? = some (.ok ()))
    (hrefused : ∀ e ∈ before ++ after, e.id = rowId row →
      e.result? = some (.error (.unknownRule e.id)))
    (htold : (deletionsOf (rowId row) x.registry.flush.trail).Perm
      (deletionsOf (rowId row) base.voiced ++
        [(deletedNote row.value (rowId row) d.actor).content]))

/-- A call that is over has deleted a row, or has failed because there was no rule. -/
theorem Settling.over (h : Settling base born x) {d : Deletion} (hd : d ∈ x.deletions)
    (hover : d.result?.isSome = true) :
    (∃ r, d.stage = .recorded r) ∨ d.result? = some (.error (.unknownRule d.id)) := by
  cases hstage : d.stage with
  | recorded r => exact .inl ⟨r, rfl⟩
  | failed f =>
    obtain rfl := h.refused d hd f hstage
    exact .inr (by simp [Deletion.result?, hstage])
  | asked | found r | erased r => simp [Deletion.result?, hstage] at hover

/-- A call on a rule whose row is still there has deleted nothing. -/
theorem Settling.refused_of_stored (h : Settling base born x) {id : String}
    (hstored : id ∉ x.erased) {d : Deletion} (hd : d ∈ x.deletions) (hid : d.id = id)
    (hover : d.result?.isSome = true) : d.result? = some (.error (.unknownRule d.id)) := by
  rcases h.over hd hover with ⟨r, hstage⟩ | hrefused
  · refine absurd (List.mem_flatMap.mpr ⟨d, hd, ?_⟩) hstored
    simp [Deletion.taken, hstage, hid]
  · exact hrefused

/-- Of the events of calls that have failed none is left. -/
theorem deletionsOf_events_of_refused {id : String} {calls : List Deletion}
    (hrefused : ∀ e ∈ calls, e.id = id → e.result? = some (.error (.unknownRule e.id))) :
    deletionsOf id (calls.flatMap Deletion.events) = [] := by
  refine List.filter_eq_nil_iff.mpr fun c hc => ?_
  obtain ⟨e, he, hce⟩ := List.mem_flatMap.mp hc
  cases hstage : e.stage with
  | recorded r =>
    have hother : e.id ≠ id := by
      intro hid
      simpa [Deletion.result?, hstage] using hrefused e he hid
    simp only [Deletion.events, hstage, List.mem_singleton] at hce
    subst hce
    simpa [deletedNote, Audit.Note.content] using hother
  | asked | found r | erased r | failed f =>
    simp only [Deletion.events, hstage] at hce
    cases hce

theorem deletionsOf_told (g : Registry) (id : String) :
    (g.told.filter fun c => c.2.2.2.1 = id) = deletionsOf id g.voiced := by
  rw [told, deletionsOf, List.filter_filter]
  refine List.filter_congr fun c _ => ?_
  simp [and_comm]

theorem deletionsOf_events (x : Shared) (id : String) :
    (x.events.filter fun c => c.2.2.2.1 = id) = deletionsOf id x.events := by
  refine List.filter_congr fun c hc => ?_
  obtain ⟨d, -, hcd⟩ := List.mem_flatMap.mp hc
  unfold Deletion.events at hcd
  split at hcd
  · obtain rfl := List.mem_singleton.mp hcd
    exact decide_eq_decide.mpr (by simp [deletedNote, Audit.Note.content])
  · cases hcd

/-- Once nothing waits, the events that are written are those there were and those of the calls. -/
theorem Settling.written (h : Settling base born x) (hsilent : Silent base x.registry.flush)
    (id : String) : (deletionsOf id x.registry.flush.trail).Perm
      (deletionsOf id base.voiced ++ deletionsOf id x.events) := by
  have hflush := flush_voices h.sound
  obtain ⟨hbefore, hafter⟩ := hsilent.parts h.log hflush.log
  have htrail : x.registry.flush.voiced = x.registry.flush.trail := by
    rw [voiced, flush_queue h.sound, List.map_nil, List.append_nil]
  have htold := hflush.told hafter
  rw [List.filter_nil, List.append_nil] at htold
  have hperm := (htold.trans (h.told hbefore)).filter fun c => c.2.2.2.1 = id
  rwa [List.filter_append, deletionsOf_told, deletionsOf_told, deletionsOf_events, htrail] at hperm

/-- The call that has deleted a row has succeeded once it is over, and it knew the rule. -/
theorem Settling.recorded_of_taken (h : Settling base born x) {row : Row Rule} (hrow : row ∈ born)
    {d : Deletion} (hd : d ∈ x.deletions) (htaken : rowId row ∈ d.taken)
    (hover : d.result?.isSome = true) : d.id = rowId row ∧ d.stage = .recorded row.value := by
  obtain ⟨hid, r, hstage | hstage⟩ := Deletion.taken_cases htaken
  · simp [Deletion.result?, hstage] at hover
  · obtain ⟨q, hq, rfl, hqid⟩ := h.known d hd r (by simp [Deletion.rule?, hstage])
    -- the rule that the call knows is that of the row, since identifiers are given out once
    have hsame : q = row := List.inj_on_of_nodup_map h.once hq hrow (hqid.trans hid)
    exact ⟨hid, by rw [hstage, hsame]⟩

/-- Of the calls on a row that has been deleted one has done that, and the others have failed. -/
theorem Settling.winner (h : Settling base born x) {row : Row Rule} (hrow : row ∈ born)
    (herased : rowId row ∈ x.erased)
    (hover : ∀ d ∈ x.deletions, d.id = rowId row → d.result?.isSome = true) :
    ∃ before d after, x.deletions = before ++ d :: after ∧ d.id = rowId row ∧
      d.stage = .recorded row.value ∧ ∀ e ∈ before ++ after, e.id = rowId row →
        e.result? = some (.error (.unknownRule e.id)) := by
  obtain ⟨d, hd, htaken⟩ := List.mem_flatMap.mp herased
  obtain ⟨hid, hstage⟩ := h.recorded_of_taken hrow hd htaken
    (hover d hd (Deletion.taken_cases htaken).1)
  obtain ⟨before, after, hsplit⟩ := List.append_of_mem hd
  -- the identifier is among those that the calls have deleted once only
  have honce : (rowId row :: (before ++ after).flatMap Deletion.taken).Nodup := by
    have hperm : x.erased.Perm (d.taken ++ (before ++ after).flatMap Deletion.taken) := by
      rw [Shared.erased, hsplit]
      exact List.perm_middle.flatMap_right Deletion.taken
    have hown : d.taken = [rowId row] := by simp [Deletion.taken, hstage, hid]
    rw [hown] at hperm
    exact hperm.nodup_iff.mp h.erasedOnce
  refine ⟨before, d, after, hsplit, hid, hstage, fun e he heid => ?_⟩
  have heall : e ∈ x.deletions := by
    rw [hsplit]
    exact List.perm_middle.mem_iff.mpr (List.mem_cons_of_mem _ he)
  rcases h.over heall (hover e heall heid) with ⟨r, hestage⟩ | hrefused
  · refine absurd (List.mem_flatMap.mpr ⟨e, he, ?_⟩) (List.nodup_cons.mp honce).1
    simp [Deletion.taken, hestage, heid]
  · exact hrefused

/-- Once the calls on a row are over, the row and the calls are settled. -/
theorem Settling.settled {earlier : Shared} (h : Settling base born x)
    (hsilent : Silent base x.registry.flush) {row : Row Rule} (hrow : row ∈ born)
    (hearly : rowId row ∉ x.erased → ∀ d ∈ earlier.deletions, d.id = rowId row →
      d.result? = some (.error (.unknownRule d.id)))
    (hover : ∀ d ∈ x.deletions, d.id = rowId row → d.result?.isSome = true) :
    Settled base earlier row x := by
  have hwritten := h.written hsilent (rowId row)
  by_cases herased : rowId row ∈ x.erased
  · obtain ⟨before, d, after, hsplit, hid, hstage, hrefused⟩ := h.winner hrow herased hover
    refine .gone (fun q hq hqid => ?_) hsplit hid (by simp [Deletion.result?, hstage]) hrefused ?_
    · exact (h.mem_rows_iff.mp hq).2 (hqid ▸ herased)
    · obtain ⟨hbefore, hafter⟩ := List.forall_mem_append.mp hrefused
      have hone : deletionsOf (rowId row) x.events =
          [(deletedNote row.value (rowId row) d.actor).content] := by
        have hevents : d.events = [(deletedNote row.value (rowId row) d.actor).content] := by
          simp [Deletion.events, hstage, hid]
        rw [Shared.events, hsplit, List.flatMap_append, List.flatMap_cons, deletionsOf,
          List.filter_append, List.filter_append, ← deletionsOf, ← deletionsOf, ← deletionsOf,
          deletionsOf_events_of_refused hbefore, deletionsOf_events_of_refused hafter, hevents]
        simp [deletionsOf, deletedNote, Audit.Note.content]
      rwa [hone] at hwritten
  · have hrefused : ∀ d ∈ x.deletions, d.id = rowId row →
        d.result? = some (.error (.unknownRule d.id)) :=
      fun d hd hid => h.refused_of_stored herased hd hid (hover d hd hid)
    refine .kept (h.mem_rows_iff.mpr ⟨hrow, herased⟩) (hearly herased) hrefused ?_
    rwa [Shared.events, deletionsOf_events_of_refused hrefused, List.append_nil] at hwritten

/-- However the steps of calls that delete rules and of calls that create some come one after the
other: if no identifier is given out twice and every event can be written, then once the calls on a
row that was there at some time are over, that row is as it was and none of them has succeeded, or
it is gone, exactly one of them has succeeded, and one event on that has been written. -/
theorem deletions_settle {g : Registry} (hg : g.store.Sound) (hw : g.store.Willing)
    (hids : g.store.ruleIds.Nodup) (hfresh : g.store.FreshIds)
    (calls : List (String × Option String)) (creations : List Creation) (earlier later : List Turn)
    (hsilent :
      Silent g ((Shared.start g calls creations).run (earlier ++ later)).registry.flush)
    {row : Row Rule} (hrow : row ∈ ((Shared.start g calls creations).run earlier).rows)
    (hover : ∀ d ∈ ((Shared.start g calls creations).run (earlier ++ later)).deletions,
      d.id = rowId row → d.result?.isSome = true) :
    (((Shared.start g calls creations).run (earlier ++ later)).deletions.map fun d =>
        (d.id, d.actor)) = calls ∧
      Settled g ((Shared.start g calls creations).run earlier) row
        ((Shared.start g calls creations).run (earlier ++ later)) := by
  obtain ⟨first, hearlier⟩ :=
    run_settling (start_settling hg hw hids hfresh calls creations) earlier
  have hsplit : (Shared.start g calls creations).run (earlier ++ later) =
      ((Shared.start g calls creations).run earlier).run later := List.foldl_append
  have hcalls :
      ((Shared.start g calls creations).deletions.map fun d => (d.id, d.actor)) = calls := by
    simp [Shared.start, Function.comp_def]
  rw [hsplit] at hsilent hover ⊢
  rw [run_calls, run_calls]
  refine ⟨hcalls, ?_⟩
  generalize (Shared.start g calls creations).run earlier = x at *
  obtain ⟨more, hlater⟩ := run_settling hearlier later
  obtain ⟨hborn, hstored⟩ := hearlier.mem_rows_iff.mp hrow
  refine hlater.settled hsilent (List.mem_append_left _ hborn) (fun hleft d hd hid => ?_) hover
  -- a call that was not over would have gone for the row
  by_contra hopen
  obtain ⟨place, hplace⟩ := List.mem_iff_getElem?.mp hd
  have hpursued : Pursued place (rowId row) x := by
    refine .inr ⟨d, hplace, hid, ?_⟩
    cases hstage : d.stage with
    | asked => exact .inl rfl
    | found r => exact .inr ⟨r, rfl⟩
    | erased r | recorded r =>
      refine absurd (List.mem_flatMap.mpr ⟨d, hd, ?_⟩) hstored
      simp [Deletion.taken, hstage, hid]
    | failed f =>
      refine absurd ?_ hopen
      rw [← hearlier.refused d hd f hstage]
      simp [Deletion.result?, hstage]
  rcases run_pursued hearlier (List.mem_map_of_mem hborn) hpursued later with
    herased | ⟨e, he, heid, hstage⟩
  · exact hleft herased
  · have hdone := hover e (List.mem_of_getElem? he) heid
    rcases hstage with hstage | ⟨r, hstage⟩
    all_goals simp [Deletion.result?, hstage] at hdone

/-- A registry without rows, whose events a worker writes. -/
def attended : Registry where
  store := { marks := Store.strokeMarks }
  isDeferred := true

def rushed : Shared :=
  .start attended [("|", some "ann"), ("|", none), ("||", none)]
    [.one someRecord none, .one otherRecord none]

/-- Two rules are created. A call on the second of them comes too early, and two on the first one
look it up before either deletes its row. -/
def rush : List Turn :=
  [.delete 2, .create 0, .create 0, .create 0, .create 1, .delete 0, .delete 1, .create 1,
    .create 1]

/-- The later one of the two is the first to delete the row. -/
def rushOver : List Turn :=
  [.delete 1, .work, .delete 0, .delete 1, .work]

/-- The row of the rule that is deleted. -/
def rushedRow : Row Rule where
  rank := .whole 1
  value := ⟨"|", someDraft, Store.strokeMarks.time⟩

/-- The call that is the first to delete the row succeeds, and there is one event. -/
theorem deletions_settle_rush :
    (rushed.run rush).rows.map rowId = ["|", "||"] ∧
      (rushed.run (rush ++ rushOver)).deletions.map Deletion.result? =
        [some (.error (.unknownRule "|")), some (.ok ()), some (.error (.unknownRule "||"))] ∧
      deletionsOf "|" (rushed.run (rush ++ rushOver)).registry.flush.trail =
        [(deletedNote rushedRow.value "|" none).content] ∧
      Settled attended (rushed.run rush) rushedRow (rushed.run (rush ++ rushOver)) := by
  have hresults : (rushed.run (rush ++ rushOver)).deletions.map Deletion.result? =
      [some (.error (.unknownRule "|")), some (.ok ()), some (.error (.unknownRule "||"))] := rfl
  have hsilent : Silent attended (rushed.run (rush ++ rushOver)).registry.flush := by
    refine ⟨(rushed.run (rush ++ rushOver)).registry.flush.log, (List.nil_append _).symm, ?_⟩
    rintro e he n f rfl
    have hcalm : ∀ e ∈ (rushed.run (rush ++ rushOver)).registry.flush.log, e.level ≠ .warning := by
      decide +kernel
    exact hcalm _ he rfl
  have hover : ∀ d ∈ (rushed.run (rush ++ rushOver)).deletions,
      d.id = rowId rushedRow → d.result?.isSome = true := by
    intro d hd _
    have hall : ∀ o ∈ (rushed.run (rush ++ rushOver)).deletions.map Deletion.result?,
        o.isSome = true := by
      rw [hresults]
      simp
    exact hall _ (List.mem_map_of_mem hd)
  have hsettled := (deletions_settle (Reachable.start Store.strokeMarks true).sound
    ⟨rfl, rfl, fun op _ => Store.calm_nil op⟩ List.nodup_nil
    ⟨Store.strokes_injective, fun _ _ => List.not_mem_nil⟩ _ _ rush rushOver hsilent
    (List.mem_cons_self) hover).2
  exact ⟨by decide +kernel, hresults, by decide +kernel, hsettled⟩

end MailRules.Registry
