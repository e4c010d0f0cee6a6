import MailRules.Registry.Basic

set_option autoImplicit false

/-!
# The life of rules

Rules are created from records, one by one or as a batch, and deleted by their identifiers. A record
is brought into canonical form on the way; stored rules are never changed.

A batch is stored as a whole or not at all. Of records that are the same rule it keeps the first.

Each change that has been made is recorded in the audit trail afterwards.
-/

namespace MailRules.Registry

/-- A line of the log on the life of rules. -/
def note (level : Log.Level) (message : String) : Log.Entry :=
  ⟨level, "rule_store", message⟩

/-- The entity that events on rules name. -/
def ruleEntity : String := "rule"

/-- The member for a text, unless it is absent. -/
def memberOf (name : String) (text : Option String) : Members Json :=
  (text.map fun s => (name, Json.str s)).toList

/-- The details of an event on a rule, and the reason for it if there is one. -/
def ruleDetails (r : Rule) (reason : Option String) : Members Json :=
  [("type", .str r.draft.kind.name), ("pattern", .str r.draft.pattern),
    ("action", .str r.draft.action.name)] ++
    memberOf "unless_contains" (r.draft.exception.filter (· ≠ "")) ++ memberOf "reason" reason

/-- Records that a rule was created. -/
def recordCreated (g : Registry) (reason actor : Option String) (r : Rule) : Registry :=
  g.record .ruleCreated ruleEntity r.id (ruleDetails r reason) actor

/-- Says in the log that a rule was created. -/
def sayCreated (g : Registry) (r : Rule) : Registry :=
  g.sayAll [note .info s!"Created {r.draft.action.name} rule {r.id} ({r.draft.kind.name})",
    Log.valueLine .debug "Stored rule" (.ofJson r.toJson)]

/-- Creates a rule from a draft in canonical form. -/
def createCanonical (g : Registry) (d : Draft) (actor : Option String) : Outcome Rule :=
  match g.taking (Store.lacking "action") fun s => s.insertRule d with
  | (.error f, g) => (.error f, g)
  | (.ok r, g) => (.ok r, (g.sayCreated r).recordCreated none actor r)

/-- The canonical draft of a record. -/
def canonicalOf (record : Json) : Except Rejection Draft :=
  (Draft.ofRecord record).bind Draft.canonicalize

/-- Creates a rule from a record. -/
def create (g : Registry) (record : Json) (actor : Option String) : Outcome Rule :=
  match canonicalOf record with
  | .error r => (.error (.rejected r), g)
  | .ok d => g.createCanonical d actor

/-- The drafts that are not the same rule as an earlier one, nor as one that has been seen. -/
def distinct (seen : List Draft.Key) : List Draft → List Draft
  | [] => []
  | d :: ds =>
    if seen.contains d.key then distinct seen ds else d :: distinct (d.key :: seen) ds

/-- The canonical drafts of a batch, or everything that is wrong with it. -/
def canonicalBatch (drafts : List Draft) : Except Rejection (List Draft) :=
  match checkAll Draft.canonicalize 0 drafts with
  | (ds, []) => .ok ds
  | (_, issues) => .error (.batch issues drafts.length)

/-- The rules at the start of answers, up to the first value in place of one, and that value. -/
def leading : List (Store.Answer Rule) → List Rule × Option Json
  | [] => ([], none)
  | .instead v :: _ => ([], some v)
  | .given r :: as => (r :: (leading as).1, (leading as).2)

/-- The line on a batch of so many rules, of which some records were left out as duplicates. -/
def batchLine (rules duplicates : Nat) : Log.Entry :=
  note .info s!"Bulk created {rules} rule(s), collapsed {duplicates} duplicate(s)"

/-- Reports that a batch was created, of which some records were left out as duplicates. -/
def reportBatch (g : Registry) (as : List (Store.Answer Rule)) (duplicates : Nat)
    (actor reason : Option String) : Outcome (List Rule) :=
  let (rs, other) := leading as
  let g := rs.foldl (recordCreated · reason actor) (g.say (batchLine as.length duplicates))
  match other with
  | none => (.ok rs, g)
  | some v => (Store.lacking "id" v, g)

/-- Creates rules from canonical drafts, of which some were left out as duplicates. -/
def createDistinct (g : Registry) (ds : List Draft) (duplicates : Nat)
    (actor reason : Option String) : Outcome (List Rule) :=
  match g.taking (fun v => (Store.counted v).map (·.map .instead)) fun s => s.insertRules ds with
  | (.error f, g) => (.error f, g)
  | (.ok as, g) => g.reportBatch as duplicates actor reason

/-- Creates rules from a batch of records. -/
def createBatch (g : Registry) (records : Json) (actor reason : Option String) :
    Outcome (List Rule) :=
  match Draft.ofBatch records with
  | .error f => (.error f, g)
  | .ok drafts =>
    match canonicalBatch drafts with
    | .error r => (.error (.rejected r), g)
    | .ok ds =>
      let kept := distinct [] ds
      g.createDistinct kept (ds.length - kept.length) actor reason

/-- What a value in place of the rule that is looked up comes to. -/
def insteadOfRule (member : String) : Json → Except Failure (Option Rule)
  | .null => .ok none
  | v => Store.lacking member v

/-- The rule that has been looked up, if there is one. -/
def found (g : Registry) (id : String) : Option Rule → Outcome Rule
  | none => (.error (.unknownRule id), g)
  | some r => (.ok r, g)

/-- The rule with an identifier; `member` is what is asked of it first. -/
def lookUp (g : Registry) (id member : String) : Outcome Rule :=
  match g.taking (insteadOfRule member) fun s => s.findRule id with
  | (.error f, g) => (.error f, g)
  | (.ok r, g) => g.found id r

/-- The rule with an identifier. -/
def get (g : Registry) (id : String) : Outcome Rule :=
  g.lookUp id "to_dict"

/-- Deletes the row of a rule that has been looked up. -/
def deleteFound (g : Registry) (r : Rule) (id : String) (actor : Option String) : Outcome Unit :=
  match g.withStore fun s => s.deleteRule id with
  | (.error f, g) => (.error f, g)
  | (.ok answer, g) =>
    if answer.isTruthy then
      (.ok (), (g.say (note .info s!"Deleted rule {id}")).record .ruleDeleted ruleEntity id
        (ruleDetails r none) actor)
    else (.error (.unknownRule id), g)

/-- Deletes the rule with an identifier. -/
def delete (g : Registry) (id : String) (actor : Option String) : Outcome Unit :=
  match g.lookUp id "type" with
  | (.error f, g) => (.error f, g)
  | (.ok r, g) => g.deleteFound r id actor

/-- The rules, newest first, of one action or all. -/
def list (g : Registry) (action : Option RuleAction) : Outcome (List Rule) :=
  g.takingEach "to_dict" fun s => s.listRules action

end MailRules.Registry
