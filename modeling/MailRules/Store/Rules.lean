import MailRules.Store.Row

set_option autoImplicit false

/-!
# Rules in the store

Rules are written one by one or several in one transaction, found by their identifier, listed newest
first, and deleted. A rule is given back as it was written; what the store keeps of its confidence
is a float.
-/

namespace MailRules.Store

/-- The rule that a draft becomes next. -/
def nextRule (s : Store) (d : Draft) : Rule :=
  ⟨s.marks.rule s.tables.issued.rules, d, s.marks.time⟩

/-- Adds a rule with a rank. -/
def addRule (s : Store) (rank : Rank) (r : Rule) : Store :=
  { s with tables := { s.tables with
      rules := s.tables.rules ++ [⟨rank, keptRule r⟩]
      issued := { s.tables.issued with rules := s.tables.issued.rules + 1 } } }

/-- The place of the column of ranks in the table of rules, counted from one. -/
def ruleRankPlace : Nat := 9

/-- Gives a rank to a rule with a confidence and goes on with what is kept of it, if both can be
kept. -/
def ranked {α : Type} (s : Store) (confidence : Option Number)
    (instead : Json → Except Failure α) (work : Option Rank → Store → Outcome α) : Outcome α :=
  match s.giveRank with
  | (.error f, s) => (.error f, s)
  | (.ok v, s) =>
    s.statement instead fun s =>
      if confidence.all Number.fits then
        match keptRank ruleRankPlace v with
        | .error f => (.error f, s)
        | .ok rank => work rank s
      else (.error .outOfRange, s)

/-- Writes a rule inside a transaction. -/
def writeRule (s : Store) (d : Draft) : Outcome (Answer Rule) :=
  s.answered .writeRule none fun s =>
    s.ranked d.confidence (fun _ => .ok (.given (s.nextRule d))) fun rank s =>
      match rank with
      | some rank => (.ok (.given (s.nextRule d)), s.addRule rank (s.nextRule d))
      | none => (.error (.store (.missing "rules.seq")), s)

/-- Writes rules inside a transaction, up to the first that fails. -/
def writeRules (s : Store) : List Draft → Outcome (List (Answer Rule))
  | [] => (.ok [], s)
  | d :: ds =>
    match s.writeRule d with
    | (.error f, s) => (.error f, s)
    | (.ok r, s) =>
      match writeRules s ds with
      | (.error f, s) => (.error f, s)
      | (.ok rs, s) => (.ok (r :: rs), s)

/-- Writes one rule. -/
def insertRule (s : Store) (d : Draft) : Outcome (Answer Rule) :=
  s.answered .insertRule none fun s => s.transaction fun s => s.writeRule d

/-- Writes all rules or none. -/
def insertRules (s : Store) (ds : List Draft) : Outcome (Answer (List (Answer Rule))) :=
  s.answered .insertRules none fun s =>
    Outcome.given <| s.transaction fun s => s.writeRules ds

/-- Takes a row for a rule. -/
def readRule (s : Store) (row : Answer Rule) : Outcome (Answer Rule) :=
  s.answered .readRule none fun s => Outcome.given (row.take ruleIn, s)

/-- Takes rows for rules, up to the first that fails. -/
def readRules (s : Store) : List (Answer Rule) → Outcome (List (Answer Rule))
  | [] => (.ok [], s)
  | row :: rows =>
    match s.readRule row with
    | (.error f, s) => (.error f, s)
    | (.ok r, s) =>
      match readRules s rows with
      | (.error f, s) => (.error f, s)
      | (.ok rs, s) => (.ok (r :: rs), s)

/-- The rule with an identifier. -/
def findRule (s : Store) (id : String) : Outcome (Answer (Option Rule)) :=
  s.answered .findRule (some id) fun s =>
    match s.question fun t => .ok (t.rule? id).toList with
    | (.error f, s) => (.error f, s)
    | (.ok rows, s) =>
      match firstRow? rows with
      | .error f => (.error f, s)
      | .ok none => (.ok (.given none), s)
      | .ok (some row) =>
        match s.readRule row with
        | (.error f, s) => (.error f, s)
        | (.ok r, s) => (.ok (r.map some), s)

/-- Erases the rule with an identifier inside a transaction and tells whether there was one. -/
def eraseRule (s : Store) (id : String) : Outcome Bool :=
  s.statement (lacking "rowcount") fun s =>
    (.ok (s.tables.rule? id).isSome, { s with tables := { s.tables with
      rules := s.tables.rules.filter (·.value.id ≠ id) } })

/-- Deletes the rule with an identifier and tells whether there was one. -/
def deleteRule (s : Store) (id : String) : Outcome (Answer Bool) :=
  s.answered .deleteRule (some id) fun s =>
    Outcome.given <| s.transaction fun s => s.eraseRule id

/-- The rules, newest first, of one action or all. -/
def listRules (s : Store) (action : Option RuleAction) :
    Outcome (Answer (List (Answer Rule))) :=
  s.answered .listRules (action.map RuleAction.name) fun s =>
    let asked := s.question fun t =>
      let rules := newestFirst t.rules
      .ok (match action with
        | some a => rules.filter (·.draft.action = a)
        | none => rules)
    match asked with
    | (.error f, s) => (.error f, s)
    | (.ok rows, s) =>
      match eachRow rows with
      | .error f => (.error f, s)
      | .ok rows => Outcome.given (s.readRules rows)

/-- Writes rules in one transaction and goes on inside it. -/
def insertRulesAnd {α : Type} (s : Store) (ds : List Draft)
    (work : List (Answer Rule) → Store → Outcome α) : Outcome α :=
  s.transaction fun s =>
    match s.writeRules ds with
    | (.error f, s) => (.error f, s)
    | (.ok rs, s) => work rs s

/-! ## Rules without a pattern -/

/-- Refuses a rule without a pattern inside a transaction. -/
def refuseRule (s : Store) (confidence : Option Number) : Outcome (Answer Rule) :=
  s.answered .writeRule none fun s =>
    s.ranked confidence (fun v => .ok (.instead v)) fun _ s =>
      (.error (.store (.missing "rules.pattern")), s)

/-- Tries to write one rule without a pattern. -/
def insertUnfinished (s : Store) (confidence : Option Number) : Outcome (Answer Rule) :=
  s.answered .insertRule none fun s => s.transaction fun s => s.refuseRule confidence

/-- Tries to write rules, and one without a pattern after them. -/
def insertUpToUnfinished (s : Store) (ds : List Draft) (confidence : Option Number) :
    Outcome (Answer (List (Answer Rule))) :=
  s.answered .insertRules none fun s =>
    Outcome.given <| s.insertRulesAnd ds fun rs s =>
      match s.refuseRule confidence with
      | (.ok r, s) => (.ok (rs ++ [r]), s)
      | (.error f, s) => (.error f, s)

end MailRules.Store
