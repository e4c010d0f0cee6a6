import MailRules.Failure.Basic

set_option autoImplicit false

/-!
# Answers of the store

An operation of the store that is disturbed may give any value in place of its answer. What is done
with answers fails with such a value at the first thing that it does not have, which depends on what
is asked of it: so it is the one who gets an answer who says how to take it.
-/

namespace MailRules.Store

/-- An answer of the store, or a value in its place. -/
inductive Answer (α : Type)
  | given (a : α)
  | instead (v : Json)
  deriving Inhabited

namespace Answer

variable {α : Type}

/-- The answer, or what is made of a value in its place. -/
def take (instead : Json → Except Failure α) : Answer α → Except Failure α
  | given a => .ok a
  | .instead v => instead v

/-- An answer made into another; a value in its place stays. -/
def map {β : Type} (f : α → β) : Answer α → Answer β
  | given a => given (f a)
  | instead v => instead v

/-- Whether an answer counts as true. -/
def isTruthy : Answer Bool → Bool
  | given b => b
  | instead v => v.isTruthy

/-- An answer as JSON. -/
def toJson (f : α → Json) : Answer α → Json
  | given a => f a
  | instead v => v

@[simp] theorem take_given (instead : Json → Except Failure α) (a : α) :
    (given a).take instead = .ok a := rfl

end Answer

/-- A value that is asked for a member which it does not have. -/
def lacking {α : Type} (member : String) (v : Json) : Except Failure α :=
  .error (.noMember v.kindName member)

/-- The things that come one by one out of a value. -/
def parts? : Json → Option (List Json)
  | .array vs => some vs
  | .object ms => some (ms.map fun m => .str m.1)
  | .str s => some (s.toList.map fun c => .str (String.ofList [c]))
  | _ => none

/-- A value whose parts are each asked for a member that they do not have. -/
def partsLacking {α : Type} (member : String) (v : Json) : Except Failure (List α) :=
  match parts? v with
  | none => .error (.notIterable v.kindName)
  | some [] => .ok []
  | some (w :: _) => lacking member w

/-- The items of an answer, each of which is asked for a member that values in their place do not
have. -/
def Answer.takeEach {α : Type} (member : String) :
    Answer (List (Answer α)) → Except Failure (List α)
  | .given items => items.mapM fun a => a.take (lacking member)
  | .instead v => partsLacking member v

/-- The parts of a value that is asked for their number first. -/
def counted (v : Json) : Except Failure (List Json) :=
  match parts? v with
  | some vs => .ok vs
  | none => .error (.noLength v.kindName)

end MailRules.Store
