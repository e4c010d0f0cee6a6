import MailRules.Document

set_option autoImplicit false

/-!
# Layers of configuration

A configuration may be laid over another. Where both have a mapping, the mappings are laid over
each other entry by entry; elsewhere the value of the upper layer holds.
-/

namespace MailRules.Document

mutual

/-- A value laid over what stands in its place, if anything does. -/
def overlay (below : Option Document) : Document → Document
  | .mapping es =>
    match below with
    | some (.mapping base) => .mapping (overlayEntries base es)
    | _ => .mapping es
  | d => d

/-- Entries laid over those of another mapping. -/
def overlayEntries (base : List (String × Document)) :
    List (String × Document) → List (String × Document)
  | [] => base
  | (k, d) :: es => overlayEntries (Members.put base k (overlay (Members.get? base k) d)) es

end

/-- Whether a value is a mapping. -/
def isMapping : Document → Bool
  | .mapping _ => true
  | _ => false

/-- The value at the end of a path of names. -/
def at? (d : Document) : List String → Option Document
  | [] => some d
  | k :: path =>
    match d with
    | .mapping es => (Members.get? es k).bind (at? · path)
    | _ => none

end MailRules.Document
