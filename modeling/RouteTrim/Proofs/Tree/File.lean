import RouteTrim.Proofs.Tree.Brackets
import RouteTrim.Proofs.Tree.Constant
import RouteTrim.Tree.Parse

/-!
# Reading the file of one constant

Whatever the grammar reads as an expression it reads as the value of a constant in a file of its
own.
-/

set_option autoImplicit false

namespace RouteTrim.Tree

open Parse

section

variable {g : Grammar} {name t : List Char} {value : Node} {c : Cursor} {offset : Nat}

end

/-! ## The file -/

end RouteTrim.Tree
