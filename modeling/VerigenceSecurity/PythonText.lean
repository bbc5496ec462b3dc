import Mathlib.Data.List.Basic

/-! # Text as the services clean it

Python's `str.isspace`, `str.strip`, `str.startswith` and `str.removeprefix`.
-/

namespace VerigenceSecurity
set_option autoImplicit false

def isSpace (c : Char) : Bool :=
  (9 ≤ c.toNat && c.toNat ≤ 13) || (28 ≤ c.toNat && c.toNat ≤ 32) || c.toNat == 0x85 ||
    c.toNat == 0xA0 || c.toNat == 0x1680 || (0x2000 ≤ c.toNat && c.toNat ≤ 0x200A) ||
    c.toNat == 0x2028 || c.toNat == 0x2029 || c.toNat == 0x202F || c.toNat == 0x205F ||
    c.toNat == 0x3000

def strip (text : String) : String :=
  String.ofList ((text.toList.dropWhile isSpace).reverse.dropWhile isSpace).reverse

example : strip " user_1\n" = "user_1" := by decide

/-- `not value.strip()`. -/
@[irreducible] def isMissing (value : String) : Bool := decide (strip value = "")

def startsWith (text start : String) : Bool := start.toList.isPrefixOf text.toList

def removePrefix (text start : String) : String :=
  if startsWith text start then String.ofList (text.toList.drop start.toList.length) else text

end VerigenceSecurity
