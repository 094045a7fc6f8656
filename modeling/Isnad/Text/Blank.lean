/-! # Blanks around a text -/

namespace Isnad.Text

/-- The characters with the Unicode property White_Space. -/
def isBlank (c : Char) : Bool :=
  let n := c.toNat
  (0x09 ≤ n && n ≤ 0x0D) || n == 0x20 || n == 0x85 || n == 0xA0 || n == 0x1680 ||
    (0x2000 ≤ n && n ≤ 0x200A) || n == 0x2028 || n == 0x2029 || n == 0x202F || n == 0x205F ||
    n == 0x3000

/-- The text after its leading blanks. -/
def trimStart (cs : List Char) : List Char := cs.dropWhile isBlank

/-- The text between its leading and its trailing blanks. -/
def trim (cs : List Char) : List Char := (trimStart (trimStart cs).reverse).reverse

/-- Nothing is left once the blanks are removed. -/
def isBlankText (s : String) : Bool := s.toList.all isBlank

end Isnad.Text
