/-!
# Blanks

The characters of Unicode's `White_Space` property, and texts trimmed of them at both ends.
-/

namespace AmountWalk.Blank

/-- The code points with the property `White_Space`, as ranges in order. -/
def ranges : List (Nat × Nat) :=
  [(0x09, 0x0D), (0x20, 0x20), (0x85, 0x85), (0xA0, 0xA0), (0x1680, 0x1680), (0x2000, 0x200A),
   (0x2028, 0x2029), (0x202F, 0x202F), (0x205F, 0x205F), (0x3000, 0x3000)]

def isBlank (ch : Char) : Bool :=
  ranges.any fun (first, last) => first ≤ ch.toNat && ch.toNat ≤ last

/-- The text without the blanks at its ends. -/
def trim (text : List Char) : List Char :=
  ((text.dropWhile isBlank).reverse.dropWhile isBlank).reverse

end AmountWalk.Blank
