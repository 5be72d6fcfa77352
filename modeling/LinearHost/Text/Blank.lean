/-!
# Blank characters

The characters with the Unicode property `White_Space`, and the removal of blanks around a text.

## Main definitions

* `isBlank`: membership in the property.
* `trim`: the text without blanks at either end.
-/

namespace LinearHost.Blank

/-- The ranges of code points with the property `White_Space`, ends included. -/
def ranges : List (Nat × Nat) :=
  [(0x09, 0x0D), (0x20, 0x20), (0x85, 0x85), (0xA0, 0xA0), (0x1680, 0x1680), (0x2000, 0x200A),
    (0x2028, 0x2029), (0x202F, 0x202F), (0x205F, 0x205F), (0x3000, 0x3000)]

/-- Tells whether a character has the property `White_Space`. -/
def isBlank (c : Char) : Bool :=
  ranges.any fun range => range.1 ≤ c.toNat && c.toNat ≤ range.2

/-- The characters of a text without the blanks at either end. -/
def trimChars (cs : List Char) : List Char :=
  ((cs.dropWhile isBlank).reverse.dropWhile isBlank).reverse

def trim (s : String) : String :=
  String.ofList (trimChars s.toList)

end LinearHost.Blank
