/-!
# Blank characters

The characters that Unicode counts as white space, and texts stripped of them at both ends.
-/

namespace Phrasebook.Text

/-- Whether a character is white space. -/
def isBlank (c : Char) : Bool :=
  let n := c.toNat
  (9 ≤ n && n ≤ 13) || n = 0x20 || n = 0x85 || n = 0xA0 || n = 0x1680 ||
    (0x2000 ≤ n && n ≤ 0x200A) || n = 0x2028 || n = 0x2029 || n = 0x202F || n = 0x205F ||
    n = 0x3000

/-- Drops white space at both ends of a text. -/
def strip (text : List Char) : List Char :=
  (((text.dropWhile isBlank).reverse).dropWhile isBlank).reverse

/-- Whether a text is nothing but white space. -/
def isBlankText (text : String) : Bool := text.toList.all isBlank

end Phrasebook.Text
