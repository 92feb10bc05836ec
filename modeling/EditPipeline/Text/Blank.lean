/-!
# Blank characters

The characters that Unicode counts as white space.
-/

namespace EditPipeline.Text

/-- Whether a character is white space. -/
def isBlank (c : Char) : Bool :=
  let n := c.toNat
  (0x09 ≤ n && n ≤ 0x0d) || n == 0x20 || n == 0x85 || n == 0xa0 || n == 0x1680
    || (0x2000 ≤ n && n ≤ 0x200a) || n == 0x2028 || n == 0x2029 || n == 0x202f
    || n == 0x205f || n == 0x3000

/-- The text without blank characters at its front. -/
def trimStart (text : List Char) : List Char := text.dropWhile isBlank

/-- The text without blank characters at its end. -/
def trimEnd (text : List Char) : List Char := (text.reverse.dropWhile isBlank).reverse

/-- The text without blank characters at either end. -/
def trim (text : List Char) : List Char := trimEnd (trimStart text)

end EditPipeline.Text
