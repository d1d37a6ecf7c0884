/-!
# White space

The characters that may surround a number in a text: the ones with the Unicode property
`White_Space`. The zero-width space and the byte order mark are not among them.
-/

namespace NativeBridge.Text

/-- Whether a character has the Unicode property `White_Space`. -/
def isBlank (c : Char) : Bool :=
  let n := c.toNat
  (0x09 ≤ n && n ≤ 0x0D) || n == 0x20 || n == 0x85 || n == 0xA0 || n == 0x1680 ||
    (0x2000 ≤ n && n ≤ 0x200A) || n == 0x2028 || n == 0x2029 || n == 0x202F || n == 0x205F ||
    n == 0x3000

/-- The characters left when the leading blanks are dropped. -/
def trimLeft (text : List Char) : List Char :=
  text.dropWhile isBlank

end NativeBridge.Text
