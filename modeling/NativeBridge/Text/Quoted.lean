import NativeBridge.Text.Glyphless

/-!
# Quoted text

How a text is shown inside a message: between double quotes, with the quote, the backslash and
four controls written as a backslash and a letter, and every other glyphless character as its
code point in braces. An apostrophe stands as itself.
-/

namespace NativeBridge.Text

/-- The written form of one character between double quotes. -/
def quotedChar (c : Char) : List Char :=
  match c with
  | '"' => ['\\', '"']
  | '\\' => ['\\', '\\']
  | '\n' => ['\\', 'n']
  | '\r' => ['\\', 'r']
  | '\t' => ['\\', 't']
  | '\x00' => ['\\', '0']
  | c => if isGlyphless c then ['\\', 'u', '\x7b'] ++ Nat.toDigits 16 c.toNat ++ ['\x7d'] else [c]

/-- The text between double quotes, with every character that would be lost or misread escaped. -/
def quoted (text : String) : String :=
  String.ofList ('"' :: text.toList.flatMap quotedChar ++ ['"'])

end NativeBridge.Text
