import PhraseTape.Text.Unprintable

/-!
# Quoted texts

A text is shown to its reader between double quotes, with every character visible: the quote and
the backslash are escaped, four control characters have a letter of their own, and every other
character that cannot stand by itself is given by its code point.

## Main definitions

* `escapeChar` : the form of one character inside a quoted text.
* `quote` : a text between quotes.
-/

namespace PhraseTape

/-- The code point of a character, in hexadecimal digits between braces. -/
def escapeCode (c : Char) : List Char :=
  ['\\', 'u', '\x7b'] ++ Nat.toDigits 16 c.toNat ++ ['\x7d']

/-- The form of one character inside a quoted text. An apostrophe needs no escape. -/
def escapeChar (c : Char) : List Char :=
  match c with
  | '"' => ['\\', '"']
  | '\\' => ['\\', '\\']
  | '\x00' => ['\\', '0']
  | '\t' => ['\\', 't']
  | '\r' => ['\\', 'r']
  | '\n' => ['\\', 'n']
  | c => if isPrintable c then [c] else escapeCode c

/-- A text between double quotes, with every character visible. -/
def quote (text : String) : String :=
  String.ofList (['"'] ++ text.toList.flatMap escapeChar ++ ['"'])

end PhraseTape
