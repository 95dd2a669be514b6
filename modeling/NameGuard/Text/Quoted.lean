import NameGuard.Text.Character

/-!
# Quoted text

Text as it is inspected stands between double quotes. A quote, a backslash, a tab, a line feed, a
carriage return and a null are written after a backslash. Any other character that does not show
as itself is written by its code point, `\u` and the hexadecimal digits in braces.

* `Quoted.escape` — the written form of one character;
* `Quoted.text` — quoted text;
* `Quoted.list` — a list of quoted texts between brackets.
-/

set_option autoImplicit false

namespace NameGuard.Quoted

def codePoint (c : Char) : List Char :=
  ['\\', 'u', '\x7b'] ++ Nat.toDigits 16 c.toNat ++ ['\x7d']

def escape (c : Char) : List Char :=
  if c = '"' then ['\\', '"']
  else if c = '\\' then ['\\', '\\']
  else if c = '\t' then ['\\', 't']
  else if c = '\n' then ['\\', 'n']
  else if c = '\r' then ['\\', 'r']
  else if c = '\x00' then ['\\', '0']
  else if Character.shows c then [c]
  else codePoint c

/-- Text between double quotes. -/
def text (s : String) : String :=
  String.ofList (['"'] ++ s.toList.flatMap escape ++ ['"'])

/-- Texts between brackets, separated by a comma and a space. -/
def list (texts : List String) : String :=
  "[" ++ ", ".intercalate (texts.map text) ++ "]"

end NameGuard.Quoted
