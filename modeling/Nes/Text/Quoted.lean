/-
  Quoted text: how a value that could not be understood is shown in a message.

  The text stands between double quotes.  Inside, a backslash and a double quote are written after
  a backslash, NUL, tab, line feed and carriage return by a letter, and every other character
  without a glyph of its own by its number.  A single quote stands as it is.
-/
import Nes.Text.Glyphless

namespace Nes.Text

/-- The letter that stands for `c` after a backslash, for the characters that have one. -/
def escapeLetter? (c : Char) : Option Char :=
  if c = '\x00' then some '0'
  else if c = '\t' then some 't'
  else if c = '\n' then some 'n'
  else if c = '\r' then some 'r'
  else if c = '"' then some '"'
  else if c = '\\' then some '\\'
  else none

/-- One character of a quoted text. -/
def quoteChar (c : Char) : List Char :=
  match escapeLetter? c with
  | some letter => ['\\', letter]
  | none =>
    if isGlyphless c then ['\\', 'u', '\x7b'] ++ Nat.toDigits 16 c.toNat ++ ['\x7d'] else [c]

/-- The text `s` in quotation marks. -/
def quoted (s : String) : String :=
  String.ofList ('"' :: s.toList.flatMap quoteChar ++ ['"'])

end Nes.Text
