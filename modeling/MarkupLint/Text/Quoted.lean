import MarkupLint.Text.Basic
import MarkupLint.Text.Printable

/-!
# Quoted text

How a text is shown between quotes, so that every character of it can be told: backslashes and the
common controls have short escapes, and every other unprintable character is given by its code
point, in two, four or eight hexadecimal digits. The quotes are single ones, unless the text holds
a single quote and no double quote. Only the quote in use is escaped.
-/

namespace MarkupLint

/-- The hexadecimal digits of `n`, in small letters, filled with zeros up to `width`. -/
def hexDigits (width n : Nat) : String :=
  let digits := Nat.toDigits 16 n
  String.ofList (List.replicate (width - digits.length) '0' ++ digits)

namespace Quoted

/-- An unprintable character, by its code point. -/
def escapeCode (c : Char) : String :=
  if c.toNat < 0x100 then "\\x" ++ hexDigits 2 c.toNat
  else if c.toNat < 0x10000 then "\\u" ++ hexDigits 4 c.toNat
  else "\\U" ++ hexDigits 8 c.toNat

/-- A character of a text between two copies of `quote`. -/
def escape (quote c : Char) : String :=
  if c = quote || c = '\\' then String.ofList ['\\', c]
  else if c = '\n' then "\\n"
  else if c = '\r' then "\\r"
  else if c = '\t' then "\\t"
  else if isPrintable c then String.singleton c
  else escapeCode c

/-- The quote to put around `text`. -/
def quoteFor (text : Text) : Char :=
  if text.contains '\x27' && !text.contains '\x22' then '\x22' else '\x27'

/-- `text` between quotes. -/
def ofText (text : Text) : String :=
  let quote := quoteFor text
  String.singleton quote ++ String.join (text.map (escape quote)) ++ String.singleton quote

/-- A string between quotes. -/
def ofString (s : String) : String := ofText s.toList

end Quoted

end MarkupLint
