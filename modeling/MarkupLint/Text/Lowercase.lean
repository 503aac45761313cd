import MarkupLint.Text.Basic
import MarkupLint.Text.Cased
import MarkupLint.Text.LowercaseTable

/-!
# Lowercase

The lowercase of a text, by the full case mapping. Nearly every character is mapped on its own, by
`caseRuns`. Two are special.

* The capital I with a dot, U+0130, becomes a small i followed by a combining dot.
* The capital sigma becomes the final small sigma at the end of a word and the ordinary one
  elsewhere. It ends a word when a cased character comes before it and none comes behind it, where
  case-ignorable characters in between are skipped.

Lowercase is not case folding: the long s and the sharp s stay as they are.
-/

namespace MarkupLint

/-- The lowercase of a character outside any word. -/
def lowerChar (c : Char) : List Char :=
  if c = '\u0130' then ['i', '\u0307']
  else match caseRuns.find? (·.contains c.toNat) with
    | some run => [Char.ofNat (c.toNat + run.shift).toNat]
    | none => [c]

/-- Whether the first character of `rest` that is not case-ignorable is cased. -/
def followsCased (rest : Text) : Bool :=
  match rest.dropWhile isCaseIgnorable with
  | [] => false
  | c :: _ => isCased c

/-- The lowercase of the end of a text. `inWord` tells whether the last character before it that is
not case-ignorable is cased. -/
def lowerFrom (inWord : Bool) : Text → Text
  | [] => []
  | c :: rest =>
    let lowered := if c = '\u03a3' && inWord && !followsCased rest then ['\u03c2'] else lowerChar c
    lowered ++ lowerFrom (if isCaseIgnorable c then inWord else isCased c) rest

/-- The lowercase of a text. -/
def lowerText (text : Text) : Text := lowerFrom false text

/-- The lowercase of a string. -/
def lowercase (s : String) : String := String.ofList (lowerText s.toList)

end MarkupLint
