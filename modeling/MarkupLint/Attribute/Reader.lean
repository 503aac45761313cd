import MarkupLint.Attribute.Basic
import MarkupLint.Tag.Basic
import MarkupLint.Text.CharRanges
import MarkupLint.Text.Lowercase

/-!
# Reading attributes

The text inside a tag is read from left to right. An attribute is a name, which is as long a run of
name characters as there is, and then perhaps a value: an equals sign with any blanks around it, and
behind them either a text in quotes or a run of characters that are not blank. A quote that is not
closed is an ordinary character of such a run. If nothing but blanks follows the equals sign, there
is no value and the attribute is bare. Every other character is skipped.
-/

namespace MarkupLint

namespace Attribute

/-- The characters with a meaning of their own: quotes, brackets, the slash and the equals sign. -/
def markChars : List Char := ['\x22', '\x27', '<', '>', '/', '=']

/-- Whether `c` can stand in the name of an attribute: it is neither blank nor one of the characters
with a meaning of their own. -/
def isNameChar (c : Char) : Bool := !isBlank c && !markChars.contains c

/-- Reads a value in quotes, of which the first was read. -/
def readQuoted? (quote : Quote) (text : Text) : Option (Value × Text) :=
  match text.dropWhile (· != quote.char) with
  | [] => none
  | _ :: rest => some (⟨String.ofList (text.takeWhile (· != quote.char)), some quote⟩, rest)

/-- Reads a value without quotes, up to the first blank. -/
def readUnquoted (text : Text) : Value × Text :=
  (⟨String.ofList (text.takeWhile (!isBlank ·)), none⟩, text.dropWhile (!isBlank ·))

/-- Reads what follows an equals sign and its blanks. -/
def readContent? : Text → Option (Value × Text)
  | [] => none
  | c :: rest =>
    match (Quote.ofChar? c).bind (readQuoted? · rest) with
    | some quoted => some quoted
    | none => some (readUnquoted (c :: rest))

/-- Reads the equals sign and the value that may follow a name. -/
def readValue? (text : Text) : Option (Value × Text) :=
  match text.dropWhile isBlank with
  | '=' :: rest => readContent? (rest.dropWhile isBlank)
  | _ => none

/-- Reads the attribute that starts with the first character of `text`, and returns it with the text
behind it. -/
def readAt (offset : Nat) (text : Text) : Attribute × Text :=
  let name := lowerText (text.takeWhile isNameChar)
  let behindName := text.dropWhile isNameChar
  let (value, rest) := match readValue? behindName with
    | some (value, rest) => (some value, rest)
    | none => (none, behindName)
  (⟨String.ofList name, value, offset, text.length - rest.length⟩, rest)

theorem readQuoted?_length_le {quote : Quote} {text rest : Text} {value : Value}
    (h : readQuoted? quote text = some (value, rest)) : rest.length ≤ text.length := by
  have hle := length_dropWhile_le (· != quote.char) text
  unfold readQuoted? at h
  split at h
  · simp at h
  · next hdrop =>
    rw [hdrop, List.length_cons] at hle
    simp only [Option.some.injEq, Prod.mk.injEq] at h
    rw [← h.2]
    omega

theorem readContent?_length_le {text rest : Text} {value : Value}
    (h : readContent? text = some (value, rest)) : rest.length ≤ text.length := by
  cases text with
  | nil => simp [readContent?] at h
  | cons c text =>
    simp only [readContent?] at h
    split at h
    · next quoted hquoted =>
      obtain ⟨quote, -, hread⟩ := Option.bind_eq_some_iff.mp hquoted
      cases h
      exact Nat.le_succ_of_le (readQuoted?_length_le hread)
    · simp only [readUnquoted, Option.some.injEq, Prod.mk.injEq] at h
      rw [← h.2]
      exact length_dropWhile_le _ _

theorem readValue?_length_le {text rest : Text} {value : Value}
    (h : readValue? text = some (value, rest)) : rest.length ≤ text.length := by
  have hle := length_dropWhile_le isBlank text
  unfold readValue? at h
  split at h
  · next behind hdrop =>
    have hcontent := readContent?_length_le h
    have hblank := length_dropWhile_le isBlank behind
    rw [hdrop, List.length_cons] at hle
    omega
  · simp at h

/-- An attribute that starts with a name character takes up some of the text. -/
theorem readAt_length_lt {offset : Nat} {c : Char} {text : Text} (h : isNameChar c = true) :
    (readAt offset (c :: text)).2.length < (c :: text).length := by
  have hname : (c :: text).dropWhile isNameChar = text.dropWhile isNameChar :=
    List.dropWhile_cons_of_pos h
  have hle := length_dropWhile_le isNameChar text
  simp only [readAt, hname, List.length_cons]
  split
  · next hread =>
    have hvalue := readValue?_length_le hread
    dsimp only
    omega
  · dsimp only
    omega

/-- Reads all attributes of `text`, which starts at `offset` in its tag. -/
def readAll (offset : Nat) : Text → List Attribute
  | [] => []
  | c :: text =>
    if _ : isNameChar c = true then
      let found := readAt offset (c :: text)
      found.1 :: readAll (offset + found.1.length) found.2
    else readAll (offset + 1) text
termination_by text => text.length
decreasing_by
  · exact readAt_length_lt ‹_›
  · simp

@[simp] theorem readAll_nil (offset : Nat) : readAll offset [] = [] := by rw [readAll]

theorem readAll_cons_of_pos {c : Char} (h : isNameChar c = true) (offset : Nat) (text : Text) :
    readAll offset (c :: text) =
      (readAt offset (c :: text)).1 ::
        readAll (offset + (readAt offset (c :: text)).1.length) (readAt offset (c :: text)).2 := by
  rw [readAll, dif_pos h]

theorem readAll_cons_of_neg {c : Char} (h : ¬ isNameChar c = true) (offset : Nat) (text : Text) :
    readAll offset (c :: text) = readAll (offset + 1) text := by
  rw [readAll, dif_neg h]

end Attribute

namespace Tag

/-- The attributes of a tag, in the order in which they are written. A closing tag can have some,
too. -/
def attributes (tag : Tag) : List Attribute :=
  Attribute.readAll tag.attributeOffset tag.attributeText

/-- The names of the attributes of a tag, each of them once. -/
def attributeNames (tag : Tag) : List String := (tag.attributes.map Attribute.name).eraseDups

/-- Whether a tag has an attribute of the given name with a value, be it an empty one. -/
def hasValued (tag : Tag) (name : String) : Bool :=
  tag.attributes.any fun attr => attr.name == name && attr.hasValue

end Tag

end MarkupLint
