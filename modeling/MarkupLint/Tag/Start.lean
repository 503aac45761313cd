import MarkupLint.Tag.Basic

/-!
# Tag starts

A tag starts with `<`, perhaps a `/`, and a name: a letter and then as many letters and digits as
there are. Only ASCII letters and digits count, so a name is put into small letters by the ASCII
rule. `TagStart.read?` decides whether a text begins with a tag start; nothing but the first
characters of the text can make a difference to that.
-/

namespace MarkupLint

/-- The beginning of a tag, through its name. -/
structure TagStart where
  /-- Whether a `/` comes before the name. -/
  closing : Bool
  /-- The name as it is written. -/
  written : Text
deriving DecidableEq, Repr

namespace TagStart

/-- The text of a tag start. -/
def text (start : TagStart) : Text :=
  '<' :: ((if start.closing then ['/'] else []) ++ start.written)

/-- The name in small letters. -/
def name (start : TagStart) : String := String.ofList (start.written.map Char.toLower)

/-- Reads a name: a letter, then letters and digits up to the first other character. -/
def readName? : Text → Option (Text × Text)
  | [] => none
  | c :: rest =>
    if c.isAlpha then some (c :: rest.takeWhile Char.isAlphanum, rest.dropWhile Char.isAlphanum)
    else none

/-- Reads a tag start, and returns it with the text behind it. -/
def read? : Text → Option (TagStart × Text)
  | '<' :: '/' :: rest => (readName? rest).map fun (name, rest) => (⟨true, name⟩, rest)
  | '<' :: rest => (readName? rest).map fun (name, rest) => (⟨false, name⟩, rest)
  | _ => none

theorem readName?_length_lt {text name rest : Text} (h : readName? text = some (name, rest)) :
    rest.length < text.length := by
  cases text with
  | nil => simp [readName?] at h
  | cons c cs =>
    have hle := length_dropWhile_le Char.isAlphanum cs
    simp only [readName?, Option.ite_none_right_eq_some, Option.some.injEq, Prod.mk.injEq] at h
    rw [← h.2.2, List.length_cons]
    omega

/-- What is behind a tag start is shorter than the text it was read from. -/
theorem read?_length_lt {text rest : Text} {start : TagStart}
    (h : read? text = some (start, rest)) : rest.length < text.length := by
  unfold read? at h
  split at h
  · obtain ⟨⟨name, rest'⟩, hname, heq⟩ := Option.map_eq_some_iff.mp h
    have := readName?_length_lt hname
    simp only [Prod.mk.injEq] at heq
    simp only [List.length_cons, ← heq.2]
    omega
  · obtain ⟨⟨name, rest'⟩, hname, heq⟩ := Option.map_eq_some_iff.mp h
    have := readName?_length_lt hname
    simp only [Prod.mk.injEq] at heq
    simp only [List.length_cons, ← heq.2]
    omega
  · simp at h

end TagStart

end MarkupLint
