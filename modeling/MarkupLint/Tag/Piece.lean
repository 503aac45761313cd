import MarkupLint.Element.Vocabulary
import MarkupLint.Tag.Start

/-!
# The pieces of a text

Read from left to right, a text is made of tags, tag starts that are never ended, and what lies
between them. The first two are its pieces, and `next?` finds the first of them.

A tag start is followed by a `>` somewhere in the text or it is not. In the first case the piece is
a tag, which ends with the first such `>`, and reading goes on behind it. In the second case the
piece is the bare tag start and reading goes on right behind the name, so that one tag that was
never ended does not hide the others. Since no `>` is left in the second case, all pieces that come
later are tag starts of the same sort.
-/

namespace MarkupLint

/-- A tag start with no `>` behind it. -/
structure Stub where
  /-- The offset of the `<`. -/
  start : Nat
  /-- The tag start. -/
  tagStart : TagStart
deriving DecidableEq, Repr

namespace Stub

/-- The offset right behind the name. -/
def stop (stub : Stub) : Nat := stub.start + stub.tagStart.text.length

/-- The range from the `<` through the name. -/
def range (stub : Stub) : Range := ⟨stub.start, stub.stop, Nat.le_add_right _ _⟩

end Stub

namespace Tag

/-- The tag at an offset that has the given start and, behind it, the text `inner` and a `>`. -/
def ofStart (offset : Nat) (start : TagStart) (inner : Text) : Tag where
  name := start.name
  raw := start.text ++ inner ++ ['>']
  start := offset
  marks := {
    closing := start.closing
    slashed := inner.getLast? == some '/'
    void := Vocabulary.void.contains start.name
  }

end Tag

/-- A tag, or a tag start that is never ended. -/
inductive Piece where
  | tag (tag : Tag)
  | stub (stub : Stub)
deriving DecidableEq, Repr

namespace Piece

/-- The tag, if the piece is one. -/
def tag? : Piece → Option Tag
  | .tag t => some t
  | .stub _ => none

/-- The tag start, if the piece was never ended. -/
def stub? : Piece → Option Stub
  | .tag _ => none
  | .stub s => some s

end Piece

/-- A place in a text: an offset and the text from there on. -/
structure Cursor where
  /-- The offset. -/
  offset : Nat
  /-- The text from the offset to the end. -/
  rest : Text
deriving DecidableEq, Repr

namespace Cursor

/-- The piece with the given start, of which `rest` is the text behind the start, and the place
where reading goes on. -/
def finish (offset : Nat) (start : TagStart) (rest : Text) : Piece × Cursor :=
  let inner := rest.takeWhile (· != '>')
  match rest.dropWhile (· != '>') with
  | [] => (.stub ⟨offset, start⟩, ⟨offset + start.text.length, rest⟩)
  | _ :: after => (.tag (.ofStart offset start inner),
      ⟨offset + start.text.length + inner.length + 1, after⟩)

/-- The first piece of `text`, which starts at `offset`, and the place where reading goes on. -/
def find? (offset : Nat) : Text → Option (Piece × Cursor)
  | [] => none
  | c :: text =>
    match TagStart.read? (c :: text) with
    | some (start, rest) => some (finish offset start rest)
    | none => find? (offset + 1) text

/-- The first piece at a place or behind it, and the place where reading goes on. -/
def next? (cursor : Cursor) : Option (Piece × Cursor) := find? cursor.offset cursor.rest

theorem finish_length_le (offset : Nat) (start : TagStart) (rest : Text) :
    (finish offset start rest).2.rest.length ≤ rest.length := by
  have hle := length_dropWhile_le (· != '>') rest
  unfold finish
  split
  · exact Nat.le_refl _
  · next h =>
    rw [h, List.length_cons] at hle
    exact Nat.le_of_succ_le hle

theorem find?_length_lt {text : Text} {offset : Nat} {piece : Piece} {cursor : Cursor}
    (h : find? offset text = some (piece, cursor)) : cursor.rest.length < text.length := by
  induction text generalizing offset with
  | nil => simp [find?] at h
  | cons c text ih =>
    unfold find? at h
    split at h
    · next start rest hread =>
      have hlt := TagStart.read?_length_lt hread
      have hle := finish_length_le offset start rest
      rw [Option.some.inj h] at hle
      exact Nat.lt_of_le_of_lt hle hlt
    · exact Nat.lt_succ_of_lt (ih h)

/-- Reading goes on with less text. -/
theorem next?_length_lt {cursor cursor' : Cursor} {piece : Piece}
    (h : cursor.next? = some (piece, cursor')) : cursor'.rest.length < cursor.rest.length :=
  find?_length_lt h

/-- All pieces at a place and behind it. -/
def pieces (cursor : Cursor) : List Piece :=
  match _ : cursor.next? with
  | none => []
  | some (piece, cursor') => piece :: cursor'.pieces
termination_by cursor.rest.length
decreasing_by exact next?_length_lt ‹_›

theorem pieces_of_next?_eq_none {cursor : Cursor} (h : cursor.next? = none) :
    cursor.pieces = [] := by
  rw [pieces]
  split
  · rfl
  · next h' => rw [h] at h'; cases h'

theorem pieces_of_next?_eq_some {cursor cursor' : Cursor} {piece : Piece}
    (h : cursor.next? = some (piece, cursor')) : cursor.pieces = piece :: cursor'.pieces := by
  rw [pieces]
  split
  · next h' => rw [h] at h'; cases h'
  · next h' => rw [h] at h'; cases h'; rfl

end Cursor

end MarkupLint
