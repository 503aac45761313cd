import Mathlib.Data.Nat.Notation
import MarkupLint.Attribute.Reader
import MarkupLint.Proofs.Reporting
import MarkupLint.Tag.Scan

/-!
# Reading without regard to letter case

`foldText` makes the ASCII letters of a text small and leaves everything else as it is. This file
follows a text and its folded form through the scan and the reading of attributes: whatever is read
from the folded text is the folded form of what is read from the text. A tag keeps its place, its
name and its marks, and only its own text is folded. An attribute keeps all but the letters of its
value.

Nothing here depends on which functions are applied to single characters, as long as these do not
tell a capital from its small letter. `apply_toLower` reduces that to the 26 letters, so for the
tables of the library it is a matter of looking them up. The lowercase of a sigma depends on the
characters around it, but only on whether these are letters at all.

## Main results

* `apply_toLower` — a function that agrees on the 26 letters does not see case
* `lowerText_foldText` — folding is lost in lowercase
* `Cursor.pieces_foldCase` — the pieces of a folded text
* `Tag.attributes_foldCase` — the attributes of a folded tag
* `Scan.ofText_foldText` — the scan of a folded text
-/

namespace MarkupLint

/-! ### Characters -/

/-- A character that has a small letter is one of the 26 capitals. -/
theorem exists_letter {c : Char} (h : c.toLower ≠ c) :
    ∃ i : Fin 26, c = Char.ofNat (65 + i) ∧ c.toLower = Char.ofNat (97 + i) := by
  have hsmall : ∀ i : Fin 26, (Char.ofNat (65 + i)).toLower = Char.ofNat (97 + i) := by
    decide +kernel
  have hcapital : 65 ≤ c.toNat ∧ c.toNat ≤ 90 := by
    unfold Char.toLower at h
    split at h
    · next hc => exact ⟨UInt32.le_iff_toNat_le.mp hc.1, UInt32.le_iff_toNat_le.mp hc.2⟩
    · exact absurd rfl h
  have hc : c = Char.ofNat (65 + (c.toNat - 65)) := by
    rw [Nat.add_sub_of_le hcapital.1, Char.ofNat_toNat]
  refine ⟨⟨c.toNat - 65, by omega⟩, hc, ?_⟩
  have hletter := hsmall ⟨c.toNat - 65, by omega⟩
  rwa [← hc] at hletter

/-- **A function that agrees on the letters does not see case.** -/
theorem apply_toLower {β : Type} (f : Char → β)
    (h : ∀ i : Fin 26, f (Char.ofNat (97 + i)) = f (Char.ofNat (65 + i))) (c : Char) :
    f c.toLower = f c := by
  by_cases hc : c.toLower = c
  · rw [hc]
  · obtain ⟨i, hcapital, hsmall⟩ := exists_letter hc
    rw [hsmall, h i, hcapital]

@[simp] theorem toLower_toLower (c : Char) : c.toLower.toLower = c.toLower :=
  apply_toLower Char.toLower (by decide +kernel) c

@[simp] theorem isAlpha_toLower (c : Char) : c.toLower.isAlpha = c.isAlpha :=
  apply_toLower Char.isAlpha (by decide +kernel) c

@[simp] theorem isAlphanum_toLower (c : Char) : c.toLower.isAlphanum = c.isAlphanum :=
  apply_toLower Char.isAlphanum (by decide +kernel) c

/-- A class of characters whose intervals all lie beside the letters does not see case. -/
theorem CharRanges.contains_toLower {ranges : CharRanges}
    (h : ∀ range ∈ ranges, range.2 < 65 ∨ (90 < range.1 ∧ range.2 < 97) ∨ 122 < range.1)
    (c : Char) : ranges.contains c.toLower = ranges.contains c := by
  have hletter : ∀ c : Char, (65 ≤ c.toNat ∧ c.toNat ≤ 90) ∨ (97 ≤ c.toNat ∧ c.toNat ≤ 122) →
      ranges.contains c = false := by
    intro c hc
    rw [contains, List.any_eq_false]
    intro range hrange
    have hapart := h range hrange
    simp only [Bool.and_eq_true, decide_eq_true_eq]
    omega
  have hsmall : ∀ i : Fin 26, (Char.ofNat (97 + i)).toNat = 97 + i := by decide +kernel
  have hcapital : ∀ i : Fin 26, (Char.ofNat (65 + i)).toNat = 65 + i := by decide +kernel
  refine apply_toLower ranges.contains (fun i => ?_) c
  have hi := i.isLt
  rw [hletter _ (by rw [hsmall]; omega), hletter _ (by rw [hcapital]; omega)]

@[simp] theorem isBlank_toLower (c : Char) : isBlank c.toLower = isBlank c :=
  blankRanges.contains_toLower (by decide) c

@[simp] theorem isCaseIgnorable_toLower (c : Char) :
    isCaseIgnorable c.toLower = isCaseIgnorable c :=
  caseIgnorableRanges.contains_toLower (by decide +kernel) c

@[simp] theorem isCased_toLower (c : Char) : isCased c.toLower = isCased c :=
  apply_toLower isCased (by decide +kernel) c

@[simp] theorem lowerChar_toLower (c : Char) : lowerChar c.toLower = lowerChar c :=
  apply_toLower lowerChar (by decide +kernel) c

/-- A character that is no letter is not the small letter of another. -/
theorem toLower_eq_iff {c mark : Char} (h : mark.isAlpha = false) :
    c.toLower = mark ↔ c = mark := by
  by_cases hc : c.toLower = c
  · rw [hc]
  · have halpha : c.isAlpha = true := by
      obtain ⟨i, rfl, -⟩ := exists_letter hc
      exact (show ∀ i : Fin 26, (Char.ofNat (65 + i)).isAlpha = true by decide +kernel) i
    constructor
    · rintro rfl
      rw [isAlpha_toLower, halpha] at h
      cases h
    · rintro rfl
      rw [halpha] at h
      cases h

theorem toLower_bne {mark : Char} (h : mark.isAlpha = false) (c : Char) :
    (c.toLower != mark) = (c != mark) := by
  rw [Bool.eq_iff_iff, bne_iff_ne, bne_iff_ne, ne_eq, toLower_eq_iff h]

theorem map_toLower_eq_some_iff {c? : Option Char} {mark : Char} (h : mark.isAlpha = false) :
    c?.map Char.toLower = some mark ↔ c? = some mark := by
  cases c? with
  | none => exact Iff.rfl
  | some c => rw [Option.map_some, Option.some.injEq, Option.some.injEq, toLower_eq_iff h]

/-! ### Texts -/

/-- The text with its ASCII letters made small. -/
def foldText (text : Text) : Text := text.map Char.toLower

@[simp] theorem foldText_nil : foldText [] = [] := rfl

@[simp] theorem foldText_cons (c : Char) (text : Text) :
    foldText (c :: text) = c.toLower :: foldText text := rfl

@[simp] theorem foldText_append (text text' : Text) :
    foldText (text ++ text') = foldText text ++ foldText text' := List.map_append

@[simp] theorem foldText_foldText (text : Text) : foldText (foldText text) = foldText text := by
  rw [foldText, foldText, List.map_map]
  exact congrArg (List.map · text) (funext toLower_toLower)

@[simp] theorem length_foldText (text : Text) : (foldText text).length = text.length :=
  List.length_map _

theorem drop_foldText (n : ℕ) (text : Text) : (foldText text).drop n = foldText (text.drop n) :=
  List.map_drop.symm

theorem dropLast_foldText (text : Text) : (foldText text).dropLast = foldText text.dropLast :=
  List.map_dropLast.symm

theorem takeWhile_foldText {p : Char → Bool} (hp : ∀ c, p c.toLower = p c) (text : Text) :
    (foldText text).takeWhile p = foldText (text.takeWhile p) := by
  have hcomp : p ∘ Char.toLower = p := funext hp
  rw [foldText, List.takeWhile_map, hcomp, foldText]

theorem dropWhile_foldText {p : Char → Bool} (hp : ∀ c, p c.toLower = p c) (text : Text) :
    (foldText text).dropWhile p = foldText (text.dropWhile p) := by
  have hcomp : p ∘ Char.toLower = p := funext hp
  rw [foldText, List.dropWhile_map, hcomp, foldText]

theorem head?_foldText_eq_iff {mark : Char} (h : mark.isAlpha = false) {text : Text} :
    (foldText text).head? = some mark ↔ text.head? = some mark := by
  rw [foldText, List.head?_map, map_toLower_eq_some_iff h]

theorem getLast?_foldText_eq_iff {mark : Char} (h : mark.isAlpha = false) {text : Text} :
    (foldText text).getLast? = some mark ↔ text.getLast? = some mark := by
  rw [foldText, List.getLast?_map, map_toLower_eq_some_iff h]

theorem followsCased_foldText (rest : Text) : followsCased (foldText rest) = followsCased rest := by
  rw [followsCased, dropWhile_foldText isCaseIgnorable_toLower, followsCased]
  cases rest.dropWhile isCaseIgnorable with
  | nil => rfl
  | cons c behind => exact isCased_toLower c

theorem lowerFrom_foldText (inWord : Bool) (text : Text) :
    lowerFrom inWord (foldText text) = lowerFrom inWord text := by
  induction text generalizing inWord with
  | nil => rfl
  | cons c rest ih =>
    have hsigma : c.toLower = '\u03a3' ↔ c = '\u03a3' := toLower_eq_iff (by decide)
    simp only [foldText_cons, lowerFrom, hsigma, followsCased_foldText, lowerChar_toLower,
      isCaseIgnorable_toLower, isCased_toLower, ih]

/-- **Folding is lost in lowercase.** -/
@[simp] theorem lowerText_foldText (text : Text) : lowerText (foldText text) = lowerText text :=
  lowerFrom_foldText false text

/-- The lines of a folded text are where they were. -/
@[simp] theorem LineTable.ofText_foldText (text : Text) : ofText (foldText text) = ofText text := by
  have hfeed : ∀ c : Char, c.toLower = '\n' ↔ c = '\n' := fun c => toLower_eq_iff (by decide)
  simp only [ofText, length_foldText, LineTable.mk.injEq, true_and]
  rw [foldText, List.zipIdx_map, List.filterMap_map]
  congr 1
  funext ⟨c, i⟩
  simp only [Function.comp_apply, Prod.map_apply, hfeed, id_eq]

/-! ### Tag starts and pieces -/

namespace TagStart

/-- The tag start with its name in small letters. -/
def foldCase (start : TagStart) : TagStart := ⟨start.closing, foldText start.written⟩

@[simp] theorem name_foldCase (start : TagStart) : start.foldCase.name = start.name :=
  congrArg String.ofList (foldText_foldText start.written)

@[simp] theorem text_foldCase (start : TagStart) :
    start.foldCase.text = foldText start.text := by
  obtain ⟨closing, written⟩ := start
  cases closing <;> rfl

theorem readName?_foldText (text : Text) :
    readName? (foldText text) = (readName? text).map (Prod.map foldText foldText) := by
  cases text with
  | nil => rfl
  | cons c rest =>
    simp only [foldText_cons, readName?, isAlpha_toLower, takeWhile_foldText isAlphanum_toLower,
      dropWhile_foldText isAlphanum_toLower]
    split <;> rfl

theorem read?_of_slash (rest : Text) :
    read? ('<' :: '/' :: rest) = (readName? rest).map fun found => (⟨true, found.1⟩, found.2) := rfl

theorem read?_of_not_slash {rest : Text} (h : rest.head? ≠ some '/') :
    read? ('<' :: rest) = (readName? rest).map fun found => (⟨false, found.1⟩, found.2) := by
  rw [read?]
  rintro rest' rfl
  exact h rfl

theorem read?_of_ne {c : Char} (h : c ≠ '<') (rest : Text) : read? (c :: rest) = none := by
  rw [read?]
  · rintro rest' heq
    exact h (List.cons.inj heq).1
  · rintro rest' heq
    exact h (List.cons.inj heq).1

/-- **A tag start is read in any case.** -/
theorem read?_foldText (text : Text) :
    read? (foldText text) = (read? text).map (Prod.map foldCase foldText) := by
  have hbracket : ∀ c : Char, c.toLower = '<' ↔ c = '<' := fun c => toLower_eq_iff (by decide)
  cases text with
  | nil => rfl
  | cons c rest =>
    by_cases hc : c = '<'
    · subst hc
      by_cases hrest : rest.head? = some '/'
      · obtain ⟨rest', rfl⟩ := List.head?_eq_some_iff.mp hrest
        show read? ('<' :: '/' :: foldText rest') = _
        rw [read?_of_slash, read?_of_slash, readName?_foldText, Option.map_map, Option.map_map]
        rfl
      · have hrest' : (foldText rest).head? ≠ some '/' :=
          mt (head?_foldText_eq_iff (by decide)).mp hrest
        show read? ('<' :: foldText rest) = _
        rw [read?_of_not_slash hrest', read?_of_not_slash hrest, readName?_foldText,
          Option.map_map, Option.map_map]
        rfl
    · rw [foldText_cons, read?_of_ne (mt (hbracket c).mp hc), read?_of_ne hc, Option.map_none]

end TagStart

/-- The tag start that is never ended, with its name in small letters. -/
def Stub.foldCase (stub : Stub) : Stub := ⟨stub.start, stub.tagStart.foldCase⟩

@[simp] theorem Stub.range_foldCase (stub : Stub) : stub.foldCase.range = stub.range := by
  simp [range, stop, foldCase]

theorem Stub.diagnostic_foldCase (table : LineTable) (stub : Stub) :
    stub.foldCase.diagnostic table = stub.diagnostic table := by
  have hname : stub.foldCase.tagStart.name = stub.tagStart.name := stub.tagStart.name_foldCase
  rw [diagnostic, range_foldCase, hname, diagnostic]

namespace Tag

/-- The tag with its text folded. -/
def foldCase (tag : Tag) : Tag := { tag with raw := foldText tag.raw }

@[simp] theorem name_foldCase (tag : Tag) : tag.foldCase.name = tag.name := rfl

@[simp] theorem start_foldCase (tag : Tag) : tag.foldCase.start = tag.start := rfl

@[simp] theorem isClosing_foldCase (tag : Tag) : tag.foldCase.isClosing = tag.isClosing := rfl

@[simp] theorem stop_foldCase (tag : Tag) : tag.foldCase.stop = tag.stop := by
  simp [stop, foldCase]

@[simp] theorem range_foldCase (tag : Tag) : tag.foldCase.range = tag.range := by
  simp [range]

theorem ofStart_foldCase (offset : ℕ) (start : TagStart) (inner : Text) :
    ofStart offset start.foldCase (foldText inner) = (ofStart offset start inner).foldCase := by
  have hslashed : ((foldText inner).getLast? == some '/') = (inner.getLast? == some '/') := by
    rw [Bool.eq_iff_iff, beq_iff_eq, beq_iff_eq, getLast?_foldText_eq_iff (by decide)]
  simp only [ofStart, foldCase, TagStart.name_foldCase, TagStart.text_foldCase, foldText_append,
    hslashed]
  rfl

end Tag

namespace Piece

/-- The piece with its text folded. -/
def foldCase : Piece → Piece
  | tag t => tag t.foldCase
  | stub s => stub s.foldCase

end Piece

namespace Cursor

/-- The same place in the folded text. -/
def foldCase (cursor : Cursor) : Cursor := ⟨cursor.offset, foldText cursor.rest⟩

theorem finish_foldCase (offset : ℕ) (start : TagStart) (rest : Text) :
    finish offset start.foldCase (foldText rest) =
      Prod.map Piece.foldCase foldCase (finish offset start rest) := by
  have hend : ∀ c : Char, (c.toLower != '>') = (c != '>') := toLower_bne (by decide)
  have hinner := takeWhile_foldText (p := (· != '>')) hend rest
  have hbehind := dropWhile_foldText (p := (· != '>')) hend rest
  simp only [finish, hinner, hbehind]
  cases rest.dropWhile (· != '>') with
  | nil => simp [Piece.foldCase, Stub.foldCase, foldCase]
  | cons c after => simp [Piece.foldCase, Tag.ofStart_foldCase, foldCase]

theorem find?_foldText (offset : ℕ) (text : Text) :
    find? offset (foldText text) =
      (find? offset text).map (Prod.map Piece.foldCase foldCase) := by
  induction text generalizing offset with
  | nil => rfl
  | cons c text ih =>
    rw [foldText_cons, find?, find?, ← foldText_cons, TagStart.read?_foldText]
    cases TagStart.read? (c :: text) with
    | none => exact ih (offset + 1)
    | some found => exact congrArg some (finish_foldCase offset found.1 found.2)

/-- **The pieces of a folded text** are those of the text, folded. -/
theorem pieces_foldCase (cursor : Cursor) :
    cursor.foldCase.pieces = cursor.pieces.map Piece.foldCase := by
  have hnext : cursor.foldCase.next? = cursor.next?.map (Prod.map Piece.foldCase foldCase) :=
    find?_foldText cursor.offset cursor.rest
  fun_induction pieces cursor with
  | case1 cursor h =>
    rw [h] at hnext
    rw [pieces_of_next?_eq_none hnext, List.map_nil]
  | case2 cursor piece cursor' h ih =>
    rw [h] at hnext
    rw [pieces_of_next?_eq_some hnext, List.map_cons, ih (find?_foldText _ _)]

end Cursor

namespace Scan

/-- The scan with all texts in it folded. -/
def foldCase (scan : Scan) : Scan :=
  { scan with
    text := foldText scan.text
    tags := scan.tags.map Tag.foldCase
    stubs := scan.stubs.map Stub.foldCase }

/-- **The scan of a folded text** is that of the text, folded. Places and diagnostics stay. -/
theorem ofText_foldText {text : Text} {scan : Scan} (h : ofText text = .ok scan) :
    ofText (foldText text) = .ok scan.foldCase := by
  have hpieces : Cursor.pieces ⟨0, foldText text⟩ =
      (Cursor.pieces ⟨0, text⟩).map Piece.foldCase := Cursor.pieces_foldCase ⟨0, text⟩
  have htags : ((Cursor.pieces ⟨0, text⟩).map Piece.foldCase).filterMap Piece.tag? =
      ((Cursor.pieces ⟨0, text⟩).filterMap Piece.tag?).map Tag.foldCase := by
    rw [List.filterMap_map, List.map_filterMap]
    exact congrArg (List.filterMap · _) (funext fun piece => by cases piece <;> rfl)
  have hstubs : ((Cursor.pieces ⟨0, text⟩).map Piece.foldCase).filterMap Piece.stub? =
      ((Cursor.pieces ⟨0, text⟩).filterMap Piece.stub?).map Stub.foldCase := by
    rw [List.filterMap_map, List.map_filterMap]
    exact congrArg (List.filterMap · _) (funext fun piece => by cases piece <;> rfl)
  have hdiagnostic : Stub.diagnostic (.ofText text) ∘ Stub.foldCase =
      Stub.diagnostic (.ofText text) := funext (Stub.diagnostic_foldCase _)
  obtain ⟨diagnostics, hdiagnostics, heq⟩ := bind_eq_ok_iff.mp h
  cases heq
  simp only [ofText, withTable, LineTable.ofText_foldText, hpieces, htags, hstubs, List.mapM_map,
    hdiagnostic, hdiagnostics]
  rfl

end Scan

/-! ### Attributes -/

@[simp] theorem Quote.ofChar?_toLower (c : Char) : ofChar? c.toLower = ofChar? c :=
  apply_toLower ofChar? (by decide +kernel) c

namespace Attribute

/-- The value with its letters made small. -/
def Value.foldCase (value : Value) : Value :=
  ⟨String.ofList (foldText value.text.toList), value.quote⟩

/-- The attribute with the letters of its value made small. -/
def foldCase (attr : Attribute) : Attribute := { attr with value := attr.value.map Value.foldCase }

@[simp] theorem isNameChar_toLower (c : Char) : isNameChar c.toLower = isNameChar c :=
  apply_toLower isNameChar (by decide +kernel) c

theorem foldCase_ofList (text : Text) (quote : Option Quote) :
    Value.foldCase ⟨String.ofList text, quote⟩ = ⟨String.ofList (foldText text), quote⟩ := by
  rw [Value.foldCase, String.toList_ofList]

theorem readQuoted?_foldText (quote : Quote) (text : Text) :
    readQuoted? quote (foldText text) =
      (readQuoted? quote text).map (Prod.map Value.foldCase foldText) := by
  have hend : ∀ c : Char, (c.toLower != quote.char) = (c != quote.char) :=
    toLower_bne (by cases quote <;> rfl)
  have hvalue := takeWhile_foldText (p := (· != quote.char)) hend text
  have hbehind := dropWhile_foldText (p := (· != quote.char)) hend text
  simp only [readQuoted?, hvalue, hbehind]
  cases text.dropWhile (· != quote.char) with
  | nil => rfl
  | cons c rest => simp [foldCase_ofList]

theorem readUnquoted_foldText (text : Text) :
    readUnquoted (foldText text) = Prod.map Value.foldCase foldText (readUnquoted text) := by
  have hend : ∀ c : Char, (!isBlank c.toLower) = !isBlank c := fun c => by rw [isBlank_toLower]
  have hvalue := takeWhile_foldText (p := (!isBlank ·)) hend text
  have hbehind := dropWhile_foldText (p := (!isBlank ·)) hend text
  simp [readUnquoted, hvalue, hbehind, foldCase_ofList]

theorem readContent?_foldText (text : Text) :
    readContent? (foldText text) = (readContent? text).map (Prod.map Value.foldCase foldText) := by
  cases text with
  | nil => rfl
  | cons c rest =>
    have hquoted : (Quote.ofChar? c).bind (readQuoted? · (foldText rest)) =
        ((Quote.ofChar? c).bind (readQuoted? · rest)).map (Prod.map Value.foldCase foldText) := by
      cases Quote.ofChar? c with
      | none => rfl
      | some quote => exact readQuoted?_foldText quote rest
    simp only [foldText_cons, readContent?, Quote.ofChar?_toLower, hquoted]
    cases (Quote.ofChar? c).bind (readQuoted? · rest) with
    | some quoted => rfl
    | none => exact congrArg some (readUnquoted_foldText (c :: rest))

theorem readValue?_of_equals {text rest : Text} (h : text.dropWhile isBlank = '=' :: rest) :
    readValue? text = readContent? (rest.dropWhile isBlank) := by
  simp only [readValue?, h]

theorem readValue?_of_not_equals {text : Text} (h : (text.dropWhile isBlank).head? ≠ some '=') :
    readValue? text = none := by
  unfold readValue?
  split
  · next hdrop => exact absurd (congrArg List.head? hdrop) h
  · rfl

theorem readValue?_foldText (text : Text) :
    readValue? (foldText text) = (readValue? text).map (Prod.map Value.foldCase foldText) := by
  have hbehind := dropWhile_foldText isBlank_toLower text
  by_cases h : (text.dropWhile isBlank).head? = some '='
  · obtain ⟨rest, hrest⟩ := List.head?_eq_some_iff.mp h
    have hrest' : (foldText text).dropWhile isBlank = '=' :: foldText rest := by
      rw [hbehind, hrest]
      rfl
    rw [readValue?_of_equals hrest', readValue?_of_equals hrest,
      dropWhile_foldText isBlank_toLower, readContent?_foldText]
  · have h' : ((foldText text).dropWhile isBlank).head? ≠ some '=' := by
      rwa [hbehind, ne_eq, head?_foldText_eq_iff (by decide)]
    rw [readValue?_of_not_equals h', readValue?_of_not_equals h, Option.map_none]

theorem readAt_foldText (offset : ℕ) (text : Text) :
    readAt offset (foldText text) = Prod.map foldCase foldText (readAt offset text) := by
  simp only [readAt, takeWhile_foldText isNameChar_toLower, dropWhile_foldText isNameChar_toLower,
    lowerText_foldText, readValue?_foldText]
  cases readValue? (text.dropWhile isNameChar) with
  | none => simp [foldCase]
  | some found => simp [foldCase]

theorem readAll_foldText (offset : ℕ) (text : Text) :
    readAll offset (foldText text) = (readAll offset text).map foldCase := by
  fun_induction readAll offset text with
  | case1 offset => rw [foldText_nil, readAll_nil, List.map_nil]
  | case2 offset c text hc found ih =>
    have hc' : isNameChar c.toLower = true := by rwa [isNameChar_toLower]
    rw [foldText_cons, readAll_cons_of_pos hc', ← foldText_cons, readAt_foldText]
    exact congrArg (foldCase found.1 :: ·) ih
  | case3 offset c text hc ih =>
    have hc' : ¬ isNameChar c.toLower = true := by rwa [isNameChar_toLower]
    rw [foldText_cons, readAll_cons_of_neg hc', ih]

end Attribute

namespace Tag

theorem attributeText_foldCase (tag : Tag) :
    tag.foldCase.attributeText = foldText tag.attributeText := by
  have hbody : tag.foldCase.raw.dropLast.drop tag.foldCase.attributeOffset =
      foldText (tag.raw.dropLast.drop tag.attributeOffset) := by
    show ((foldText tag.raw).dropLast.drop tag.attributeOffset) = _
    rw [dropLast_foldText, drop_foldText]
  have hslash : (foldText (tag.raw.dropLast.drop tag.attributeOffset)).getLast? =
      some '/' ↔ (tag.raw.dropLast.drop tag.attributeOffset).getLast? = some '/' :=
    getLast?_foldText_eq_iff rfl
  unfold attributeText
  simp only [hbody, hslash]
  split
  · rw [dropLast_foldText]
  · rfl

/-- **The attributes of a folded tag** are those of the tag, folded. -/
theorem attributes_foldCase (tag : Tag) :
    tag.foldCase.attributes = tag.attributes.map Attribute.foldCase := by
  rw [attributes, attributeText_foldCase]
  exact Attribute.readAll_foldText tag.attributeOffset tag.attributeText

end Tag

end MarkupLint
