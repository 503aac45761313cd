import Mathlib.Data.List.Basic
import Mathlib.Data.List.TakeWhile
import Mathlib.Data.Nat.Notation
import MarkupLint.Attribute.Reader

/-!
# How attributes are written

`Attribute.readAll` reads the attributes of a text. This file says what an attribute is without
saying how it is read. A `Spelling` is an attribute as it is written: a name, and then nothing, or
an equals sign with any blanks around it and a value in quotes or without. All that the characters
of the attribute have to meet is asked for by the fields, so there is no spelling that is not one.

What comes behind an attribute matters, too, because it could still be part of it.
`Form.StopsBefore` says when it is not. A value in quotes stops with its quote whatever comes next.
A value without quotes stops at a blank, and if its first character is a quote, that quote must not
come again, for then the value would have been in quotes. An attribute without a value must not be
followed by something that reads as its value.

With these two notions an attribute can be read in one way only, and there is always a way to read
one. So a `Layout`, in which attributes and characters that belong to none alternate, is the same
thing as what the reader does.

## Main results

* `Attribute.Form.readValue?_append`, `Attribute.Spelling.readAt_append` — a spelling is read as
  such
* `Attribute.exists_form`, `Attribute.exists_spelling` — an attribute always has a spelling
* `Attribute.layout_iff` — the reader finds the attributes of the one layout of the text
-/

namespace MarkupLint

/-! ### Sorts of characters -/

namespace Quote

theorem ofChar?_eq_some_iff {c : Char} {quote : Quote} :
    ofChar? c = some quote ↔ c = quote.char := by
  constructor
  · intro h
    unfold ofChar? at h
    split at h
    · next hc =>
      cases h
      exact hc
    · split at h
      · next hc =>
        cases h
        exact hc
      · cases h
  · rintro rfl
    cases quote <;> rfl

theorem isBlank_char (quote : Quote) : isBlank quote.char = false := by
  cases quote <;> rfl

end Quote

namespace Attribute

theorem isNameChar_of_isBlank {c : Char} (h : isBlank c = true) : isNameChar c = false := by
  simp [isNameChar, h]

theorem isBlank_of_isNameChar {c : Char} (h : isNameChar c = true) : isBlank c = false := by
  simp only [isNameChar, Bool.and_eq_true, Bool.not_eq_true'] at h
  exact h.1

theorem isNameChar_quote (quote : Quote) : isNameChar quote.char = false := by
  cases quote <;> rfl

/-! ### Spellings -/

/-- A text of blanks. It may be empty. -/
structure Blanks where
  /-- The characters. -/
  text : Text
  /-- All of them are blank. -/
  isBlank : ∀ c ∈ text, isBlank c = true

/-- Blanks in front of an equals sign are all that is skipped. -/
theorem Blanks.dropWhile_equals (before : Blanks) (text : Text) :
    (before.text ++ '=' :: text).dropWhile MarkupLint.isBlank = '=' :: text := by
  refine dropWhile_run before.isBlank fun c hc => ?_
  rw [← Option.some.inj hc]
  rfl

/-- What is written behind the name of an attribute. -/
inductive Form where
  /-- Nothing. -/
  | bare
  /-- An equals sign and a value in quotes. -/
  | quoted (before after : Blanks) (quote : Quote) (value : Text)
      (quote_notMem : quote.char ∉ value)
  /-- An equals sign and a value without quotes. -/
  | unquoted (before after : Blanks) (value : Text) (ne_nil : value ≠ [])
      (not_blank : ∀ c ∈ value, isBlank c = false)

namespace Form

/-- The characters behind the name. -/
def text : Form → Text
  | bare => []
  | quoted before after quote value _ =>
    before.text ++ '=' :: (after.text ++ quote.char :: (value ++ [quote.char]))
  | unquoted before after value _ _ => before.text ++ '=' :: (after.text ++ value)

/-- The value, unless there is none. -/
def value : Form → Option Value
  | bare => none
  | quoted _ _ quote value _ => some ⟨String.ofList value, some quote⟩
  | unquoted _ _ value _ _ => some ⟨String.ofList value, none⟩

end Form

/-- An attribute as it is written. -/
structure Spelling where
  /-- The name, in letters of either case. -/
  name : Text
  /-- The name is not empty. -/
  name_ne_nil : name ≠ []
  /-- It is made of name characters. -/
  isNameChar : ∀ c ∈ name, isNameChar c = true
  /-- What is written behind the name. -/
  form : Form

namespace Spelling

/-- The characters of an attribute. -/
def text (s : Spelling) : Text := s.name ++ s.form.text

/-- The attribute that is written at an offset of its tag. -/
def toAttribute (s : Spelling) (offset : ℕ) : Attribute :=
  ⟨String.ofList (lowerText s.name), s.form.value, offset, s.text.length⟩

/-- The first character of an attribute is one of its name. -/
theorem exists_text_eq_cons (s : Spelling) :
    ∃ c rest, s.text = c :: rest ∧ Attribute.isNameChar c = true := by
  obtain ⟨c, rest, hname⟩ := List.exists_cons_of_ne_nil s.name_ne_nil
  refine ⟨c, rest ++ s.form.text, ?_, s.isNameChar c (hname ▸ List.mem_cons_self)⟩
  rw [text, hname, List.cons_append]

/-- The last character of an attribute is that of its name or its value, or a quote. -/
theorem getLast?_text (s : Spelling) :
    s.text.getLast? = match s.form with
      | .bare => s.name.getLast?
      | .quoted _ _ quote _ _ => some quote.char
      | .unquoted _ _ value _ _ => value.getLast? := by
  rw [text]
  cases s.form with
  | bare => rw [Form.text, List.append_nil]
  | quoted before after quote value quote_notMem =>
    have htext : s.name ++ (before.text ++ '=' :: (after.text ++ quote.char ::
        (value ++ [quote.char]))) =
          (s.name ++ (before.text ++ '=' :: (after.text ++ quote.char :: value))) ++
            [quote.char] := by
      simp
    rw [Form.text, htext, List.getLast?_concat]
  | unquoted before after value ne_nil not_blank =>
    have htext : s.name ++ (before.text ++ '=' :: (after.text ++ value)) =
        (s.name ++ (before.text ++ '=' :: after.text)) ++ value := by
      simp
    rw [Form.text, htext, List.getLast?_append_of_ne_nil _ ne_nil]

end Spelling

/-- The text begins with an equals sign, blanks around it, and something behind them. -/
def Assigns (text : Text) : Prop :=
  ∃ (before after : Blanks) (c : Char) (rest : Text),
    text = before.text ++ '=' :: (after.text ++ c :: rest) ∧ isBlank c = false

/-- What is written behind a name is complete if the given text comes next. -/
def Form.StopsBefore (rest : Text) : Form → Prop
  | bare => (∀ c ∈ rest.head?, Attribute.isNameChar c = false) ∧ ¬ Assigns rest
  | quoted _ _ _ _ _ => True
  | unquoted _ _ value _ _ => (∀ c ∈ rest.head?, isBlank c = true) ∧
      ∀ quote : Quote, value.head? = some quote.char → quote.char ∉ value.tail ++ rest

/-! ### Reading a spelling -/

theorem readQuoted?_append {quote : Quote} {value : Text} (h : quote.char ∉ value) (rest : Text) :
    readQuoted? quote (value ++ quote.char :: rest) =
      some (⟨String.ofList value, some quote⟩, rest) := by
  have hvalue : ∀ c ∈ value, (c != quote.char) = true := fun c hc =>
    bne_iff_ne.mpr fun heq => h (heq ▸ hc)
  have hquote : ∀ c ∈ (quote.char :: rest).head?, (c != quote.char) = false := by
    intro c hc
    rw [← Option.some.inj hc, bne_self_eq_false]
  rw [readQuoted?, dropWhile_run hvalue hquote, takeWhile_run hvalue hquote]

theorem readQuoted?_of_notMem {quote : Quote} {text : Text} (h : quote.char ∉ text) :
    readQuoted? quote text = none := by
  have hdrop : text.dropWhile (· != quote.char) = [] := by
    rw [List.dropWhile_eq_nil_iff]
    exact fun c hc => bne_iff_ne.mpr fun heq => h (heq ▸ hc)
  rw [readQuoted?, hdrop]

theorem readContent?_quoted {quote : Quote} {value : Text} (h : quote.char ∉ value) (rest : Text) :
    readContent? (quote.char :: (value ++ quote.char :: rest)) =
      some (⟨String.ofList value, some quote⟩, rest) := by
  rw [readContent?, Quote.ofChar?_eq_some_iff.mpr rfl, Option.bind_some, readQuoted?_append h]

theorem readContent?_unquoted {value rest : Text} (hne : value ≠ [])
    (hvalue : ∀ c ∈ value, isBlank c = false) (hrest : ∀ c ∈ rest.head?, isBlank c = true)
    (hquote : ∀ quote : Quote, value.head? = some quote.char → quote.char ∉ value.tail ++ rest) :
    readContent? (value ++ rest) = some (⟨String.ofList value, none⟩, rest) := by
  obtain ⟨first, others, rfl⟩ := List.exists_cons_of_ne_nil hne
  have hunquoted : readUnquoted (first :: (others ++ rest)) =
      (⟨String.ofList (first :: others), none⟩, rest) := by
    have hrun : ∀ c ∈ first :: others, (!isBlank c) = true := by simpa using hvalue
    have hstop : ∀ c ∈ rest.head?, (!isBlank c) = false := by simpa using hrest
    rw [readUnquoted, ← List.cons_append, takeWhile_run hrun hstop, dropWhile_run hrun hstop]
  -- a quote in front that does not come again is no opening quote
  have hplain : (Quote.ofChar? first).bind (readQuoted? · (others ++ rest)) = none := by
    cases hfirst : Quote.ofChar? first with
    | none => rfl
    | some quote =>
      have hchar := Quote.ofChar?_eq_some_iff.mp hfirst
      exact readQuoted?_of_notMem (hquote quote (congrArg some hchar))
  rw [List.cons_append, readContent?, hplain, hunquoted]

theorem readValue?_assign (before after : Blanks) {content : Text}
    (hcontent : ∀ c ∈ content.head?, isBlank c = false) :
    readValue? (before.text ++ '=' :: (after.text ++ content)) = readContent? content := by
  rw [readValue?, before.dropWhile_equals]
  simp only [dropWhile_run after.isBlank hcontent]

theorem readValue?_of_not_assigns {text : Text} (h : ¬ Assigns text) : readValue? text = none := by
  unfold readValue?
  split
  · next behind hdrop =>
    cases hbehind : behind.dropWhile isBlank with
    | nil => rfl
    | cons c rest =>
      refine absurd ⟨⟨text.takeWhile isBlank, fun c hc => List.mem_takeWhile_imp hc⟩,
        ⟨behind.takeWhile isBlank, fun c hc => List.mem_takeWhile_imp hc⟩, c, rest, ?_, ?_⟩ h
      · rw [← hbehind, List.takeWhile_append_dropWhile, ← hdrop, List.takeWhile_append_dropWhile]
      · exact head?_dropWhile isBlank behind c (by rw [hbehind]; rfl)
  · rfl

/-- **The value of a form is read as such**, if what comes next is not part of it. -/
theorem Form.readValue?_append {form : Form} {rest : Text} (h : form.StopsBefore rest) :
    readValue? (form.text ++ rest) = form.value.map (·, rest) := by
  cases form with
  | bare => exact readValue?_of_not_assigns h.2
  | quoted before after quote value quote_notMem =>
    have hcontent : ∀ c ∈ (quote.char :: (value ++ quote.char :: rest)).head?,
        isBlank c = false := by
      intro c hc
      rw [← Option.some.inj hc]
      exact quote.isBlank_char
    have hread := readValue?_assign before after hcontent
    rw [readContent?_quoted quote_notMem] at hread
    simpa [text, Form.value] using hread
  | unquoted before after value ne_nil not_blank =>
    have hcontent : ∀ c ∈ (value ++ rest).head?, isBlank c = false := by
      obtain ⟨first, others, rfl⟩ := List.exists_cons_of_ne_nil ne_nil
      intro c hc
      rw [← Option.some.inj hc]
      exact not_blank first List.mem_cons_self
    have hread := readValue?_assign before after hcontent
    rw [readContent?_unquoted ne_nil not_blank h.1 h.2] at hread
    simpa [text, Form.value] using hread

/-- Behind a name comes no character that could still belong to it. -/
theorem Form.isNameChar_head? {form : Form} {rest : Text} (h : form.StopsBefore rest) :
    ∀ c ∈ (form.text ++ rest).head?, Attribute.isNameChar c = false := by
  have hassign : ∀ (before : Blanks) (text : Text), ∀ c ∈ (before.text ++ '=' :: text).head?,
      Attribute.isNameChar c = false := by
    intro before text c hc
    cases hbefore : before.text with
    | nil =>
      rw [hbefore] at hc
      rw [← Option.some.inj hc]
      rfl
    | cons first others =>
      rw [hbefore] at hc
      rw [← Option.some.inj hc]
      exact isNameChar_of_isBlank (before.isBlank first (hbefore ▸ List.mem_cons_self))
  cases form with
  | bare => exact h.1
  | quoted before after quote value quote_notMem =>
    simpa [text] using hassign before (after.text ++ quote.char :: (value ++ [quote.char]) ++ rest)
  | unquoted before after value ne_nil not_blank =>
    simpa [text] using hassign before (after.text ++ value ++ rest)

/-- **A spelling is read as such**, if what comes next is not part of it. -/
theorem Spelling.readAt_append (s : Spelling) {rest : Text} (h : s.form.StopsBefore rest)
    (offset : ℕ) : readAt offset (s.text ++ rest) = (s.toAttribute offset, rest) := by
  have hhead := Form.isNameChar_head? h
  have htext : s.text ++ rest = s.name ++ (s.form.text ++ rest) := List.append_assoc _ _ _
  have hname : (s.text ++ rest).takeWhile Attribute.isNameChar = s.name := by
    rw [htext, takeWhile_run s.isNameChar hhead]
  have hbehind : (s.text ++ rest).dropWhile Attribute.isNameChar = s.form.text ++ rest := by
    rw [htext, dropWhile_run s.isNameChar hhead]
  have hlength : (s.text ++ rest).length - rest.length = s.text.length := by
    rw [List.length_append, Nat.add_sub_cancel]
  simp only [readAt, hname, hbehind, Form.readValue?_append h, Spelling.toAttribute]
  rw [← hlength]
  -- reading stops behind the value, and behind the name if there is none
  cases s.form <;> rfl

/-! ### Finding a spelling -/

/-- **Behind a name there is always a form**, up to where it stops. -/
theorem exists_form {text : Text} (h : ∀ c ∈ text.head?, isNameChar c = false) :
    ∃ (form : Form) (rest : Text), text = form.text ++ rest ∧ form.StopsBefore rest := by
  by_cases hassigns : Assigns text
  · obtain ⟨before, after, c, rest, rfl, hc⟩ := hassigns
    by_cases hquoted : ∃ quote : Quote, c = quote.char ∧ quote.char ∈ rest
    · obtain ⟨quote, rfl, hmem⟩ := hquoted
      obtain ⟨value, behind, rfl, hvalue⟩ := List.eq_append_cons_of_mem hmem
      exact ⟨.quoted before after quote value hvalue, behind, by simp [Form.text], trivial⟩
    · -- the run of characters that are not blank starts with `c`
      have hrun : (c :: rest).takeWhile (!isBlank ·) = c :: rest.takeWhile (!isBlank ·) :=
        List.takeWhile_cons_of_pos (by simp [hc])
      refine ⟨.unquoted before after (c :: rest.takeWhile (!isBlank ·)) (List.cons_ne_nil _ _) ?_,
        rest.dropWhile (!isBlank ·), ?_, ?_, ?_⟩
      · intro d hd
        rw [← hrun] at hd
        simpa using List.mem_takeWhile_imp hd
      · simp [Form.text, List.takeWhile_append_dropWhile]
      · simpa using head?_dropWhile (!isBlank ·) rest
      · intro quote hquote hmem
        rw [List.tail_cons, List.takeWhile_append_dropWhile] at hmem
        exact hquoted ⟨quote, Option.some.inj hquote, hmem⟩
  · exact ⟨.bare, text, rfl, h, hassigns⟩

/-- **A text that starts with a name character starts with an attribute.** -/
theorem exists_spelling {c : Char} (hc : isNameChar c = true) (text : Text) :
    ∃ (s : Spelling) (rest : Text), c :: text = s.text ++ rest ∧ s.form.StopsBefore rest := by
  have hname : (c :: text).takeWhile isNameChar ≠ [] := by
    rw [List.takeWhile_cons_of_pos hc]
    exact List.cons_ne_nil _ _
  obtain ⟨form, rest, hform, hstops⟩ := exists_form (head?_dropWhile isNameChar (c :: text))
  refine ⟨⟨(c :: text).takeWhile isNameChar, hname, fun d hd => List.mem_takeWhile_imp hd, form⟩,
    rest, ?_, hstops⟩
  rw [Spelling.text, List.append_assoc, ← hform, List.takeWhile_append_dropWhile]

/-! ### Layouts -/

/-- The text, which starts at `offset` in its tag, is made up of the given attributes and of
characters that cannot stand in a name. -/
inductive Layout : ℕ → Text → List Attribute → Prop
  /-- The text is at its end. -/
  | nil {offset : ℕ} : Layout offset [] []
  /-- The first character cannot stand in a name. -/
  | skip {offset : ℕ} {c : Char} {text : Text} {attrs : List Attribute}
      (hc : isNameChar c = false) (later : Layout (offset + 1) text attrs) :
      Layout offset (c :: text) attrs
  /-- The text begins with an attribute, and `rest` is not part of it. -/
  | attr {offset : ℕ} {rest : Text} {attrs : List Attribute} (s : Spelling)
      (stops : s.form.StopsBefore rest) (later : Layout (offset + s.text.length) rest attrs) :
      Layout offset (s.text ++ rest) (s.toAttribute offset :: attrs)

theorem layout_readAll (offset : ℕ) (text : Text) : Layout offset text (readAll offset text) := by
  fun_induction readAll offset text with
  | case1 offset => exact .nil
  | case2 offset c text hc found ih =>
    obtain ⟨s, rest, htext, hstops⟩ := exists_spelling hc text
    have hfound : found = (s.toAttribute offset, rest) := by
      rw [← s.readAt_append hstops offset, ← htext]
    rw [hfound] at ih ⊢
    rw [htext]
    exact .attr s hstops ih
  | case3 offset c text hc ih => exact .skip (by simpa using hc) ih

/-- **The reader finds the attributes of the one layout of the text.** -/
theorem layout_iff {offset : ℕ} {text : Text} {attrs : List Attribute} :
    Layout offset text attrs ↔ readAll offset text = attrs := by
  constructor
  · intro h
    induction h with
    | nil => exact readAll_nil _
    | skip hc _ ih => rw [readAll_cons_of_neg (by simp [hc]), ih]
    | @attr offset rest attrs s hstops _ ih =>
      have hread := s.readAt_append hstops offset
      obtain ⟨first, others, htext, hfirst⟩ := s.exists_text_eq_cons
      rw [htext, List.cons_append] at hread ⊢
      rw [readAll_cons_of_pos hfirst, hread]
      exact congrArg _ ih
  · rintro rfl
    exact layout_readAll offset text

end Attribute

end MarkupLint
