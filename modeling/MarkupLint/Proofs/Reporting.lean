import MarkupLint.Diagnostic.Finding
import MarkupLint.Proofs.Lists
import MarkupLint.Proofs.Places
import MarkupLint.Tag.Basic

/-!
# Reports that cannot fail

Three things can go wrong when a finding is reported: its range may not be one, it may lie outside
the text, and a gap of its message or hint may have no value. The first two are about places. The
third is a property of the catalogue alone, and it can be decided: `Finding.fits` compares the gaps
of a finding with the names of the values that a rule has to offer, and a finding that fits is
reported wherever it is found.

## Main results

* `Finding.diagnostic_of_fits` — a finding that fits is reported
* `Tag.diagnostic_of_inside` — and so it is at a tag that lies inside the text
-/

namespace MarkupLint

/-! ### Filling templates -/

namespace Template

/-- Whether a piece can be filled from values of the given names. -/
def Part.fits (names : List String) : Part → Bool
  | .text _ => true
  | .field name => names.contains name
  | .broken _ _ => false

/-- Whether all pieces of a template can be filled from values of the given names. -/
def fits (names : List String) (template : Template) : Bool := template.all (Part.fits names)

theorem Part.fill_of_fits {fields : Fields} {part : Part}
    (h : part.fits (fields.map Prod.fst) = true) : ∃ s, part.fill fields = .ok s := by
  cases part with
  | text content => exact ⟨content, rfl⟩
  | broken fault rest => cases h
  | field name =>
    cases hlookup : fields.lookup name with
    | some value => exact ⟨value, by simp [Part.fill, hlookup]⟩
    | none =>
      exfalso
      obtain ⟨field, hfield, rfl⟩ := List.mem_map.mp (List.contains_iff_mem.mp h)
      have hne := List.lookup_eq_none_iff.mp hlookup field hfield
      simp at hne

theorem fill_of_fits {fields : Fields} {template : Template}
    (h : template.fits (fields.map Prod.fst) = true) : ∃ s, template.fill fields = .ok s := by
  have hparts : ∀ part ∈ template, ∃ s, part.fill fields = .ok s := fun part hpart =>
    Part.fill_of_fits (List.all_eq_true.mp h part hpart)
  obtain ⟨ss, hss⟩ := exists_mapM_eq_ok hparts
  exact ⟨String.join ss, by rw [fill, hss]; rfl⟩

end Template

namespace Finding

/-- Whether the message and the hint of a finding can be filled from values of the given names. -/
def fits (names : List String) (finding : Finding) : Bool :=
  finding.message.fits names && finding.hint.all (Template.fits names)

/-- **A finding that fits is reported**, with its own code, at the place it is given. -/
theorem diagnostic_of_fits {finding : Finding} {fields : Template.Fields}
    (h : finding.fits (fields.map Prod.fst) = true) (span : Span) (range : Range) :
    ∃ d, finding.diagnostic span range fields = .ok d ∧ d.code = finding.code ∧
      finding.message.fill fields = .ok d.message ∧ d.span = span ∧ d.range = range := by
  obtain ⟨hmessage, hhint⟩ := Bool.and_eq_true_iff.mp h
  obtain ⟨message, hmessage⟩ := Template.fill_of_fits hmessage
  rw [diagnostic, hmessage]
  cases hint : finding.hint with
  | none => exact ⟨_, rfl, rfl, rfl, rfl, rfl⟩
  | some template =>
    rw [hint, Option.all_some] at hhint
    obtain ⟨s, hs⟩ := Template.fill_of_fits hhint
    refine ⟨⟨finding.code, finding.kind, message, span, range, finding.severity, some s,
      finding.category⟩, ?_, rfl, rfl, rfl, rfl⟩
    simp only [Option.mapM_some, hs]
    rfl

end Finding

/-! ### Tags inside a text -/

namespace Tag

/-- The tag lies inside the text of a line table. -/
def Inside (tag : Tag) (table : LineTable) : Prop := 0 ≤ tag.start ∧ tag.stop ≤ table.length

instance (tag : Tag) (table : LineTable) : Decidable (tag.Inside table) :=
  inferInstanceAs (Decidable (_ ∧ _))

theorem Inside.start_le {tag : Tag} {table : LineTable} (h : tag.Inside table) :
    tag.start ≤ table.length := by
  have hstop := h.2
  rw [Tag.stop] at hstop
  omega

theorem Inside.exists_range {tag : Tag} {table : LineTable} (h : tag.Inside table) :
    ∃ range, tag.range = .ok range ∧ range.start = tag.start ∧ range.stop = tag.stop ∧
      range.stop ≤ table.length := by
  obtain ⟨hstart, hstop⟩ := h
  obtain ⟨first, hfirst⟩ := Int.eq_ofNat_of_zero_le hstart
  have hlast : tag.stop = (first + tag.raw.length : ℕ) := by
    rw [Tag.stop, hfirst]
    rfl
  refine ⟨⟨first, first + tag.raw.length, Nat.le_add_right _ _⟩, ?_, hfirst.symm, hlast.symm, ?_⟩
  · exact Range.ofBounds_eq_ok_iff.mpr ⟨hfirst, hlast⟩
  · rw [hlast] at hstop
    exact Int.ofNat_le.mp hstop

/-- **A finding that fits is reported at a tag inside the text**, at the range of the tag. -/
theorem diagnostic_of_inside {tag : Tag} {table : LineTable} (htag : tag.Inside table)
    {finding : Finding} {fields : Template.Fields}
    (hfits : finding.fits (fields.map Prod.fst) = true) :
    ∃ d, (do
        let range ← tag.range
        let span ← table.span range
        finding.diagnostic span range fields) = .ok d ∧
      d.code = finding.code ∧ finding.message.fill fields = .ok d.message ∧
      tag.range = .ok d.range := by
  obtain ⟨range, hrange, -, -, hstop⟩ := htag.exists_range
  obtain ⟨d, hd, hcode, hmessage, -, hplace⟩ :=
    Finding.diagnostic_of_fits hfits (table.locateRange range) range
  refine ⟨d, ?_, hcode, hmessage, by rw [hplace, hrange]⟩
  simp only [bind_eq_ok_iff]
  exact ⟨range, hrange, _, LineTable.span_of_stop_le hstop, hd⟩

end Tag

end MarkupLint
