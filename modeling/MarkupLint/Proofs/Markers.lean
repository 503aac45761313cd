import Mathlib.Data.List.Infix
import MarkupLint.Proofs.Arrangement
import MarkupLint.Proofs.LetterCase

/-!
# Markers, and what lowercase does to them

A marker is a text that every document should hold, in letters of either case. It is searched in the
lowercase of the document, and that is not the document with its ASCII letters made small: letters
of all scripts are mapped, one of them to two characters, one of them differently at the end of a
word, and one of them, the Kelvin sign, to the ASCII letter `k`. This file shows that the markers of
the library are found where they stand, all the same, and nowhere else.

There are two ways for a character outside ASCII to look like an ASCII letter in lowercase. The
Kelvin sign does, and so does the capital I with a dot, which becomes a small `i` with a combining
dot behind it. So a marker is safe if it is made of ASCII characters, has no `k`, and does not end
with an `i`: an `i` inside it is followed by something that is no combining dot. `Plain` asks for
that. All other characters outside ASCII have their lowercase outside, too, by the table.

## Main results

* `lowerChar_of_ascii`, `foreign_lowerChar` — the lowercase of one character
* `Plain.isInfix_lowerFrom_iff` — a plain marker in the lowercase of a text
* `Lint.validate_reports_missing_markers` — the markers that are reported as missing
-/

namespace MarkupLint

/-! ### Occurrences -/

theorem occursIn_iff_isInfix {pattern text : Text} :
    occursIn pattern text = true ↔ pattern <:+: text := by
  induction text with
  | nil => rw [occursIn, List.isEmpty_iff, List.infix_nil]
  | cons c text ih =>
    rw [occursIn, Bool.or_eq_true, List.isPrefixOf_iff_prefix, ih, List.infix_cons_iff]

/-- The text holds the marker at some offset, in letters of either case. -/
def Holds (text marker : Text) : Prop :=
  ∃ p, foldText ((text.drop p).take marker.length) = foldText marker

theorem holds_iff_isInfix {text marker : Text} :
    Holds text marker ↔ foldText marker <:+: foldText text := by
  constructor
  · rintro ⟨p, hp⟩
    rw [← hp]
    exact (((List.take_prefix _ _).isInfix).trans (List.drop_suffix p text).isInfix).map _
  · rintro ⟨front, back, heq⟩
    refine ⟨front.length, ?_⟩
    have hlength : marker.length = (foldText marker).length := (length_foldText marker).symm
    rw [foldText, List.map_take, ← foldText, ← drop_foldText, ← heq, List.append_assoc,
      List.drop_left, hlength, List.take_left]

instance (text marker : Text) : Decidable (Holds text marker) :=
  decidable_of_iff _ (occursIn_iff_isInfix.trans holds_iff_isInfix.symm)

/-! ### The lowercase of one character -/

/-- The lowercase of an ASCII character is its small letter. -/
theorem lowerChar_of_ascii {c : Char} (h : c.toNat < 128) : lowerChar c = [c.toLower] := by
  have hall : ∀ i : Fin 128, lowerChar (Char.ofNat i) = [(Char.ofNat i).toLower] := by
    decide +kernel
  have hc := hall ⟨c.toNat, h⟩
  rwa [Char.ofNat_toNat] at hc

/-- What the lowercase of a character outside ASCII can be: outside ASCII, or one of two letters
that are not. -/
def Foreign (lowered : Text) : Prop :=
  lowered = ['k'] ∨ lowered = ['i', '\u0307'] ∨ ∃ d, lowered = [d] ∧ 128 ≤ d.toNat

/-- Capitals outside ASCII, but for the Kelvin sign, have their small letters outside ASCII. -/
theorem caseRuns_outside : ∀ run ∈ caseRuns, run.last < 128 ∨
    (run.first = 0x212A ∧ run.last = 0x212A) ∨ (128 ≤ run.first + run.shift ∧
      (run.last + run.shift < 0xD800 ∨
        (0xE000 ≤ run.first + run.shift ∧ run.last + run.shift < 0x110000))) := by
  decide +kernel

/-- **The lowercase of a character outside ASCII.** -/
theorem foreign_lowerChar {c : Char} (h : 128 ≤ c.toNat) : Foreign (lowerChar c) := by
  by_cases hdotted : c = '\u0130'
  · exact .inr (.inl (by rw [lowerChar, if_pos hdotted]))
  by_cases hkelvin : c = '\u212a'
  · exact .inl (by rw [hkelvin]; decide +kernel)
  rw [lowerChar, if_neg hdotted]
  cases hrun : caseRuns.find? (·.contains c.toNat) with
  | none => exact .inr (.inr ⟨c, rfl, h⟩)
  | some run =>
    have hcontains := List.find?_some hrun
    simp only [CaseRun.contains, Bool.and_eq_true, decide_eq_true_eq] at hcontains
    rcases caseRuns_outside run (List.mem_of_find?_eq_some hrun) with hascii | hsign | hbounds
    · omega
    · refine absurd ?_ hkelvin
      rw [← Char.ofNat_toNat c, show c.toNat = 0x212A by omega]
    · have hvalid : (c.toNat + run.shift).toNat.isValidChar := by
        rw [Nat.isValidChar]
        omega
      refine .inr (.inr ⟨_, rfl, ?_⟩)
      rw [Char.ofNat, dif_pos hvalid]
      show 128 ≤ (c.toNat + run.shift).toNat
      omega

/-- Outside ASCII there are no ASCII letters to be made small. -/
theorem toLower_of_not_ascii {c : Char} (h : 128 ≤ c.toNat) : c.toLower = c := by
  by_contra hne
  obtain ⟨i, rfl, -⟩ := exists_letter hne
  exact absurd h ((by decide +kernel : ∀ i : Fin 26, ¬ 128 ≤ (Char.ofNat (65 + i)).toNat) i)

/-- The first character in lowercase, and the rest behind it. -/
theorem lowerFrom_cons_cases (inWord : Bool) (c : Char) (rest : Text) :
    ∃ lowered inWord', lowerFrom inWord (c :: rest) = lowered ++ lowerFrom inWord' rest ∧
      (c.toNat < 128 ∧ lowered = [c.toLower] ∨ 128 ≤ c.toNat ∧ Foreign lowered) := by
  refine ⟨_, _, rfl, ?_⟩
  by_cases hascii : c.toNat < 128
  · have hsigma : ¬ (c = '\u03a3' && inWord && !followsCased rest) = true := by
      have hne : c ≠ '\u03a3' := by
        rintro rfl
        exact absurd hascii (by decide)
      simp [hne]
    rw [if_neg hsigma]
    exact .inl ⟨hascii, lowerChar_of_ascii hascii⟩
  · refine .inr ⟨Nat.not_lt.mp hascii, ?_⟩
    split
    · exact .inr (.inr ⟨'\u03c2', rfl, by decide⟩)
    · exact foreign_lowerChar (Nat.not_lt.mp hascii)

/-! ### Plain markers -/

/-- No character outside ASCII looks like a part of the marker in lowercase. -/
structure Plain (marker : Text) : Prop where
  ne_nil : marker ≠ []
  isAscii : ∀ c ∈ marker, c.toNat < 128
  /-- The Kelvin sign becomes a `k`. -/
  k_notMem : 'k' ∉ marker
  /-- A capital I with a dot becomes an `i` with a combining dot behind it. -/
  getLast?_ne : marker.getLast? ≠ some 'i'

-- `all` keeps the check to the characters of the marker: characters as such are a finite type
instance : DecidablePred Plain := fun marker =>
  decidable_of_iff (marker ≠ [] ∧ marker.all (·.toNat < 128) = true ∧ 'k' ∉ marker ∧
    marker.getLast? ≠ some 'i')
    ⟨fun ⟨hne, hascii, hk, hlast⟩ =>
      ⟨hne, fun c hc => of_decide_eq_true (List.all_eq_true.mp hascii c hc), hk, hlast⟩,
      fun h => ⟨h.ne_nil, List.all_eq_true.mpr fun c hc => decide_eq_true (h.isAscii c hc),
        h.k_notMem, h.getLast?_ne⟩⟩

namespace Plain

variable {marker : Text}

theorem tail {c : Char} (h : Plain (c :: marker)) (hne : marker ≠ []) : Plain marker where
  ne_nil := hne
  isAscii d hd := h.isAscii d (List.mem_cons_of_mem c hd)
  k_notMem hk := h.k_notMem (List.mem_cons_of_mem c hk)
  getLast?_ne hlast := h.getLast?_ne (by rw [List.getLast?_cons, hlast]; rfl)

/-- A plain marker does not start with what the lowercase of a foreign character is. -/
theorem not_isPrefix_of_foreign (h : Plain marker) {lowered : Text} (hlowered : Foreign lowered)
    (rest : Text) : ¬ marker <+: lowered ++ rest := by
  obtain ⟨first, others, rfl⟩ := List.exists_cons_of_ne_nil h.ne_nil
  rcases hlowered with rfl | rfl | ⟨d, rfl, hd⟩
  · intro hprefix
    exact h.k_notMem ((List.cons_prefix_cons.mp hprefix).1 ▸ List.mem_cons_self)
  · intro hprefix
    obtain ⟨rfl, hothers⟩ := List.cons_prefix_cons.mp hprefix
    cases others with
    | nil => exact h.getLast?_ne rfl
    | cons second others =>
      have hsecond := h.isAscii second (by simp)
      rw [(List.cons_prefix_cons.mp hothers).1] at hsecond
      exact absurd hsecond (by decide)
  · intro hprefix
    have hfirst := h.isAscii first List.mem_cons_self
    rw [(List.cons_prefix_cons.mp hprefix).1] at hfirst
    omega

/-- A plain marker does not start anywhere in what the lowercase of a foreign character is. -/
theorem isInfix_append_iff (h : Plain marker) {lowered : Text} (hlowered : Foreign lowered)
    (rest : Text) : marker <:+: lowered ++ rest ↔ marker <:+: rest := by
  have hfirst := h.not_isPrefix_of_foreign hlowered rest
  rcases hlowered with rfl | rfl | ⟨d, rfl, hd⟩
  · exact List.infix_cons_iff.trans (or_iff_right hfirst)
  · -- nor does it start with the combining dot
    have hsecond := h.not_isPrefix_of_foreign (.inr (.inr ⟨'\u0307', rfl, by decide⟩)) rest
    exact (List.infix_cons_iff.trans (or_iff_right hfirst)).trans
      (List.infix_cons_iff.trans (or_iff_right hsecond))
  · exact List.infix_cons_iff.trans (or_iff_right hfirst)

theorem isPrefix_lowerFrom_iff (h : Plain marker) (inWord : Bool) (text : Text) :
    marker <+: lowerFrom inWord text ↔ marker <+: foldText text := by
  induction text generalizing marker inWord with
  | nil => exact Iff.rfl
  | cons c rest ih =>
    obtain ⟨lowered, inWord', hlower, ⟨hascii, rfl⟩ | ⟨houtside, hforeign⟩⟩ :=
      lowerFrom_cons_cases inWord c rest
    · obtain ⟨first, others, rfl⟩ := List.exists_cons_of_ne_nil h.ne_nil
      rw [hlower, List.singleton_append, foldText_cons, List.cons_prefix_cons,
        List.cons_prefix_cons]
      refine and_congr_right fun _ => ?_
      by_cases hothers : others = []
      · rw [hothers]
        exact iff_of_true List.nil_prefix List.nil_prefix
      · exact ih (h.tail hothers) inWord'
    · rw [hlower, foldText_cons, toLower_of_not_ascii houtside]
      exact iff_of_false (h.not_isPrefix_of_foreign hforeign _)
        (h.not_isPrefix_of_foreign (.inr (.inr ⟨c, rfl, houtside⟩)) _)

/-- **A plain marker in the lowercase of a text** stands where it stands in the folded text. -/
theorem isInfix_lowerFrom_iff (h : Plain marker) (inWord : Bool) (text : Text) :
    marker <:+: lowerFrom inWord text ↔ marker <:+: foldText text := by
  induction text generalizing inWord with
  | nil => exact Iff.rfl
  | cons c rest ih =>
    have hfront := h.isPrefix_lowerFrom_iff inWord (c :: rest)
    obtain ⟨lowered, inWord', hlower, ⟨hascii, rfl⟩ | ⟨houtside, hforeign⟩⟩ :=
      lowerFrom_cons_cases inWord c rest
    · rw [hlower] at hfront ⊢
      rw [List.singleton_append] at hfront ⊢
      rw [List.infix_cons_iff, hfront, ih inWord', foldText_cons, List.infix_cons_iff]
    · rw [hlower, h.isInfix_append_iff hforeign, ih inWord', foldText_cons,
        toLower_of_not_ascii houtside]
      exact (h.isInfix_append_iff (.inr (.inr ⟨c, rfl, houtside⟩)) _).symm

/-- A plain marker in small letters is searched as it should be. -/
theorem occursIn_lowerText_iff (h : Plain marker) (hsmall : foldText marker = marker)
    (text : Text) : occursIn marker (lowerText text) = true ↔ Holds text marker := by
  rw [occursIn_iff_isInfix, lowerText, h.isInfix_lowerFrom_iff, holds_iff_isInfix, hsmall]

end Plain

/-! ### Markers that are missing -/

theorem Finding.code_of_diagnostic {finding : Finding} {span : Span} {range : Range}
    {fields : Template.Fields} {d : Diagnostic}
    (h : finding.diagnostic span range fields = .ok d) : d.code = finding.code := by
  obtain ⟨message, -, h⟩ := bind_eq_ok_iff.mp h
  obtain ⟨hint, -, heq⟩ := bind_eq_ok_iff.mp h
  rw [← Except.ok.inj heq]

namespace Rule

/-- The markers of the library can be searched in lowercase. -/
theorem plain_markers : ∀ marker ∈ documentMarkers ++ searchMarkers,
    Plain marker.1.toList ∧ foldText marker.1.toList = marker.1.toList := by
  decide +kernel

/-- The markers that the text does not hold. -/
def absent (text : Text) (markers : List (String × Finding)) : List (String × Finding) :=
  markers.filter fun marker => ¬ Holds text marker.1.toList

theorem missingMarkers_eq {scan : Scan} {markers : List (String × Finding)}
    (h : ∀ marker ∈ markers, Plain marker.1.toList ∧
      foldText marker.1.toList = marker.1.toList) :
    scan.missingMarkers markers = (absent scan.text markers).map Prod.snd := by
  rw [Scan.missingMarkers, absent]
  refine congrArg (List.map Prod.snd) (List.filter_congr fun marker hmarker => ?_)
  obtain ⟨hplain, hsmall⟩ := h marker hmarker
  rw [Bool.eq_iff_iff, Bool.not_eq_true', ← Bool.not_eq_true,
    hplain.occursIn_lowerText_iff hsmall, decide_eq_true_iff]

/-- Of the given markers, those that the text does not hold are reported. -/
structure ReportsMissing (markers : List (String × Finding)) (text : Text)
    (found : List Diagnostic) : Prop where
  /-- A marker is reported if it stands nowhere in the text. -/
  reported_iff : ∀ marker ∈ markers,
    (∃ d ∈ found, d.code = marker.2.code) ↔ ¬ Holds text marker.1.toList
  /-- Each is reported once, for the document as a whole, in the order of the table. -/
  in_order : (absent text markers).mapM (·.2.documentDiagnostic) =
    .ok (found.filter (·.code ∈ markers.map (·.2.code)))

variable {markers : List (String × Finding)} {text : Text} {found : List Diagnostic}

/-- Where codes differ, a marker is known by its code. -/
theorem reportsMissing_of_in_order (hcodes : (markers.map (·.2.code)).Nodup)
    (h : (absent text markers).mapM (·.2.documentDiagnostic) =
      .ok (found.filter (·.code ∈ markers.map (·.2.code)))) :
    ReportsMissing markers text found := by
  have hreports := mapM_eq_ok_iff.mp h
  refine ⟨fun marker hmarker => ⟨?_, fun hholds => ?_⟩, h⟩
  · rintro ⟨d, hd, hcode⟩
    have hlisted : d ∈ found.filter (·.code ∈ markers.map (·.2.code)) := by
      refine List.mem_filter.mpr ⟨hd, decide_eq_true ?_⟩
      exact hcode ▸ List.mem_map_of_mem hmarker
    obtain ⟨marker', hmarker', hdiagnostic⟩ := exists_mem_of_forall₂ hreports hlisted
    obtain ⟨hmem, hholds⟩ := List.mem_filter.mp hmarker'
    have hsame : marker' = marker := List.inj_on_of_nodup_map hcodes hmem hmarker
      ((Finding.code_of_diagnostic hdiagnostic).symm.trans hcode)
    rw [hsame] at hholds
    exact of_decide_eq_true hholds
  · have hmem : marker ∈ absent text markers :=
      List.mem_filter.mpr ⟨hmarker, decide_eq_true hholds⟩
    obtain ⟨d, hd, hdiagnostic⟩ := exists_mem_of_forall₂ hreports.flip hmem
    exact ⟨d, List.mem_of_mem_filter hd, Finding.code_of_diagnostic hdiagnostic⟩

theorem filter_missing {missing : List Diagnostic}
    (h : (absent text markers).mapM (·.2.documentDiagnostic) = .ok missing) :
    missing.filter (·.code ∈ markers.map (·.2.code)) = missing := by
  refine List.filter_eq_self.mpr fun d hd => decide_eq_true ?_
  obtain ⟨marker, hmarker, hdiagnostic⟩ := exists_mem_of_forall₂ (mapM_eq_ok_iff.mp h) hd
  rw [Finding.code_of_diagnostic hdiagnostic]
  exact List.mem_map_of_mem (List.mem_of_mem_filter hmarker)

/-- What holds of the report of a rule holds of the whole report, if the rule declares the codes. -/
theorem ReportsMissing.of_filter {codes : List String}
    (hcodes : (markers.map (·.2.code)).Nodup) (hdeclared : markers.map (·.2.code) ⊆ codes)
    (h : ReportsMissing markers text (found.filter (·.code ∈ codes))) :
    ReportsMissing markers text found := by
  refine reportsMissing_of_in_order hcodes (h.in_order.trans (congrArg Except.ok ?_))
  rw [List.filter_filter]
  refine List.filter_congr fun d _ => ?_
  rw [← Bool.decide_and, decide_eq_decide]
  exact and_iff_left_of_imp fun hmem => hdeclared hmem

theorem reportsMissing_documentSkeleton {scan : Scan} {options : Options}
    (h : documentSkeleton.check scan options = .ok found) :
    ReportsMissing documentMarkers scan.text found := by
  have hplain : ∀ marker ∈ documentMarkers, _ := fun marker hmarker =>
    plain_markers marker (List.mem_append_left _ hmarker)
  have hfound : (scan.missingMarkers documentMarkers).mapM Finding.documentDiagnostic =
    .ok found := h
  rw [missingMarkers_eq hplain, List.mapM_map] at hfound
  refine reportsMissing_of_in_order (by decide) (hfound.trans (congrArg Except.ok ?_))
  exact (filter_missing hfound).symm

theorem reportsMissing_searchAdvice {scan : Scan} {options : Options}
    (h : searchAdvice.check scan options = .ok found) :
    ReportsMissing searchMarkers scan.text found := by
  have hplain : ∀ marker ∈ searchMarkers, _ := fun marker hmarker =>
    plain_markers marker (List.mem_append_right _ hmarker)
  obtain ⟨missing, hmissing, h⟩ := bind_eq_ok_iff.mp h
  obtain ⟨skips, hskips, heq⟩ := bind_eq_ok_iff.mp h
  obtain rfl := Except.ok.inj heq
  rw [missingMarkers_eq hplain, List.mapM_map] at hmissing
  -- a heading that skips a level has another code
  have hothers : skips.filter (·.code ∈ searchMarkers.map (·.2.code)) = [] := by
    refine List.filter_eq_nil_iff.mpr fun d hd => ?_
    obtain ⟨skip, -, hskip⟩ := exists_mem_of_forall₂ (mapM_eq_ok_iff.mp hskips) hd
    obtain ⟨range, -, hskip⟩ := bind_eq_ok_iff.mp hskip
    obtain ⟨span, -, hskip⟩ := bind_eq_ok_iff.mp hskip
    rw [Finding.code_of_diagnostic hskip]
    decide
  refine reportsMissing_of_in_order (by decide) (hmissing.trans (congrArg Except.ok ?_))
  rw [List.filter_append, filter_missing hmissing, hothers, List.append_nil]

end Rule

/-- **The markers that are reported as missing** are those that the text does not hold in letters of
either case, whatever else the text is made of. -/
theorem Lint.validate_reports_missing_markers (text : Text) (options : Options) :
    ∃ scan skeleton search, Scan.ofText text = .ok scan ∧
      Rule.documentSkeleton.check scan options = .ok skeleton ∧
      Rule.searchAdvice.check scan options = .ok search ∧
      Rule.ReportsMissing Rule.documentMarkers text skeleton ∧
      Rule.ReportsMissing Rule.searchMarkers text search ∧
      Rule.ReportsMissing Rule.documentMarkers text (validate text options) ∧
      Rule.ReportsMissing Rule.searchMarkers text (validate text options) := by
  obtain ⟨scan, hscan, htext, -⟩ := Scan.exists_ofText text
  have hcheck : ∀ rule ∈ Rule.builtin, ∃ found, rule.check scan options = .ok found :=
    fun rule hrule => Rule.exists_check_of_mem_builtin
      (fun tag htag => Scan.inside_of_ofText hscan htag) options hrule
  have hskeleton : Rule.documentSkeleton ∈ Rule.builtin := by simp [Rule.builtin]
  have hsearch : Rule.searchAdvice ∈ Rule.builtin := by simp [Rule.builtin]
  obtain ⟨skeleton, hskeletonFound⟩ := hcheck _ hskeleton
  obtain ⟨search, hsearchFound⟩ := hcheck _ hsearch
  have hdocument := Rule.reportsMissing_documentSkeleton hskeletonFound
  have hadvice := Rule.reportsMissing_searchAdvice hsearchFound
  rw [htext] at hdocument hadvice
  refine ⟨scan, skeleton, search, hscan, hskeletonFound, hsearchFound, hdocument, hadvice, ?_, ?_⟩
  · rw [← filter_validate hscan hskeleton hskeletonFound] at hdocument
    exact hdocument.of_filter (by decide) (by decide)
  · rw [← filter_validate hscan hsearch hsearchFound] at hadvice
    exact hadvice.of_filter (by decide) (by decide)

end MarkupLint
