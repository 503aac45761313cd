import MarkupLint.Proofs.OptionEffects

/-!
# Heading levels

A heading should be at most one level below the heading before it. Going up by any number of levels
is fine, since that only ends sections. So each heading is compared with its neighbour, and what the
rule remembers of all the headings so far is the level of the last one, whether or not that one was
reported itself.

Looking at neighbours is enough to know the whole document. A level between that of the first
heading and that of some later one can be passed over only by going down, and without skips going
down takes one level at a time. Hence a document without skips has, before or at each heading, a
heading of every level in between.

## Main results

* `Scan.tags_headings`, `Scan.name_of_mem_headings` — which tags are headings, and their levels
* `Rule.headingSkips_none` — the skips are those between neighbours
* `Rule.exists_heading_of_level` — without skips no level is left out
* `Rule.heading_skips_reported` — what is reported on a text
-/

namespace MarkupLint

/-! ### Headings -/

/-- The names of headings have levels, which they say. -/
theorem Vocabulary.exists_headingLevel? :
    ∀ name ∈ ["h1", "h2", "h3", "h4", "h5", "h6"], ∃ heading ∈ headings,
      headingLevel? name = some heading.2 ∧ name = "h" ++ toString heading.2 := by
  decide +kernel

namespace Scan

/-- The opening tags of headings. -/
def headingTags (scan : Scan) : List Tag :=
  scan.tags.filter fun tag =>
    tag.isOpening && ["h1", "h2", "h3", "h4", "h5", "h6"].contains tag.name

theorem exists_level_of_mem_headingTags {scan : Scan} {tag : Tag} (h : tag ∈ scan.headingTags) :
    ∃ level, Vocabulary.headingLevel? tag.name = some level ∧
      tag.name = "h" ++ toString level := by
  have hname := (Bool.and_eq_true_iff.mp (List.mem_filter.mp h).2).2
  obtain ⟨heading, -, hlevel⟩ :=
    Vocabulary.exists_headingLevel? tag.name (List.contains_iff_mem.mp hname)
  exact ⟨heading.2, hlevel⟩

/-- All of them are taken for headings. -/
theorem tags_headings (scan : Scan) : scan.headings.map Prod.fst = scan.headingTags := by
  have hsome : (scan.headingTags.filterMap fun tag =>
      ((Vocabulary.headingLevel? tag.name).map (tag, ·)).map Prod.fst) =
        scan.headingTags.filterMap some := by
    refine List.filterMap_congr fun tag htag => ?_
    obtain ⟨level, hlevel, -⟩ := exists_level_of_mem_headingTags htag
    rw [hlevel]
    rfl
  rw [headings, List.map_filterMap]
  exact hsome.trans List.filterMap_some

/-- The level of a heading is the one that its name says. -/
theorem name_of_mem_headings {scan : Scan} {heading : Tag × ℕ} (h : heading ∈ scan.headings) :
    heading.1.name = "h" ++ toString heading.2 := by
  obtain ⟨tag, htag, hmap⟩ := List.mem_filterMap.mp h
  obtain ⟨level, hlevel, rfl⟩ := Option.map_eq_some_iff.mp hmap
  obtain ⟨level', hlevel', hname⟩ := exists_level_of_mem_headingTags htag
  rw [hlevel'] at hlevel
  rw [← Option.some.inj hlevel]
  exact hname

end Scan

/-! ### Skips between neighbours -/

namespace Rule

/-- The headings that are more than one level below the heading before them, each behind that
heading. -/
def skippingNeighbours (headings : List (Tag × ℕ)) : List ((Tag × ℕ) × (Tag × ℕ)) :=
  (headings.zip headings.tail).filter fun pair => pair.1.2 + 1 < pair.2.2

theorem skippingNeighbours_cons_cons (heading next : Tag × ℕ) (rest : List (Tag × ℕ)) :
    skippingNeighbours (heading :: next :: rest) =
      if heading.2 + 1 < next.2 then (heading, next) :: skippingNeighbours (next :: rest)
      else skippingNeighbours (next :: rest) := by
  simp [skippingNeighbours, List.filter_cons]

/-- What is remembered of the headings before is the level of the last one. -/
theorem headingSkips_some (heading : Tag × ℕ) (rest : List (Tag × ℕ)) :
    headingSkips (some heading.2) rest =
      (skippingNeighbours (heading :: rest)).map fun pair => (pair.2.1, pair.1.2, pair.2.2) := by
  induction rest generalizing heading with
  | nil => rfl
  | cons next rest ih =>
    rw [headingSkips, ih next, skippingNeighbours_cons_cons, apply_ite (List.map _)]
    rfl

/-- **The skips are those between neighbours.** -/
theorem headingSkips_none (headings : List (Tag × ℕ)) :
    headingSkips none headings =
      (skippingNeighbours headings).map fun pair => (pair.2.1, pair.1.2, pair.2.2) := by
  cases headings with
  | nil => rfl
  | cons heading rest => exact headingSkips_some heading rest

section NoSkips

variable {headings : List (Tag × ℕ)} (h : skippingNeighbours headings = [])

include h

/-- Without skips, a heading is at most one level below the one before it. -/
theorem level_le_succ {i : ℕ} {above heading : Tag × ℕ} (habove : headings[i]? = some above)
    (hheading : headings[i + 1]? = some heading) : heading.2 ≤ above.2 + 1 := by
  have hmem : (above, heading) ∈ headings.zip headings.tail := by
    refine List.mem_of_getElem? (i := i) (List.getElem?_zip_eq_some.mpr ⟨habove, ?_⟩)
    rwa [List.getElem?_tail]
  simpa using List.filter_eq_nil_iff.mp h _ hmem

/-- **Without skips, no level is left out on the way down.** -/
theorem exists_heading_of_level {first : Tag × ℕ} (hfirst : headings[0]? = some first) {i : ℕ}
    {heading : Tag × ℕ} (hheading : headings[i]? = some heading) {level : ℕ}
    (hle : first.2 ≤ level) (hlevel : level ≤ heading.2) :
    ∃ j ≤ i, ∃ tag, headings[j]? = some (tag, level) := by
  induction i generalizing heading with
  | zero =>
    obtain rfl := Option.some.inj (hfirst.symm.trans hheading)
    obtain rfl : first.2 = level := hle.antisymm hlevel
    exact ⟨0, le_rfl, first.1, hfirst⟩
  | succ i ih =>
    have hlength := (List.getElem?_eq_some_iff.mp hheading).1
    obtain ⟨above, habove⟩ : ∃ above, headings[i]? = some above :=
      ⟨_, List.getElem?_eq_getElem (Nat.lt_of_succ_lt hlength)⟩
    have hstep := level_le_succ h habove hheading
    -- the level was passed before, or it is that of the heading itself
    by_cases hpassed : level ≤ above.2
    · obtain ⟨j, hj, hfound⟩ := ih habove hpassed
      exact ⟨j, Nat.le_succ_of_le hj, hfound⟩
    · obtain rfl : heading.2 = level := by omega
      exact ⟨i + 1, le_rfl, heading.1, hheading⟩

end NoSkips

/-! ### What is reported -/

/-- The diagnostic says that `heading` skips a level below `above`, and where. -/
structure SaysSkip (table : LineTable) (above heading : Tag × ℕ) (d : Diagnostic) : Prop where
  /-- It is at the range of the heading. -/
  range_eq : heading.1.range = .ok d.range
  /-- Its span is that of the range. -/
  span_eq : table.span d.range = .ok d.span
  /-- It names both levels. -/
  message_eq : d.message =
    "heading hierarchy skipped from h" ++ toString above.2 ++ " to h" ++ toString heading.2

/-- The diagnostics are about the headings that skip a level. -/
structure SkipsReported (table : LineTable) (headings : List (Tag × ℕ)) (skips : List Diagnostic) :
    Prop where
  /-- There is one for each pair of neighbours with a skip, in their order. -/
  reported : List.Forall₂ (fun pair => SaysSkip table pair.1 pair.2)
    (skippingNeighbours headings) skips
  /-- If there is none, the headings up to any one have all levels from the first one's to its. -/
  no_gap : skips = [] → ∀ (i : ℕ) (first heading : Tag × ℕ) (level : ℕ), headings[0]? = some first →
    headings[i]? = some heading → first.2 ≤ level → level ≤ heading.2 →
      ∃ j ≤ i, ∃ tag, headings[j]? = some (tag, level)

theorem saysSkip_of_notice {table : LineTable} {precise : Bool} {above heading : Tag × ℕ}
    {d : Diagnostic} (h : (heading.1.notice .headingSkip [("previous", toString above.2),
      ("current", toString heading.2)]).diagnostic table precise = .ok d) :
    SaysSkip table above heading d := by
  obtain ⟨hresolve, hsaid⟩ := Notice.diagnostic_eq_ok_iff.mp h
  obtain ⟨range, hrange, hresolve⟩ := bind_eq_ok_iff.mp hresolve
  obtain ⟨span, hspan, heq⟩ := bind_eq_ok_iff.mp hresolve
  obtain ⟨rfl, rfl⟩ := Prod.mk.inj (Except.ok.inj heq)
  exact ⟨hrange, hspan, (Except.ok.inj hsaid.message_eq).symm⟩

theorem filter_searchNotices (scan : Scan) :
    (scan.markerNotices searchMarkers ++ scan.headingNotices).filter
      (·.finding.code == "SEO_HEADING_SKIP") = scan.headingNotices := by
  have hmarkers : ∀ notice ∈ scan.markerNotices searchMarkers,
      notice.finding.code ≠ "SEO_HEADING_SKIP" := by
    intro notice hnotice
    have hcodes : ∀ finding ∈ searchMarkers.map Prod.snd,
        finding.code ≠ "SEO_HEADING_SKIP" := by
      decide
    exact hcodes _ (mem_of_mem_markerNotices hnotice)
  have hheadings : ∀ notice ∈ scan.headingNotices,
      (notice.finding.code == "SEO_HEADING_SKIP") = true := by
    intro notice hnotice
    obtain ⟨skip, -, rfl⟩ := List.mem_map.mp hnotice
    rfl
  rw [List.filter_append, filter_eq_eq_nil hmarkers, List.filter_eq_self.mpr hheadings,
    List.nil_append]

theorem skipsReported_of_check {scan : Scan} {options : Options} {found : List Diagnostic}
    (h : searchAdvice.check scan options = .ok found) :
    SkipsReported scan.table scan.headings (found.filter (·.code == "SEO_HEADING_SKIP")) := by
  have hfound : scan.Reports options.precisePositions _ found := Scan.reports_searchAdvice h
  have hreports := hfound.filter (· == "SEO_HEADING_SKIP")
  rw [filter_searchNotices, Scan.headingNotices, headingSkips_none, List.map_map, Scan.Reports,
    List.forall₂_map_left_iff] at hreports
  refine ⟨hreports.imp fun pair d hd => saysSkip_of_notice hd, fun hnone => ?_⟩
  rw [hnone, List.forall₂_nil_right_iff] at hreports
  intro i first heading level hfirst hheading
  exact exists_heading_of_level hreports hfirst hheading

/-- **The headings that skip a level are reported**, each compared with the heading before it. If
there are none, all levels from that of the first heading to that of any other are met on the
way. -/
theorem heading_skips_reported (text : Text) (options : Options) :
    ∃ scan found, Scan.ofText text = .ok scan ∧ searchAdvice.check scan options = .ok found ∧
      scan.headings.map Prod.fst = scan.headingTags ∧
      (∀ heading ∈ scan.headings, heading.1.name = "h" ++ toString heading.2) ∧
      SkipsReported scan.table scan.headings (found.filter (·.code == "SEO_HEADING_SKIP")) := by
  obtain ⟨scan, hscan, -⟩ := Scan.exists_ofText text
  obtain ⟨found, hfound⟩ := exists_check_of_mem_builtin
    (fun tag htag => Scan.inside_of_ofText hscan htag) options
    (show searchAdvice ∈ builtin by simp [builtin])
  exact ⟨scan, found, hscan, hfound, scan.tags_headings, fun heading => Scan.name_of_mem_headings,
    skipsReported_of_check hfound⟩

end Rule

end MarkupLint
