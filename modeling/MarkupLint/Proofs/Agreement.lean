import MarkupLint.Proofs.Outline
import MarkupLint.Proofs.Pairing
import MarkupLint.Proofs.Walk

/-!
# The check of the nesting and the outline

The check of the nesting is strict and the outline is lenient, and on badly nested documents they
pair different tags with each other. Two things can be said nevertheless.

The outline only ever recovers more. What it has open is also open in the check, in the same order,
whatever went wrong before: that is the invariant of `unclosed_mem_verdictsFrom` and
`stop_ne_of_unexpected_mem`. So an element that the outline does not close is reported as unclosed,
and where the check has nothing open, a closing tag completes no element of the outline either.

The two agree on what a clean document is. As long as the check has nothing to report, it has the
same elements open as the outline. The first closing tag it reports either completes no element, or
it completes one out of its turn. In the second case the innermost open element lies across the
completed one: it starts inside it and, if it is closed at all, stops behind it.

## Main results

* `Outline.sublist_of_closes` — closing an element in both walks
* `Outline.unclosed_mem_verdictsFrom`, `Outline.stop_ne_of_unexpected_mem` — what is left open and
  what is unexpected
* `Outline.verdictsFrom_eq_nil_iff` — where the check has nothing to report
* `Outline.check_eq_nil_iff_clean` — the check and the outline agree on clean documents
* `Outline.check_reports_unrecovered` — the outline only ever recovers more
-/

namespace MarkupLint

/-! ### The reports of the check -/

namespace Nesting

/-- Every verdict on tags inside the text is reported, with its code and at the range of its tag. -/
theorem exists_check {table : LineTable} {tags : List Tag} (h : ∀ tag ∈ tags, tag.Inside table) :
    ∃ diagnostics, check table tags = .ok diagnostics ∧
      diagnostics.map (fun d => (d.code, Except.ok d.range)) =
        (verdicts tags).map fun verdict => (verdict.finding.1.code, verdict.tag.range) := by
  have hreport : ∀ verdict ∈ verdicts tags, ∃ d, verdict.diagnostic table = .ok d ∧
      (verdict.finding.1.code, verdict.tag.range) = (d.code, Except.ok d.range) := by
    intro verdict hmem
    rw [verdicts_eq] at hmem
    obtain ⟨⟨place, verdict⟩, hplaced, rfl⟩ := List.mem_map.mp hmem
    have htag := List.mem_of_getElem? (mem_placedVerdicts_iff.mp hplaced).getElem?
    obtain ⟨d, hd, hcode, -, hrange⟩ := Tag.diagnostic_of_inside (h _ htag) verdict.fits
    exact ⟨d, hd, by rw [hcode, hrange]⟩
  obtain ⟨diagnostics, hdiagnostics, hall⟩ := exists_mapM_forall₂ hreport
  refine ⟨diagnostics, hdiagnostics, ?_⟩
  rw [eq_comm, ← List.forall₂_eq_eq_eq, List.forall₂_map_left_iff, List.forall₂_map_right_iff]
  exact hall

/-- A verdict can be told by the code under which it is reported. -/
theorem Verdict.eq_unexpected_of_code {verdict : Verdict}
    (h : verdict.finding.1.code = "STRUCTURE_UNEXPECTED_CLOSING_TAG") :
    ∃ closer, verdict = .unexpected closer := by
  cases verdict with
  | unexpected closer => exact ⟨closer, rfl⟩
  | mismatched opener closer =>
    have hcode : Finding.mismatchedCloser.code = "STRUCTURE_UNEXPECTED_CLOSING_TAG" := h
    exact absurd hcode (by decide)
  | unclosed opener =>
    have hcode : Finding.unclosedTag.code = "STRUCTURE_UNEXPECTED_CLOSING_TAG" := h
    exact absurd hcode (by decide)

/-- Only a tag of the walk can be unexpected. -/
theorem mem_of_unexpected_mem {openers tags : List Tag} {closer : Tag}
    (h : .unexpected closer ∈ verdictsFrom openers tags) : closer ∈ tags := by
  rcases tag_mem_of_mem_verdictsFrom h with hmem | ⟨opener, -, heq⟩
  · exact hmem
  · cases heq

/-- A closing tag is reported unless the innermost open element has its name. -/
theorem verdictsFrom_ne_nil {tag : Tag} (rest : List Tag) (hclosing : tag.isClosing = true)
    {openers : List Tag} (hhead : ∀ opener ∈ openers.head?, opener.name ≠ tag.name) :
    verdictsFrom openers (tag :: rest) ≠ [] := by
  rcases verdictsFrom_closing_cases rest hclosing openers with
    ⟨-, heq⟩ | ⟨opener, outer, rfl, hname, -⟩ | ⟨opener, outer, -, -, heq⟩
  · exact heq ▸ List.cons_ne_nil _ _
  · exact absurd hname (hhead opener rfl)
  · exact heq ▸ List.cons_ne_nil _ _

end Nesting

/-! ### Open elements and the tags to come -/

theorem Tag.InOrder.sublist {tags tags' : List Tag} (h : InOrder tags) (hsub : tags'.Sublist tags) :
    InOrder tags' :=
  ⟨fun tag htag => h.start_lt_stop tag (hsub.subset htag), h.stop_le_start.sublist hsub⟩

namespace Outline

open Nesting (Verdict verdictsFrom verdicts)

/-- The open elements, outermost first, and the tags that are still to come stand in order. -/
def Ordered (openers : List Opened) (tags : List Tag) : Prop :=
  Tag.InOrder (openers.reverse.map Opened.tag ++ tags)

namespace Ordered

variable {openers : List Opened} {tag : Tag} {tags : List Tag}

/-- A tag can be passed. -/
theorem pass (h : Ordered openers (tag :: tags)) : Ordered openers tags :=
  Tag.InOrder.sublist h ((List.sublist_cons_self tag tags).append_left _)

/-- A tag can be put on the open ones. -/
theorem push (h : Ordered openers (tag :: tags)) (depth : ℕ) :
    Ordered (⟨tag, depth⟩ :: openers) tags := by
  simpa [Ordered] using h

/-- Elements can be closed, wherever they are. -/
theorem sublist {openers' : List Opened} (h : Ordered openers tags)
    (hsub : openers'.Sublist openers) : Ordered openers' tags :=
  Tag.InOrder.sublist h ((hsub.reverse.map Opened.tag).append_right tags)

theorem opener_stop_le (h : Ordered openers tags) {opened : Opened} (hopened : opened ∈ openers)
    (htag : tag ∈ tags) : opened.tag.stop ≤ tag.start := by
  have hopened : opened.tag ∈ openers.reverse.map Opened.tag :=
    List.mem_map_of_mem (List.mem_reverse.mpr hopened)
  exact (List.pairwise_append.mp h.stop_le_start).2.2 _ hopened _ htag

theorem opener_start_lt (h : Ordered openers tags) {opened : Opened} (hopened : opened ∈ openers) :
    opened.tag.start < opened.tag.stop := by
  refine h.start_lt_stop _ (List.mem_append_left tags ?_)
  exact List.mem_map_of_mem (List.mem_reverse.mpr hopened)

theorem outer_stop_le {opened : Opened} (h : Ordered (opened :: openers) tags) {outer : Opened}
    (houter : outer ∈ openers) : outer.tag.stop ≤ opened.tag.start := by
  have hsorted := (List.pairwise_append.mp h.stop_le_start).1
  rw [List.pairwise_map, List.pairwise_reverse] at hsorted
  exact (List.pairwise_cons.mp hsorted).1 outer houter

theorem start_lt_stop (h : Ordered openers tags) (htag : tag ∈ tags) : tag.start < tag.stop :=
  Tag.InOrder.start_lt_stop h tag (List.mem_append_right _ htag)

theorem stop_le_start (h : Ordered openers (tag :: tags)) {later : Tag} (hlater : later ∈ tags) :
    tag.stop ≤ later.start :=
  (List.pairwise_cons.mp (List.pairwise_append.mp (Tag.InOrder.stop_le_start h)).2.1).1 later hlater

theorem stop_lt_stop (h : Ordered openers (tag :: tags)) {later : Tag} (hlater : later ∈ tags) :
    tag.stop < later.stop :=
  (h.stop_le_start hlater).trans_lt (h.start_lt_stop (List.mem_cons_of_mem tag hlater))

end Ordered

/-! ### The outline only ever recovers more -/

/-- If the check closes an element, what is open in the outline without the innermost element of
that name is still open in the check. -/
theorem sublist_of_closes {inner outer : List Opened} {opened : Opened} {opener : Tag}
    {strict : List Tag}
    (h : ((inner ++ opened :: outer).map Opened.tag).Sublist (opener :: strict))
    (hinner : ∀ other ∈ inner, other.tag.name ≠ opener.name) :
    ((inner ++ outer).map Opened.tag).Sublist strict := by
  rcases inner with _ | ⟨first, inner⟩
  · exact h.tail
  · -- the first open element has another name, so it is further out in the check
    have hfirst : first.tag ≠ opener := fun heq =>
      hinner first List.mem_cons_self (congrArg Tag.name heq)
    have hstrict : (((first :: inner) ++ opened :: outer).map Opened.tag).Sublist strict :=
      (List.cons_sublist_cons'.mp h).resolve_right fun heq => hfirst heq.1
    have hsub := (List.sublist_cons_self opened outer).append_left (first :: inner)
    exact (hsub.map Opened.tag).trans hstrict

/-- If the check closes an element of a name that is not open in the outline, all that is open in
the outline is still open in the check. -/
theorem sublist_of_name_ne {openers : List Opened} {opener : Tag} {strict : List Tag}
    (h : (openers.map Opened.tag).Sublist (opener :: strict))
    (hopeners : ∀ opened ∈ openers, opened.tag.name ≠ opener.name) :
    (openers.map Opened.tag).Sublist strict := by
  rcases List.sublist_cons_iff.mp h with h | ⟨others, heq, -⟩
  · exact h
  · have hmem : opener ∈ openers.map Opened.tag := heq ▸ List.mem_cons_self
    obtain ⟨opened, hopened, rfl⟩ := List.mem_map.mp hmem
    exact absurd rfl (hopeners opened hopened)

/-- What a closing tag does in the outline, seen from the check: it completes an element that was
open, or none, and whichever element the check closes with it, what is open in the outline stays
open in the check. -/
theorem exists_closing_step {tag : Tag} (rest : List Tag) (hclosing : tag.isClosing = true)
    (openers : List Opened) :
    ∃ completed openers',
      extentsFrom openers (tag :: rest) = completed ++ extentsFrom openers' rest ∧
      openers'.Sublist openers ∧
      (∀ extent ∈ completed,
        extent.opened ∈ openers ∧ extent.closed = true ∧ extent.stop = tag.stop) ∧
      ∀ {opener : Tag} {strict : List Tag}, opener.name = tag.name →
        (openers.map Opened.tag).Sublist (opener :: strict) →
          (openers'.map Opened.tag).Sublist strict := by
  rcases extentsFrom_closing_cases rest hclosing openers with
    ⟨hopeners, heq⟩ | ⟨inner, opened, outer, rfl, hinner, -, heq⟩
  · refine ⟨[], openers, heq, .refl _, by simp, fun hname h => ?_⟩
    exact sublist_of_name_ne h (hname ▸ hopeners)
  · refine ⟨[_], inner ++ outer, heq, (List.sublist_cons_self _ _).append_left _, by simp,
      fun hname h => ?_⟩
    exact sublist_of_closes h (hname ▸ hinner)

/-- **What the outline leaves open, the check reports as unclosed.** -/
theorem unclosed_mem_verdictsFrom {openers : List Opened} {strict tags : List Tag}
    (hsub : (openers.map Opened.tag).Sublist strict) {extent : Extent}
    (hmem : extent ∈ extentsFrom openers tags) (hopen : extent.closed = false) :
    .unclosed extent.opened.tag ∈ verdictsFrom strict tags := by
  induction tags using Tag.walkInduction generalizing openers strict with
  | nil =>
    obtain ⟨opened, hopened, rfl⟩ := List.mem_map.mp hmem
    have hstrict : opened.tag ∈ strict :=
      hsub.subset (List.mem_map_of_mem (List.mem_reverse.mp hopened))
    exact List.mem_map_of_mem (List.mem_reverse.mpr hstrict)
  | closing tag rest hclosing ih =>
    obtain ⟨completed, openers', heq, hopeners, hcompleted, hcloses⟩ :=
      exists_closing_step rest hclosing openers
    have hkept := (hopeners.map Opened.tag).trans hsub
    rw [heq, List.mem_append] at hmem
    have hmem := hmem.resolve_left fun h => by simp [(hcompleted extent h).2.1] at hopen
    rcases Nesting.verdictsFrom_closing_cases rest hclosing strict with
      ⟨-, hverdicts⟩ | ⟨opener, outer, rfl, hname, hverdicts⟩ | ⟨opener, outer, -, -, hverdicts⟩
    · rw [hverdicts]
      exact List.mem_cons_of_mem _ (ih hkept hmem)
    · rw [hverdicts]
      exact ih (hcloses hname hsub) hmem
    · rw [hverdicts]
      exact List.mem_cons_of_mem _ (ih hkept hmem)
  | leaf tag rest hopening hleaf ih =>
    rw [extentsFrom_of_leaf rest hopening hleaf, List.mem_cons] at hmem
    rw [Nesting.verdictsFrom_of_leaf rest hopening hleaf]
    exact ih hsub (hmem.resolve_left fun heq => by simp [heq] at hopen)
  | opens tag rest hopening hleaf ih =>
    rw [extentsFrom_of_opens rest hopening hleaf] at hmem
    rw [Nesting.verdictsFrom_of_opens rest hopening hleaf]
    refine ih ?_ hmem
    exact hsub.cons_cons tag

/-- **An unexpected closing tag completes no element of the outline.** -/
theorem stop_ne_of_unexpected_mem {openers : List Opened} {strict tags : List Tag}
    (horder : Ordered openers tags) (hsub : (openers.map Opened.tag).Sublist strict) {closer : Tag}
    (hcloser : .unexpected closer ∈ verdictsFrom strict tags) {extent : Extent}
    (hmem : extent ∈ extentsFrom openers tags) : extent.stop ≠ closer.stop := by
  induction tags using Tag.walkInduction generalizing openers strict with
  | nil => simp [verdictsFrom] at hcloser
  | closing tag rest hclosing ih =>
    obtain ⟨completed, openers', heq, hopeners, hcompleted, hcloses⟩ :=
      exists_closing_step rest hclosing openers
    have hkept := (hopeners.map Opened.tag).trans hsub
    rw [heq, List.mem_append] at hmem
    -- a closing tag that comes later stops later than what is completed here
    have hlater : ∀ strict', (openers'.map Opened.tag).Sublist strict' →
        .unexpected closer ∈ verdictsFrom strict' rest → extent.stop ≠ closer.stop := by
      intro strict' hsub' hcloser'
      rcases hmem with hmem | hmem
      · rw [(hcompleted extent hmem).2.2]
        exact (horder.stop_lt_stop (Nesting.mem_of_unexpected_mem hcloser')).ne
      · exact ih (horder.pass.sublist hopeners) hsub' hcloser' hmem
    rcases Nesting.verdictsFrom_closing_cases rest hclosing strict with
      ⟨rfl, hverdicts⟩ | ⟨opener, outer, rfl, hname, hverdicts⟩ | ⟨opener, outer, -, -, hverdicts⟩
    · rw [hverdicts, List.mem_cons] at hcloser
      rcases hcloser with hcloser | hcloser
      · -- nothing is open in the check, so nothing is open in the outline
        obtain rfl : closer = tag := Verdict.unexpected.inj hcloser
        obtain rfl : openers = [] := List.map_eq_nil_iff.mp (List.sublist_nil.mp hsub)
        obtain rfl : openers' = [] := List.sublist_nil.mp hopeners
        rcases hmem with hmem | hmem
        · cases (hcompleted extent hmem).1
        · rcases stop_of_mem_extentsFrom hmem with ⟨later, hlater, hstop⟩ | ⟨-, opened, hnil, -⟩
          · rw [hstop]
            exact (horder.stop_lt_stop hlater).ne'
          · cases hnil
      · exact hlater [] hkept hcloser
    · rw [hverdicts] at hcloser
      exact hlater outer (hcloses hname hsub) hcloser
    · rw [hverdicts, List.mem_cons] at hcloser
      exact hlater strict hkept (hcloser.resolve_left (by simp))
  | leaf tag rest hopening hleaf ih =>
    rw [extentsFrom_of_leaf rest hopening hleaf, List.mem_cons] at hmem
    rw [Nesting.verdictsFrom_of_leaf rest hopening hleaf] at hcloser
    rcases hmem with rfl | hmem
    · exact (horder.stop_lt_stop (Nesting.mem_of_unexpected_mem hcloser)).ne
    · exact ih horder.pass hsub hcloser hmem
  | opens tag rest hopening hleaf ih =>
    rw [extentsFrom_of_opens rest hopening hleaf] at hmem
    rw [Nesting.verdictsFrom_of_opens rest hopening hleaf] at hcloser
    exact ih (horder.push _) (hsub.cons_cons tag) hcloser hmem

/-! ### Clean documents -/

/-- Two elements do not lie across each other: one of them lies inside the other, or one of them
stops before the other starts. -/
def Entry.Nests (a b : Entry) : Prop :=
  (a.start ≤ b.start ∧ b.stop ≤ a.stop) ∨ (b.start ≤ a.start ∧ a.stop ≤ b.stop) ∨
    a.stop ≤ b.start ∨ b.stop ≤ a.start

instance (a b : Entry) : Decidable (a.Nests b) := inferInstanceAs (Decidable (_ ∨ _))

theorem Entry.Nests.symm {a b : Entry} (h : a.Nests b) : b.Nests a := by
  unfold Nests at h ⊢
  omega

theorem Entry.Nests.refl (a : Entry) : a.Nests a := .inl ⟨le_rfl, le_rfl⟩

/-- The outline of the tags shows a clean document. -/
structure Clean (tags : List Tag) (entries : List Entry) : Prop where
  /-- All elements are closed. -/
  closed : ∀ entry ∈ entries, entry.closed = true
  /-- No two elements lie across each other. -/
  nests : ∀ a ∈ entries, ∀ b ∈ entries, a.Nests b
  /-- With every closing tag stops an element that started before it. -/
  completes : ∀ tag ∈ tags, tag.isClosing = true →
    ∃ entry ∈ entries, entry.stop = tag.stop ∧ entry.start < tag.start

theorem clean_cons_iff_of_opening {tag : Tag} {rest : List Tag} {entries : List Entry}
    (hopening : tag.isClosing = false) : Clean (tag :: rest) entries ↔ Clean rest entries := by
  constructor
  · rintro ⟨hclosed, hnests, hcompletes⟩
    exact ⟨hclosed, hnests, fun tag' htag' => hcompletes tag' (List.mem_cons_of_mem tag htag')⟩
  · rintro ⟨hclosed, hnests, hcompletes⟩
    refine ⟨hclosed, hnests, fun tag' htag' hclosing => ?_⟩
    rcases List.mem_cons.mp htag' with rfl | htag'
    · simp [hopening] at hclosing
    · exact hcompletes tag' htag' hclosing

/-- An element that stops with the first tag and lies across no other makes no difference. -/
theorem clean_cons_cons_iff {tag : Tag} {rest : List Tag} {entry : Entry} {entries : List Entry}
    (hclosed : entry.closed = true) (hstop : entry.stop = tag.stop)
    (hstart : tag.isClosing = true → entry.start < tag.start)
    (hnests : ∀ other ∈ entries, other.closed = true → entry.Nests other)
    (hlater : ∀ later ∈ rest, tag.stop < later.stop) :
    Clean (tag :: rest) (entry :: entries) ↔ Clean rest entries := by
  constructor
  · intro h
    refine ⟨fun a ha => h.closed a (List.mem_cons_of_mem entry ha), fun a ha b hb =>
      h.nests a (List.mem_cons_of_mem entry ha) b (List.mem_cons_of_mem entry hb), ?_⟩
    intro later hmem hclosing
    obtain ⟨a, ha, hstop', hstart'⟩ := h.completes later (List.mem_cons_of_mem tag hmem) hclosing
    rcases List.mem_cons.mp ha with rfl | ha
    · have hlt := hlater later hmem
      omega
    · exact ⟨a, ha, hstop', hstart'⟩
  · intro h
    have hall : ∀ a ∈ entries, entry.Nests a := fun a ha => hnests a ha (h.closed a ha)
    refine ⟨?_, ?_, ?_⟩
    · intro a ha
      rcases List.mem_cons.mp ha with rfl | ha
      · exact hclosed
      · exact h.closed a ha
    · intro a ha b hb
      rcases List.mem_cons.mp ha with rfl | ha' <;> rcases List.mem_cons.mp hb with rfl | hb'
      · exact .refl _
      · exact hall b hb'
      · exact (hall a ha').symm
      · exact h.nests a ha' b hb'
    · intro tag' htag' hclosing
      rcases List.mem_cons.mp htag' with rfl | htag'
      · exact ⟨entry, List.mem_cons_self, hstop, hstart hclosing⟩
      · obtain ⟨a, ha, hends⟩ := h.completes tag' htag' hclosing
        exact ⟨a, List.mem_cons_of_mem entry ha, hends⟩

/-- An element of the outline that is closed stops with one of the tags. -/
theorem stop_of_closed {openers : List Opened} {tags : List Tag} {extent : Extent}
    (h : extent ∈ extentsFrom openers tags) (hclosed : extent.closed = true) :
    ∃ tag ∈ tags, extent.stop = tag.stop := by
  rcases stop_of_mem_extentsFrom h with hstop | ⟨hopen, -⟩
  · exact hstop
  · simp [hclosed] at hopen

/-- An element that stops with a tag, and starts behind all that are open, lies across none of the
elements that are closed later. -/
theorem nests_of_innermost {openers : List Opened} {tag : Tag} {rest : List Tag}
    (horder : Ordered openers (tag :: rest)) {entry : Entry} (hstop : entry.stop = tag.stop)
    (hstart : ∀ opened ∈ openers, opened.tag.start ≤ entry.start) :
    ∀ other ∈ (extentsFrom openers rest).map Extent.entry, other.closed = true →
      entry.Nests other := by
  intro other hother hclosed
  obtain ⟨extent, hextent, rfl⟩ := List.mem_map.mp hother
  obtain ⟨later, hlater, hlast⟩ := stop_of_closed hextent hclosed
  have hlt := horder.stop_lt_stop hlater
  rcases opened_of_mem_extentsFrom hextent with hopened | hopened
  · have hle := hstart _ hopened
    exact .inr (.inl ⟨hle, show entry.stop ≤ extent.stop by omega⟩)
  · have hle := horder.stop_le_start hopened
    exact .inr (.inr (.inl (show entry.stop ≤ extent.opened.tag.start by omega)))

/-- A closing tag that completes no element spoils the document. -/
theorem not_clean_of_ignored {openers : List Opened} {tag : Tag} {rest : List Tag}
    (horder : Ordered openers (tag :: rest)) (hclosing : tag.isClosing = true) :
    ¬ Clean (tag :: rest) ((extentsFrom openers rest).map Extent.entry) := by
  intro h
  obtain ⟨entry, hentry, hstop, -⟩ := h.completes tag List.mem_cons_self hclosing
  have hclosed := h.closed entry hentry
  obtain ⟨extent, hextent, rfl⟩ := List.mem_map.mp hentry
  obtain ⟨later, hlater, hlast⟩ := stop_of_closed hextent hclosed
  have hlt := horder.stop_lt_stop hlater
  have hstop : extent.stop = tag.stop := hstop
  omega

/-- A closing tag that completes an element with others open inside it spoils the document. -/
theorem not_clean_of_crossing {inner outer : List Opened} {top opened : Opened} {tag : Tag}
    {rest : List Tag} (horder : Ordered (top :: inner ++ opened :: outer) (tag :: rest)) :
    ¬ Clean (tag :: rest) (Extent.entry ⟨opened, tag.stop, true⟩ ::
      (extentsFrom (top :: inner ++ outer) rest).map Extent.entry) := by
  intro h
  obtain ⟨extent, hextent, rfl⟩ : ∃ extent ∈ extentsFrom (top :: inner ++ outer) rest,
      extent.opened = top := exists_extent_of_mem List.mem_cons_self rest
  have hentry : extent.entry ∈ (extentsFrom (extent.opened :: inner ++ outer) rest).map
      Extent.entry := List.mem_map_of_mem hextent
  obtain ⟨later, hlater, hlast⟩ :=
    stop_of_closed hextent (h.closed _ (List.mem_cons_of_mem _ hentry))
  have hnests := h.nests _ List.mem_cons_self _ (List.mem_cons_of_mem _ hentry)
  -- the two elements start one behind the other, before the tag, and stop the other way round
  have hopened : opened ∈ inner ++ opened :: outer := by simp
  have hstart := horder.opener_start_lt (List.mem_cons_of_mem _ hopened)
  have hbetween := horder.outer_stop_le hopened
  have hbefore := horder.opener_stop_le List.mem_cons_self List.mem_cons_self
  have htop := horder.opener_start_lt List.mem_cons_self
  have htag := horder.start_lt_stop List.mem_cons_self
  have hlt := horder.stop_lt_stop hlater
  simp only [Entry.Nests, Extent.entry] at hnests
  omega

/-- **The check has nothing to report exactly if the outline is clean**, from any place of the walk
on at which the same elements are open in both. -/
theorem verdictsFrom_eq_nil_iff {openers : List Opened} {tags : List Tag}
    (horder : Ordered openers tags) :
    verdictsFrom (openers.map Opened.tag) tags = [] ↔
      Clean tags ((extentsFrom openers tags).map Extent.entry) := by
  induction tags using Tag.walkInduction generalizing openers with
  | nil =>
    rcases openers with _ | ⟨opened, outer⟩
    · simp only [verdictsFrom, extentsFrom, List.map_nil, List.reverse_nil, true_iff]
      exact ⟨by simp, by simp, by simp⟩
    · have hmem : (⟨opened, opened.tag.stop, false⟩ : Extent) ∈
          extentsFrom (opened :: outer) [] := by
        simp [extentsFrom]
      refine iff_of_false (by simp [verdictsFrom]) fun h => ?_
      exact absurd (h.closed _ (List.mem_map_of_mem hmem)) (by simp [Extent.entry])
  | closing tag rest hclosing ih =>
    rcases extentsFrom_closing_cases rest hclosing openers with
      ⟨hnone, hextents⟩ | ⟨inner, opened, outer, rfl, hinner, hname, hextents⟩
    · rw [hextents]
      refine iff_of_false (Nesting.verdictsFrom_ne_nil rest hclosing fun opener hopener => ?_)
        (not_clean_of_ignored horder hclosing)
      obtain ⟨opened, hopened, rfl⟩ := List.mem_map.mp (List.mem_of_mem_head? hopener)
      exact hnone opened hopened
    · rw [hextents, List.map_cons]
      rcases inner with _ | ⟨top, inner⟩
      · rw [List.nil_append, List.map_cons, Nesting.verdictsFrom_of_closes rest hclosing hname,
          ih (horder.pass.sublist (List.sublist_cons_self _ _)), List.nil_append,
          clean_cons_cons_iff rfl rfl]
        · intro _
          have hlt := horder.opener_start_lt List.mem_cons_self
          have hle := horder.opener_stop_le List.mem_cons_self List.mem_cons_self
          exact hlt.trans_le hle
        · have houter := horder.sublist (List.sublist_cons_self _ _)
          refine nests_of_innermost houter rfl fun other hother => ?_
          have hlt := houter.opener_start_lt hother
          have hle := horder.outer_stop_le hother
          exact hlt.le.trans hle
        · exact fun later hlater => horder.stop_lt_stop hlater
      · refine iff_of_false (Nesting.verdictsFrom_ne_nil rest hclosing fun opener hopener => ?_)
          (not_clean_of_crossing horder)
        obtain rfl : top.tag = opener := Option.some.inj hopener
        exact hinner top List.mem_cons_self
  | leaf tag rest hopening hleaf ih =>
    rw [extentsFrom_of_leaf rest hopening hleaf, Nesting.verdictsFrom_of_leaf rest hopening hleaf,
      ih horder.pass, List.map_cons, clean_cons_cons_iff rfl rfl (by simp [hopening])]
    · refine nests_of_innermost horder rfl fun opened hopened => ?_
      have hlt := horder.opener_start_lt hopened
      have hle := horder.opener_stop_le hopened List.mem_cons_self
      exact hlt.le.trans hle
    · exact fun later hlater => horder.stop_lt_stop hlater
  | opens tag rest hopening hleaf ih =>
    rw [extentsFrom_of_opens rest hopening hleaf, Nesting.verdictsFrom_of_opens rest hopening hleaf,
      clean_cons_iff_of_opening hopening]
    exact ih (horder.push _)

/-! ### Both on the scan of a text -/

/-- The check and the outline of a text have results, which are those of the two walks over its
tags. -/
theorem exists_results (text : Text) :
    ∃ scan diagnostics elements, Scan.ofText text = .ok scan ∧
      Nesting.check scan.table scan.tags = .ok diagnostics ∧ scan.outline = .ok elements ∧
      Ordered [] scan.tags ∧
      diagnostics.map (fun d => (d.code, Except.ok d.range)) =
        (verdicts scan.tags).map (fun verdict => (verdict.finding.1.code, verdict.tag.range)) ∧
      elements.map Element.entry = (extents scan.tags).map Extent.entry := by
  obtain ⟨scan, hscan, -⟩ := Scan.exists_ofText text
  have hinside : ∀ tag ∈ scan.tags, tag.Inside scan.table := fun tag htag =>
    Scan.inside_of_ofText hscan htag
  obtain ⟨diagnostics, hcheck, hreports⟩ := Nesting.exists_check hinside
  obtain ⟨elements, houtline, hentries⟩ := Scan.exists_outline hinside
  exact ⟨scan, diagnostics, elements, hscan, hcheck, houtline,
    (Scan.reading_of_ofText hscan).inOrder, hreports, hentries⟩

/-- **The check and the outline agree on clean documents.** The check of the nesting reports nothing
exactly if in the outline all elements are closed, no two of them lie across each other, and with
every closing tag stops an element that started before it. -/
theorem check_eq_nil_iff_clean (text : Text) :
    ∃ scan diagnostics elements, Scan.ofText text = .ok scan ∧
      Nesting.check scan.table scan.tags = .ok diagnostics ∧ scan.outline = .ok elements ∧
      (diagnostics = [] ↔ Clean scan.tags (elements.map Element.entry)) := by
  obtain ⟨scan, diagnostics, elements, hscan, hcheck, houtline, horder, hreports, hentries⟩ :=
    exists_results text
  refine ⟨scan, diagnostics, elements, hscan, hcheck, houtline, ?_⟩
  have hverdicts : diagnostics = [] ↔ verdicts scan.tags = [] := by
    rw [← List.map_eq_nil_iff, hreports, List.map_eq_nil_iff]
  rw [hverdicts, hentries]
  exact verdictsFrom_eq_nil_iff horder

/-- **The outline only ever recovers more than the check.** Every element that it does not close is
reported as unclosed, at a range that starts where the element does, and no closing tag that is
reported as unexpected is the one with which an element stops. -/
theorem check_reports_unrecovered (text : Text) :
    ∃ scan diagnostics elements, Scan.ofText text = .ok scan ∧
      Nesting.check scan.table scan.tags = .ok diagnostics ∧ scan.outline = .ok elements ∧
      (∀ element ∈ elements, element.closed = false → ∃ d ∈ diagnostics,
        d.code = "STRUCTURE_UNCLOSED_TAG" ∧ d.range.start = element.start) ∧
      (∀ tag ∈ scan.tags, tag.isClosing = true → ∀ d ∈ diagnostics,
        d.code = "STRUCTURE_UNEXPECTED_CLOSING_TAG" → tag.range = .ok d.range →
          ∀ element ∈ elements, element.stop ≠ tag.stop) := by
  obtain ⟨scan, diagnostics, elements, hscan, hcheck, houtline, horder, hreports, hentries⟩ :=
    exists_results text
  have hextent : ∀ element ∈ elements, ∃ extent ∈ extents scan.tags,
      extent.entry = element.entry := fun element helement =>
    List.mem_map.mp (hentries ▸ List.mem_map_of_mem helement)
  refine ⟨scan, diagnostics, elements, hscan, hcheck, houtline, ?_, ?_⟩
  · intro element helement hopen
    obtain ⟨extent, hmem, hentry⟩ := hextent element helement
    have hopen : extent.closed = false := (congrArg Entry.closed hentry).trans hopen
    have hstart : extent.opened.tag.start = element.start := congrArg Entry.start hentry
    have hverdict : .unclosed extent.opened.tag ∈ verdicts scan.tags :=
      unclosed_mem_verdictsFrom (.refl _) hmem hopen
    have hreport := List.mem_map_of_mem (f := fun verdict : Verdict =>
      (verdict.finding.1.code, verdict.tag.range)) hverdict
    rw [← hreports] at hreport
    obtain ⟨d, hd, heq⟩ := List.mem_map.mp hreport
    obtain ⟨hcode, hrange⟩ := Prod.mk.inj heq
    have hbounds := Range.ofBounds_eq_ok_iff.mp hrange.symm
    exact ⟨d, hd, hcode, hbounds.1.symm.trans hstart⟩
  · intro tag _ _ d hd hcode hrange element helement
    obtain ⟨extent, hmem, hentry⟩ := hextent element helement
    have hstop : extent.stop = element.stop := congrArg Entry.stop hentry
    have hreport := List.mem_map_of_mem (f := fun d : Diagnostic =>
      (d.code, (Except.ok d.range : Except Fault Range))) hd
    rw [hreports] at hreport
    obtain ⟨verdict, hverdict, heq⟩ := List.mem_map.mp hreport
    obtain ⟨hcode', hrange'⟩ := Prod.mk.inj heq
    obtain ⟨closer, rfl⟩ := Verdict.eq_unexpected_of_code (hcode'.trans hcode)
    have hne := stop_ne_of_unexpected_mem horder (.refl _) hverdict hmem
    have hcloser : closer.stop = d.range.stop := (Range.ofBounds_eq_ok_iff.mp hrange').2
    have htag := (Range.ofBounds_eq_ok_iff.mp hrange).2
    rwa [hstop, hcloser, ← htag] at hne

end Outline

end MarkupLint
