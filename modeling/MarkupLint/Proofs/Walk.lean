import MarkupLint.Element.Outline
import MarkupLint.Nesting
import MarkupLint.Proofs.Reading

/-!
# Two walks over the tags

The check of the nesting and the outline both walk over the tags with the elements that are open.
They treat opening tags alike and differ at a closing tag: the check looks at the innermost open
element only, while the outline looks for the innermost one of the right name and takes it out from
wherever it is. This file says what a tag does in either walk, once for each sort of tag, so that
nobody else has to open the two functions.

For the outline it also says where elements start and stop. An element starts with a tag of the walk
or is open already. If it is closed, it stops with a tag of the walk; if not, with its own tag. On
tags that come in order this fixes how any two elements lie to each other.

## Main results

* `Tag.walkInduction` — induction over tags, with a case for each sort of tag
* `Nesting.verdictsFrom_closing_cases`, `Outline.extentsFrom_closing_cases` — what a closing tag
  does
* `Nesting.passed_or_accepted` — a tag with a verdict changes nothing in the check
* `Nesting.exists_run`, `Nesting.verdicts_append` — the check of tags one behind the other
* `Nesting.verdictsFrom_map` — the check looks at names and marks only
* `Outline.opened_of_mem_extentsFrom`, `Outline.stop_of_mem_extentsFrom` — where elements start and
  stop
* `Outline.exists_extent_of_mem` — every open element is listed
-/

namespace MarkupLint

theorem Tag.isOpening_iff {tag : Tag} : tag.isOpening = true ↔ tag.isClosing = false := by
  rw [isOpening, Bool.not_eq_true']

theorem Tag.opensElement_iff {tag : Tag} :
    tag.opensElement = true ↔ tag.isClosing = false ∧ tag.isSelfClosing = false := by
  rw [opensElement, Bool.and_eq_true, isOpening_iff, Bool.not_eq_true']

/-- Induction over the tags of a walk. A tag closes an element, or it is one by itself, or it opens
one. -/
@[elab_as_elim]
theorem Tag.walkInduction {motive : List Tag → Prop} (nil : motive [])
    (closing : ∀ tag rest, tag.isClosing = true → motive rest → motive (tag :: rest))
    (leaf : ∀ tag rest, tag.isClosing = false → tag.isSelfClosing = true → motive rest →
      motive (tag :: rest))
    (opens : ∀ tag rest, tag.isClosing = false → tag.isSelfClosing = false → motive rest →
      motive (tag :: rest))
    (tags : List Tag) : motive tags := by
  induction tags with
  | nil => exact nil
  | cons tag rest ih =>
    cases hclosing : tag.isClosing with
    | true => exact closing tag rest hclosing ih
    | false =>
      cases hleaf : tag.isSelfClosing with
      | true => exact leaf tag rest hclosing hleaf ih
      | false => exact opens tag rest hclosing hleaf ih

/-! ### One step of the check and of the outline -/

section Step

variable {tag : Tag} (rest : List Tag)

theorem Nesting.verdictsFrom_of_leaf (hopening : tag.isClosing = false)
    (hleaf : tag.isSelfClosing = true) (openers : List Tag) :
    verdictsFrom openers (tag :: rest) = verdictsFrom openers rest := by
  simp [verdictsFrom, Tag.opensElement, hopening, hleaf]

theorem Nesting.verdictsFrom_of_opens (hopening : tag.isClosing = false)
    (hleaf : tag.isSelfClosing = false) (openers : List Tag) :
    verdictsFrom openers (tag :: rest) = verdictsFrom (tag :: openers) rest := by
  simp [verdictsFrom, Tag.opensElement, Tag.isOpening, hopening, hleaf]

theorem Nesting.verdictsFrom_of_closes (hclosing : tag.isClosing = true) {opener : Tag}
    (hname : opener.name = tag.name) (openers : List Tag) :
    verdictsFrom (opener :: openers) (tag :: rest) = verdictsFrom openers rest := by
  simp [verdictsFrom, hclosing, hname]

/-- **A closing tag in the check.** Nothing is open, or the innermost open element has its name and
is closed, or it has another name and everything stays as it is. -/
theorem Nesting.verdictsFrom_closing_cases (hclosing : tag.isClosing = true) (openers : List Tag) :
    (openers = [] ∧
      verdictsFrom openers (tag :: rest) = .unexpected tag :: verdictsFrom openers rest) ∨
    (∃ opener outer, openers = opener :: outer ∧ opener.name = tag.name ∧
      verdictsFrom openers (tag :: rest) = verdictsFrom outer rest) ∨
    (∃ opener outer, openers = opener :: outer ∧ opener.name ≠ tag.name ∧
      verdictsFrom openers (tag :: rest) =
        .mismatched opener tag :: verdictsFrom openers rest) := by
  rcases openers with _ | ⟨opener, outer⟩
  · exact .inl ⟨rfl, by simp [verdictsFrom, hclosing]⟩
  · by_cases hname : opener.name = tag.name
    · exact .inr (.inl
        ⟨opener, outer, rfl, hname, verdictsFrom_of_closes rest hclosing hname outer⟩)
    · exact .inr (.inr ⟨opener, outer, rfl, hname, by simp [verdictsFrom, hclosing, hname]⟩)

theorem Outline.extentsFrom_of_leaf (hopening : tag.isClosing = false)
    (hleaf : tag.isSelfClosing = true) (openers : List Opened) :
    extentsFrom openers (tag :: rest) =
      ⟨⟨tag, openers.length⟩, tag.stop, true⟩ :: extentsFrom openers rest := by
  simp [extentsFrom, hopening, hleaf]

theorem Outline.extentsFrom_of_opens (hopening : tag.isClosing = false)
    (hleaf : tag.isSelfClosing = false) (openers : List Opened) :
    extentsFrom openers (tag :: rest) = extentsFrom (⟨tag, openers.length⟩ :: openers) rest := by
  simp [extentsFrom, hopening, hleaf]

theorem Outline.extentsFrom_of_closes (hclosing : tag.isClosing = true) {opened : Opened}
    (hname : opened.tag.name = tag.name) (openers : List Opened) :
    extentsFrom (opened :: openers) (tag :: rest) =
      ⟨opened, tag.stop, true⟩ :: extentsFrom openers rest := by
  simp [extentsFrom, hclosing, hname]

/-- **A closing tag in the outline.** No open element has its name, or it closes the innermost one
that has, and those further inside stay open. -/
theorem Outline.extentsFrom_closing_cases (hclosing : tag.isClosing = true)
    (openers : List Opened) :
    ((∀ opened ∈ openers, opened.tag.name ≠ tag.name) ∧
      extentsFrom openers (tag :: rest) = extentsFrom openers rest) ∨
    (∃ inner opened outer, openers = inner ++ opened :: outer ∧
      (∀ other ∈ inner, other.tag.name ≠ tag.name) ∧ opened.tag.name = tag.name ∧
      extentsFrom openers (tag :: rest) =
        ⟨opened, tag.stop, true⟩ :: extentsFrom (inner ++ outer) rest) := by
  cases hfind : openers.find? (·.tag.name == tag.name) with
  | none =>
    refine .inl ⟨fun opened hopened heq => ?_, by simp only [extentsFrom, hclosing, hfind, if_true]⟩
    exact List.find?_eq_none.mp hfind opened hopened (beq_iff_eq.mpr heq)
  | some opened =>
    obtain ⟨hname, inner, outer, rfl, hinner⟩ := List.find?_eq_some_iff_append.mp hfind
    have hinner : ∀ other ∈ inner, ¬ (other.tag.name == tag.name) = true := by
      simpa using hinner
    have herase : (inner ++ opened :: outer).eraseP (·.tag.name == tag.name) = inner ++ outer := by
      rw [List.eraseP_append_right _ hinner, List.eraseP_cons, hname, cond_true]
    refine .inr ⟨inner, opened, outer, rfl, by simpa using hinner, beq_iff_eq.mp hname, ?_⟩
    simp only [extentsFrom, hclosing, hfind, herase, if_true]

end Step

/-! ### A run of the check -/

namespace Nesting

/-- **A tag is passed over or accepted.** If there is a verdict on a tag, everything goes on as if
it were not there. Otherwise it may close an element or open one. -/
theorem passed_or_accepted (openers : List Tag) (tag : Tag) :
    (∃ verdict : Verdict, verdict.tag = tag ∧ ∀ rest,
      verdictsFrom openers (tag :: rest) = verdict :: verdictsFrom openers rest) ∨
    ∃ openers' : List Tag, (∀ opener ∈ openers', opener = tag ∨ opener ∈ openers) ∧ ∀ rest,
      verdictsFrom openers (tag :: rest) = verdictsFrom openers' rest := by
  cases hclosing : tag.isClosing with
  | true =>
    rcases openers with _ | ⟨opener, outer⟩
    · exact .inl ⟨.unexpected tag, rfl, fun rest => by simp [verdictsFrom, hclosing]⟩
    · by_cases hname : opener.name = tag.name
      · refine .inr ⟨outer, fun other hother => .inr (List.mem_cons_of_mem opener hother), ?_⟩
        exact fun rest => verdictsFrom_of_closes rest hclosing hname outer
      · exact .inl ⟨.mismatched opener tag, rfl, fun rest => by
          simp [verdictsFrom, hclosing, hname]⟩
  | false =>
    cases hleaf : tag.isSelfClosing with
    | true =>
      exact .inr ⟨openers, fun _ => .inr, fun rest =>
        verdictsFrom_of_leaf rest hclosing hleaf openers⟩
    | false =>
      exact .inr ⟨tag :: openers, fun _ => List.mem_cons.mp, fun rest =>
        verdictsFrom_of_opens rest hclosing hleaf openers⟩

/-- A verdict is on a tag of the walk, or it is on an element that was open before and is never
closed. -/
theorem tag_mem_of_mem_verdictsFrom {openers tags : List Tag} {verdict : Verdict}
    (h : verdict ∈ verdictsFrom openers tags) :
    verdict.tag ∈ tags ∨ ∃ opener ∈ openers, verdict = .unclosed opener := by
  induction tags generalizing openers with
  | nil =>
    obtain ⟨opener, hopener, rfl⟩ := List.mem_map.mp h
    exact .inr ⟨opener, List.mem_reverse.mp hopener, rfl⟩
  | cons tag rest ih =>
    rcases passed_or_accepted openers tag with ⟨passed, rfl, heq⟩ | ⟨openers', hopeners, heq⟩
    · rw [heq, List.mem_cons] at h
      rcases h with rfl | h
      · exact .inl List.mem_cons_self
      · exact (ih h).imp_left (List.mem_cons_of_mem _)
    · rw [heq] at h
      rcases ih h with hmem | ⟨opener, hmem, rfl⟩
      · exact .inl (List.mem_cons_of_mem tag hmem)
      · rcases hopeners opener hmem with rfl | hmem
        · exact .inl List.mem_cons_self
        · exact .inr ⟨opener, hmem, rfl⟩

/-- **A run of the check.** The tags in front have their own verdicts and leave some elements
open. Neither depends on the tags that come later. -/
theorem exists_run (openers tags : List Tag) :
    ∃ (found : List Verdict) (openers' : List Tag), ∀ rest,
      verdictsFrom openers (tags ++ rest) = found ++ verdictsFrom openers' rest := by
  induction tags generalizing openers with
  | nil => exact ⟨[], openers, fun rest => rfl⟩
  | cons tag tags ih =>
    rcases passed_or_accepted openers tag with ⟨verdict, -, hstep⟩ | ⟨openers', -, hstep⟩
    · obtain ⟨later, openers', hrun⟩ := ih openers
      refine ⟨verdict :: later, openers', fun rest => ?_⟩
      rw [List.cons_append, hstep, hrun, List.cons_append]
    · obtain ⟨found, openers'', hrun⟩ := ih openers'
      refine ⟨found, openers'', fun rest => ?_⟩
      rw [List.cons_append, hstep, hrun]

/-- If everything in front is closed, what comes behind is checked by itself. -/
theorem verdicts_append {front : List Tag} (h : ∀ opener, .unclosed opener ∉ verdicts front)
    (back : List Tag) : verdicts (front ++ back) = verdicts front ++ verdicts back := by
  obtain ⟨found, openers, hrun⟩ := exists_run [] front
  have hfront : verdicts front = found ++ openers.reverse.map .unclosed := by
    have hnil := hrun []
    rwa [List.append_nil] at hnil
  have hclosed : openers = [] := by
    rcases openers with _ | ⟨opener, outer⟩
    · rfl
    · refine absurd ?_ (h opener)
      rw [hfront]
      simp
  rw [hclosed] at hrun hfront
  rw [hfront, verdicts, hrun, List.reverse_nil, List.map_nil, List.append_nil]
  rfl

/-- The verdict on tags in the places of others. -/
def Verdict.map (f : Tag → Tag) : Verdict → Verdict
  | unexpected closer => unexpected (f closer)
  | mismatched opener closer => mismatched (f opener) (f closer)
  | unclosed opener => unclosed (f opener)

/-- **The check looks at names and marks only.** -/
theorem verdictsFrom_map {f : Tag → Tag} (hname : ∀ tag, (f tag).name = tag.name)
    (hmarks : ∀ tag, (f tag).marks = tag.marks) (openers tags : List Tag) :
    verdictsFrom (openers.map f) (tags.map f) = (verdictsFrom openers tags).map (.map f) := by
  have hclosing : ∀ tag, (f tag).isClosing = tag.isClosing := fun tag => by
    rw [Tag.isClosing, hmarks, Tag.isClosing]
  have hopens : ∀ tag, (f tag).opensElement = tag.opensElement := fun tag => by
    rw [Tag.opensElement, Tag.isOpening, Tag.isSelfClosing, hclosing, hmarks]
    rfl
  induction tags generalizing openers with
  | nil => simp [verdictsFrom, Verdict.map]
  | cons tag rest ih =>
    simp only [List.map_cons, verdictsFrom, hclosing, hopens]
    split
    · rcases openers with _ | ⟨opener, outer⟩
      · exact congrArg (_ :: ·) (ih [])
      · simp only [List.map_cons, hname]
        split
        · exact ih outer
        · exact congrArg (_ :: ·) (ih (opener :: outer))
    · split
      · exact ih (tag :: openers)
      · exact ih openers

end Nesting

/-! ### Where elements start and stop -/

namespace Outline

/-- What a tag does to the open elements: it may complete an element, which stops with it, and it
may open one. All others stay open. -/
theorem exists_step (openers : List Opened) (tag : Tag) (rest : List Tag) :
    ∃ (completed : List Extent) (openers' : List Opened),
      extentsFrom openers (tag :: rest) = completed ++ extentsFrom openers' rest ∧
      (∀ extent ∈ completed,
        extent.stop = tag.stop ∧ (extent.opened ∈ openers ∨ extent.opened.tag = tag)) ∧
      (∀ opened ∈ openers', opened ∈ openers ∨ opened.tag = tag) ∧
      ∀ opened ∈ openers, opened ∈ openers' ∨ ∃ extent ∈ completed, extent.opened = opened := by
  cases hclosing : tag.isClosing with
  | true =>
    rcases extentsFrom_closing_cases rest hclosing openers with
      ⟨-, heq⟩ | ⟨inner, opened, outer, rfl, -, -, heq⟩
    · exact ⟨[], openers, heq, by simp, fun _ => .inl, fun _ => .inl⟩
    · refine ⟨[⟨opened, tag.stop, true⟩], inner ++ outer, heq, by simp, ?_, ?_⟩
      · intro other hmem
        rw [List.mem_append] at hmem
        exact .inl (List.mem_append.mpr (hmem.imp_right (List.mem_cons_of_mem opened)))
      · intro other hmem
        by_cases hother : other = opened
        · exact .inr ⟨_, List.mem_singleton_self _, hother.symm⟩
        · exact .inl (by simpa [hother] using hmem)
  | false =>
    cases hleaf : tag.isSelfClosing with
    | true =>
      exact ⟨[⟨⟨tag, openers.length⟩, tag.stop, true⟩], openers,
        extentsFrom_of_leaf rest hclosing hleaf openers, by simp, fun _ => .inl, fun _ => .inl⟩
    | false =>
      refine ⟨[], ⟨tag, openers.length⟩ :: openers,
        extentsFrom_of_opens rest hclosing hleaf openers, by simp, ?_,
        fun opened hmem => .inl (List.mem_cons_of_mem _ hmem)⟩
      intro opened hmem
      rcases List.mem_cons.mp hmem with rfl | hmem
      · exact .inr rfl
      · exact .inl hmem

/-- An element of the outline was open already, or its opening tag is one of the tags. -/
theorem opened_of_mem_extentsFrom {openers : List Opened} {tags : List Tag} {extent : Extent}
    (h : extent ∈ extentsFrom openers tags) :
    extent.opened ∈ openers ∨ extent.opened.tag ∈ tags := by
  induction tags generalizing openers with
  | nil =>
    obtain ⟨opened, hopened, rfl⟩ := List.mem_map.mp h
    exact .inl (List.mem_reverse.mp hopened)
  | cons tag rest ih =>
    obtain ⟨completed, openers', heq, hcompleted, hopeners, -⟩ := exists_step openers tag rest
    have htag : ∀ opened : Opened, opened ∈ openers ∨ opened.tag = tag →
        opened ∈ openers ∨ opened.tag ∈ tag :: rest :=
      fun opened => Or.imp_right fun heq => heq ▸ List.mem_cons_self
    rw [heq, List.mem_append] at h
    rcases h with h | h
    · exact htag _ (hcompleted extent h).2
    · rcases ih h with hmem | hmem
      · exact htag _ (hopeners _ hmem)
      · exact .inr (List.mem_cons_of_mem tag hmem)

/-- An element of the outline stops with one of the tags, or it was open already and is never
closed. -/
theorem stop_of_mem_extentsFrom {openers : List Opened} {tags : List Tag} {extent : Extent}
    (h : extent ∈ extentsFrom openers tags) :
    (∃ tag ∈ tags, extent.stop = tag.stop) ∨
      (extent.closed = false ∧ ∃ opened ∈ openers, extent.stop = opened.tag.stop) := by
  induction tags generalizing openers with
  | nil =>
    obtain ⟨opened, hopened, rfl⟩ := List.mem_map.mp h
    exact .inr ⟨rfl, opened, List.mem_reverse.mp hopened, rfl⟩
  | cons tag rest ih =>
    obtain ⟨completed, openers', heq, hcompleted, hopeners, -⟩ := exists_step openers tag rest
    rw [heq, List.mem_append] at h
    rcases h with h | h
    · exact .inl ⟨tag, List.mem_cons_self, (hcompleted extent h).1⟩
    · rcases ih h with ⟨tag', hmem, hstop⟩ | ⟨hopen, opened, hmem, hstop⟩
      · exact .inl ⟨tag', List.mem_cons_of_mem tag hmem, hstop⟩
      · rcases hopeners opened hmem with hmem | htag
        · exact .inr ⟨hopen, opened, hmem, hstop⟩
        · exact .inl ⟨tag, List.mem_cons_self, htag ▸ hstop⟩

/-- **Every open element is listed**, closed or not. -/
theorem exists_extent_of_mem {openers : List Opened} {opened : Opened} (h : opened ∈ openers)
    (tags : List Tag) : ∃ extent ∈ extentsFrom openers tags, extent.opened = opened := by
  induction tags generalizing openers with
  | nil => exact ⟨_, List.mem_map_of_mem (List.mem_reverse.mpr h), rfl⟩
  | cons tag rest ih =>
    obtain ⟨completed, openers', heq, -, -, hkept⟩ := exists_step openers tag rest
    rw [heq]
    rcases hkept opened h with hmem | ⟨extent, hextent, hopened⟩
    · obtain ⟨extent, hextent, hopened⟩ := ih hmem
      exact ⟨extent, List.mem_append_right completed hextent, hopened⟩
    · exact ⟨extent, List.mem_append_left _ hextent, hopened⟩

end Outline

end MarkupLint
