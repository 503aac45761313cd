import MarkupLint.Proofs.Agreement
import MarkupLint.Proofs.Walk

/-!
# Balanced tags

The check of the nesting is a walk with a stack, and most of what it does is about documents in
which something is wrong. What it accepts can be said without either: the tags are balanced, in the
sense of a grammar that knows elements with and without content, and one thing behind another.

One direction is a statement about any derivation. Balanced tags leave the open elements as they
were, so the walk goes over them as if they were not there. For the other one there is no derivation
to follow, only a run of the walk, and in the middle of a run there are open elements, which the
tags to come have to close. `ClosesAll` says what these tags look like: balanced ones, a closing tag
for the innermost element, balanced ones again, and so on. In front of them, every sort of tag can
be put that the walk accepts.

Only names and the three meaningful marks matter. A closing tag may well end with `/>` or have the
name of a void element.

## Main results

* `Balanced.verdictsFrom_append` — the walk passes over balanced tags
* `closesAll_of_verdictsFrom_eq_nil` — what is left of a walk that finds nothing wrong
* `check_eq_nil_iff_balanced` — the check reports nothing exactly on balanced tags
-/

namespace MarkupLint

namespace Nesting

/-- The tags are balanced. -/
inductive Balanced : List Tag → Prop where
  /-- No tags. -/
  | nil : Balanced []
  /-- A tag that is an element by itself. -/
  | leaf {tag : Tag} (hopening : tag.isOpening = true) (hleaf : tag.isSelfClosing = true) :
      Balanced [tag]
  /-- An element around balanced tags. -/
  | element {opener closer : Tag} {content : List Tag} (hopens : opener.opensElement = true)
      (hcontent : Balanced content) (hclosing : closer.isClosing = true)
      (hname : opener.name = closer.name) : Balanced (opener :: (content ++ [closer]))
  /-- Balanced tags behind balanced tags. -/
  | append {front back : List Tag} (hfront : Balanced front) (hback : Balanced back) :
      Balanced (front ++ back)

/-! ### Balanced tags are accepted -/

/-- **The walk passes over balanced tags**, whatever is open around them and comes behind. -/
theorem Balanced.verdictsFrom_append {front : List Tag} (h : Balanced front)
    (openers back : List Tag) :
    verdictsFrom openers (front ++ back) = verdictsFrom openers back := by
  induction h generalizing openers back with
  | nil => rfl
  | leaf hopening hleaf =>
    exact verdictsFrom_of_leaf back (Tag.isOpening_iff.mp hopening) hleaf openers
  | @element opener closer content hopens _ hclosing hname ih =>
    obtain ⟨hopening, hleaf⟩ := Tag.opensElement_iff.mp hopens
    calc verdictsFrom openers (opener :: (content ++ [closer]) ++ back)
        = verdictsFrom (opener :: openers) (content ++ (closer :: back)) := by
          rw [List.cons_append, List.append_assoc, verdictsFrom_of_opens _ hopening hleaf]
          rfl
      _ = verdictsFrom (opener :: openers) (closer :: back) := ih _ _
      _ = verdictsFrom openers back := verdictsFrom_of_closes back hclosing hname openers
  | append _ _ ihfront ihback => rw [List.append_assoc, ihfront, ihback]

/-! ### Accepted tags are balanced -/

/-- The tags close the open elements, which are given innermost first, and are balanced apart from
that. -/
inductive ClosesAll : List Tag → List Tag → Prop where
  /-- Nothing is open. -/
  | nil {tags : List Tag} (htags : Balanced tags) : ClosesAll [] tags
  /-- The innermost open element is closed behind balanced tags. -/
  | cons {opener closer : Tag} {outer content rest : List Tag} (hcontent : Balanced content)
      (hclosing : closer.isClosing = true) (hname : opener.name = closer.name)
      (hrest : ClosesAll outer rest) : ClosesAll (opener :: outer) (content ++ closer :: rest)

/-- Balanced tags may come first. -/
theorem ClosesAll.append_left {front : List Tag} (hfront : Balanced front) {openers tags : List Tag}
    (h : ClosesAll openers tags) : ClosesAll openers (front ++ tags) := by
  cases h with
  | nil htags => exact .nil (hfront.append htags)
  | cons hcontent hclosing hname hrest =>
    rw [← List.append_assoc]
    exact .cons (hfront.append hcontent) hclosing hname hrest

/-- An element may be opened first, if it is closed. -/
theorem ClosesAll.cons_left {opener : Tag} (hopens : opener.opensElement = true)
    {openers tags : List Tag} (h : ClosesAll (opener :: openers) tags) :
    ClosesAll openers (opener :: tags) := by
  cases h with
  | @cons _ closer _ content rest hcontent hclosing hname hrest =>
    have helement : Balanced (opener :: (content ++ [closer])) :=
      .element hopens hcontent hclosing hname
    have heq : opener :: (content ++ closer :: rest) = opener :: (content ++ [closer]) ++ rest := by
      simp
    rw [heq]
    exact hrest.append_left helement

/-- **What a walk that finds nothing wrong still has before it.** -/
theorem closesAll_of_verdictsFrom_eq_nil {openers tags : List Tag}
    (h : verdictsFrom openers tags = []) : ClosesAll openers tags := by
  induction tags using Tag.walkInduction generalizing openers with
  | nil =>
    obtain rfl : openers = [] := List.reverse_eq_nil_iff.mp (List.map_eq_nil_iff.mp h)
    exact .nil .nil
  | closing tag rest hclosing ih =>
    rcases verdictsFrom_closing_cases rest hclosing openers with
      ⟨-, heq⟩ | ⟨opener, outer, rfl, hname, heq⟩ | ⟨opener, outer, -, -, heq⟩
    · exact absurd (heq.symm.trans h) (List.cons_ne_nil _ _)
    · exact .cons .nil hclosing hname (ih (heq.symm.trans h))
    · exact absurd (heq.symm.trans h) (List.cons_ne_nil _ _)
  | leaf tag rest hopening hleaf ih =>
    rw [verdictsFrom_of_leaf rest hopening hleaf] at h
    exact (ih h).append_left (.leaf (Tag.isOpening_iff.mpr hopening) hleaf)
  | opens tag rest hopening hleaf ih =>
    rw [verdictsFrom_of_opens rest hopening hleaf] at h
    exact (ih h).cons_left (Tag.opensElement_iff.mpr ⟨hopening, hleaf⟩)

/-- **Nothing is wrong with the nesting of tags exactly if they are balanced.** -/
theorem verdicts_eq_nil_iff_balanced {tags : List Tag} : verdicts tags = [] ↔ Balanced tags := by
  constructor
  · intro h
    cases closesAll_of_verdictsFrom_eq_nil h with
    | nil htags => exact htags
  · intro h
    have hpass := h.verdictsFrom_append [] []
    rwa [List.append_nil] at hpass

/-- **The check of the nesting reports nothing exactly on balanced tags.** If the tags lie inside
the text, the check has a result, and the result is empty if and only if the tags are balanced. -/
theorem check_eq_nil_iff_balanced {table : LineTable} {tags : List Tag}
    (h : ∀ tag ∈ tags, tag.Inside table) :
    ∃ diagnostics, check table tags = .ok diagnostics ∧ (diagnostics = [] ↔ Balanced tags) := by
  obtain ⟨diagnostics, hcheck, hreports⟩ := exists_check h
  refine ⟨diagnostics, hcheck, ?_⟩
  rw [← verdicts_eq_nil_iff_balanced, ← List.map_eq_nil_iff, hreports, List.map_eq_nil_iff]

/-- The tags of `<p><br><i></i/></p><hr/>`, where a closing tag ends with `/>`. -/
def pairedTags : List Tag :=
  [ ⟨"p", "<p>".toList, 0, ⟨false, false, false, 0⟩⟩,
    ⟨"br", "<br>".toList, 3, ⟨false, false, true, 0⟩⟩,
    ⟨"i", "<i>".toList, 7, ⟨false, false, false, 0⟩⟩,
    ⟨"i", "</i/>".toList, 10, ⟨true, true, false, 0⟩⟩,
    ⟨"p", "</p>".toList, 15, ⟨true, false, false, 0⟩⟩,
    ⟨"hr", "<hr/>".toList, 19, ⟨false, true, true, 0⟩⟩ ]

theorem check_eq_nil_iff_balanced_pairedTags :
    (∀ tag ∈ pairedTags, tag.Inside ⟨24, []⟩) ∧
      ∃ diagnostics, check ⟨24, []⟩ pairedTags = .ok diagnostics ∧
        (diagnostics = [] ↔ Balanced pairedTags) :=
  ⟨by decide, check_eq_nil_iff_balanced (by decide)⟩

end Nesting

end MarkupLint
