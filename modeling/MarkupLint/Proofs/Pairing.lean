import Mathlib.Data.List.Nodup
import Mathlib.Data.Set.Function
import MarkupLint.Nesting
import MarkupLint.Proofs.Recognition

/-!
# The pairing behind the check of the nesting

The check of the nesting walks over the tags with the list of the open ones. What it decides can be
said without the list. An account of the tags names the places that are reported, and the place of
the opening tag for each closing tag that is not. It balances if this is a one-to-one pairing of the
unreported closing tags with the unreported opening ones, in which every closing tag gets the last
opening tag before it that no earlier closing tag has got. A closing tag is then reported for one of
two reasons, that there is no such opening tag or that it has another name, and an opening tag for
one, that it is left over in the end.

The places matter: a list may hold the same tag twice, and then the two have different fates. So the
walk is replayed with the place of each open tag beside it. `openAt` is its state before the tag at
a place, and `mem_openAt_iff` the invariant that says what is in it in terms of the pairing alone.

## Main results

* `openAt_succ_cases` — what one tag does to the open ones
* `mem_openAt_iff`, `openAt_pairwise` — what is open, and in which order
* `verdicts_eq` — the verdicts of the check, each with its place
* `check_accounts_for_tags` — the check reports what a balanced account says
-/

namespace MarkupLint

namespace Nesting

/-- The tag at a place closes an element. -/
def Closes (tags : List Tag) (place : ℕ) : Prop :=
  ∃ tag, tags[place]? = some tag ∧ tag.isClosing = true

/-- The tag at a place opens an element that has to be closed. -/
def Opens (tags : List Tag) (place : ℕ) : Prop :=
  ∃ tag, tags[place]? = some tag ∧ tag.opensElement = true

/-! ### Accounts -/

/-- An account of a list of tags. -/
structure Account where
  /-- The place of the tag that is closed by the tag at a place. It only means something for a
  closing tag that is not reported. -/
  mate : ℕ → ℕ
  /-- The places of the tags that are reported, one for each diagnostic. -/
  reported : List ℕ

namespace Account

variable (account : Account) (tags : List Tag)

/-- The closing tag at `j` is not reported and closes the opening tag at `i`. -/
def Paired (j i : ℕ) : Prop := Closes tags j ∧ j ∉ account.reported ∧ account.mate j = i

/-- The opening tag at `i` stands before `j` and is not closed there. -/
def Pending (j i : ℕ) : Prop := Opens tags i ∧ i < j ∧ ∀ j' < j, ¬ account.Paired tags j' i

/-- The opening tag at `i` is the last one before `j` that is not closed there. -/
def Innermost (j i : ℕ) : Prop :=
  account.Pending tags j i ∧ ∀ i', account.Pending tags j i' → i' ≤ i

/-- The account pairs the closing tags that are not reported with the opening tags that are not. -/
structure Balances : Prop where
  /-- Nothing is reported twice. -/
  nodup : account.reported.Nodup
  /-- The pairing is one-to-one, and no tag that is not reported is left out of it. -/
  bijOn : Set.BijOn account.mate {j | Closes tags j ∧ j ∉ account.reported}
    {i | Opens tags i ∧ i ∉ account.reported}
  /-- A closing tag closes the last element that is open. -/
  innermost : ∀ {j i}, account.Paired tags j i → account.Innermost tags j i
  /-- The names agree. -/
  name_eq : ∀ {j i}, account.Paired tags j i →
    (tags[i]?).map Tag.name = (tags[j]?).map Tag.name

/-- The diagnostic is the right one for the tag at a place. -/
inductive Reports (place : ℕ) (diagnostic : Diagnostic) : Prop where
  /-- A closing tag, and all opening tags before it are closed before it. -/
  | unexpected {closer : Tag} (hplace : tags[place]? = some closer)
      (hclosing : closer.isClosing = true) (hpending : ∀ i, ¬ account.Pending tags place i)
      (hrange : closer.range = .ok diagnostic.range)
      (hcode : diagnostic.code = "STRUCTURE_UNEXPECTED_CLOSING_TAG")
      (hmessage : diagnostic.message = "unexpected closing tag `</" ++ closer.name ++ ">`")
  /-- A closing tag, and the last opening tag that is not closed before it has another name. -/
  | mismatched {i : ℕ} {opener closer : Tag} (hplace : tags[place]? = some closer)
      (hclosing : closer.isClosing = true) (hinnermost : account.Innermost tags place i)
      (hopener : tags[i]? = some opener) (hname : opener.name ≠ closer.name)
      (hrange : closer.range = .ok diagnostic.range)
      (hcode : diagnostic.code = "STRUCTURE_MISMATCHED_CLOSING_TAG")
      (hmessage : diagnostic.message = "mismatched closing tag: expected `</" ++ opener.name ++
        ">` but found `</" ++ closer.name ++ ">`")
  /-- An opening tag, and no closing tag closes it. -/
  | unclosed {opener : Tag} (hplace : tags[place]? = some opener)
      (hopens : opener.opensElement = true) (hpaired : ∀ j, ¬ account.Paired tags j place)
      (hrange : opener.range = .ok diagnostic.range)
      (hcode : diagnostic.code = "STRUCTURE_UNCLOSED_TAG")
      (hmessage : diagnostic.message = "unclosed tag `<" ++ opener.name ++ ">`")

end Account

/-- The check of the tags has a result, and it is what a balanced account of them says. -/
def Accounted (table : LineTable) (tags : List Tag) : Prop :=
  ∃ (account : Account) (diagnostics : List Diagnostic), check table tags = .ok diagnostics ∧
    account.Balances tags ∧
    List.Forall₂ (account.Reports tags) account.reported diagnostics

/-! ### The walk, with places -/

/-- The open tags behind a tag, given those before it, innermost first. -/
def advance (openers : List (ℕ × Tag)) (place : ℕ) (tag : Tag) : List (ℕ × Tag) :=
  if tag.isClosing then
    match openers with
    | [] => []
    | opener :: outer => if opener.2.name = tag.name then outer else opener :: outer
  else if tag.opensElement then (place, tag) :: openers else openers

/-- What is wrong with a tag that comes while `openers` are open, innermost first. -/
def misfit? (openers : List (ℕ × Tag)) (tag : Tag) : Option Verdict :=
  if tag.isClosing then
    match openers with
    | [] => some (.unexpected tag)
    | opener :: _ => if opener.2.name = tag.name then none else some (.mismatched opener.2 tag)
  else none

/-- The tags that are open before a place, innermost first. -/
def openAt (tags : List Tag) : ℕ → List (ℕ × Tag)
  | 0 => []
  | k + 1 => match tags[k]? with
    | some tag => advance (openAt tags k) k tag
    | none => openAt tags k

theorem openAt_succ {tags : List Tag} {k : ℕ} {tag : Tag} (h : tags[k]? = some tag) :
    openAt tags (k + 1) = advance (openAt tags k) k tag := by
  rw [openAt, h]

/-- What is wrong with the tag at a place, together with the place. -/
def misfitAt? (tags : List Tag) (k : ℕ) : Option (ℕ × Verdict) :=
  (tags[k]?.bind (misfit? (openAt tags k))).map (k, ·)

/-- The verdicts on a list of tags, each with the place of its tag. -/
def placedVerdicts (tags : List Tag) : List (ℕ × Verdict) :=
  (List.range tags.length).filterMap (misfitAt? tags) ++
    (openAt tags tags.length).reverse.map fun opener => (opener.1, .unclosed opener.2)

theorem verdictsFrom_cons (openers : List (ℕ × Tag)) (place : ℕ) (tag : Tag) (rest : List Tag) :
    verdictsFrom (openers.map Prod.snd) (tag :: rest) =
      (misfit? openers tag).toList ++
        verdictsFrom ((advance openers place tag).map Prod.snd) rest := by
  unfold misfit? advance
  by_cases hclosing : tag.isClosing = true
  · rcases openers with _ | ⟨opener, outer⟩
    · simp [verdictsFrom, hclosing]
    · by_cases hname : opener.2.name = tag.name <;> simp [verdictsFrom, hclosing, hname]
  · by_cases hopens : tag.opensElement = true <;> simp [verdictsFrom, hclosing, hopens]

/-- The check, cut in two at a place. -/
theorem verdicts_eq_append {tags : List Tag} {k : ℕ} (h : k ≤ tags.length) :
    verdicts tags = ((List.range k).filterMap (misfitAt? tags)).map Prod.snd ++
      verdictsFrom ((openAt tags k).map Prod.snd) (tags.drop k) := by
  induction k with
  | zero => rfl
  | succ k ih =>
    have htag : tags[k]? = some tags[k] := List.getElem?_eq_getElem h
    have hmisfit : ([k].filterMap (misfitAt? tags)).map Prod.snd =
        (misfit? (openAt tags k) tags[k]).toList := by
      rw [List.filterMap_cons, misfitAt?, htag, Option.bind_some]
      cases misfit? (openAt tags k) tags[k] <;> rfl
    rw [ih (Nat.le_of_succ_le h), List.drop_eq_getElem_cons h, verdictsFrom_cons _ k,
      openAt_succ htag, List.range_succ, List.filterMap_append, List.map_append, hmisfit,
      List.append_assoc]

theorem verdicts_eq (tags : List Tag) : verdicts tags = (placedVerdicts tags).map Prod.snd := by
  rw [verdicts_eq_append le_rfl, List.drop_length, verdictsFrom, placedVerdicts, List.map_append,
    List.map_map, ← List.map_reverse, List.map_map]
  rfl

/-! ### What is open -/

theorem not_opens_of_closes {tags : List Tag} {k : ℕ} (h : Closes tags k) : ¬ Opens tags k := by
  rintro ⟨opener, hopener, hopens⟩
  obtain ⟨closer, hcloser, hclosing⟩ := h
  obtain rfl : closer = opener := Option.some.inj (hcloser.symm.trans hopener)
  simp [Tag.opensElement, Tag.isOpening, hclosing] at hopens

/-- The tag at `j` closes the tag at `i`, which is the innermost one that is open then. -/
def Pairs (tags : List Tag) (j i : ℕ) : Prop :=
  ∃ closer opener outer, tags[j]? = some closer ∧ closer.isClosing = true ∧
    openAt tags j = (i, opener) :: outer ∧ opener.name = closer.name

theorem Pairs.closes {tags : List Tag} {j i : ℕ} (h : Pairs tags j i) : Closes tags j := by
  obtain ⟨closer, -, -, hcloser, hclosing, -⟩ := h
  exact ⟨closer, hcloser, hclosing⟩

theorem Pairs.unique {tags : List Tag} {j i i' : ℕ} (h : Pairs tags j i) (h' : Pairs tags j i') :
    i = i' := by
  obtain ⟨-, opener, outer, -, -, hopen, -⟩ := h
  obtain ⟨-, opener', outer', -, -, hopen', -⟩ := h'
  rw [hopen] at hopen'
  exact congrArg Prod.fst (List.cons.inj hopen').1

/-- Nothing is closed where nothing is open. -/
theorem not_pairs_of_openAt_eq_nil {tags : List Tag} {j : ℕ} (hopen : openAt tags j = []) (i : ℕ) :
    ¬ Pairs tags j i := by
  rintro ⟨-, opener, outer, -, -, hcons, -⟩
  simp [hopen] at hcons

/-- Nothing is closed by a tag with another name than the innermost open one. -/
theorem not_pairs_of_name_ne {tags : List Tag} {j i : ℕ} {closer opener : Tag}
    {outer : List (ℕ × Tag)} (hcloser : tags[j]? = some closer)
    (hopen : openAt tags j = (i, opener) :: outer) (hname : opener.name ≠ closer.name) (i' : ℕ) :
    ¬ Pairs tags j i' := by
  rintro ⟨closer', opener', outer', hcloser', -, hcons, hname'⟩
  obtain rfl : closer = closer' := Option.some.inj (hcloser.symm.trans hcloser')
  rw [hopen, List.cons.injEq, Prod.mk.injEq] at hcons
  exact hname (hcons.1.2 ▸ hname')

/-- What one tag does to the open ones: it closes the innermost, it is opened itself, or it does
nothing. -/
theorem openAt_succ_cases (tags : List Tag) (k : ℕ) :
    (∃ i opener, Pairs tags k i ∧ openAt tags k = (i, opener) :: openAt tags (k + 1)) ∨
    (∃ tag, tags[k]? = some tag ∧ tag.opensElement = true ∧
      openAt tags (k + 1) = (k, tag) :: openAt tags k) ∨
    (¬ Opens tags k ∧ (∀ i, ¬ Pairs tags k i) ∧ openAt tags (k + 1) = openAt tags k) := by
  cases htag : tags[k]? with
  | none =>
    refine .inr (.inr ⟨?_, ?_, by rw [openAt, htag]⟩)
    · rintro ⟨tag, hsome, -⟩
      simp [htag] at hsome
    · rintro i ⟨closer, opener, outer, hsome, -⟩
      simp [htag] at hsome
  | some tag =>
    rw [openAt_succ htag]
    by_cases hclosing : tag.isClosing = true
    · have hopens : ¬ Opens tags k := not_opens_of_closes ⟨tag, htag, hclosing⟩
      rcases hopen : openAt tags k with _ | ⟨⟨i, opener⟩, outer⟩
      · exact .inr (.inr ⟨hopens, not_pairs_of_openAt_eq_nil hopen, by simp [advance, hclosing]⟩)
      · by_cases hname : opener.name = tag.name
        · exact .inl ⟨i, opener, ⟨tag, opener, outer, htag, hclosing, hopen, hname⟩,
            by simp [advance, hclosing, hname]⟩
        · exact .inr (.inr ⟨hopens, not_pairs_of_name_ne htag hopen hname,
            by simp [advance, hclosing, hname]⟩)
    · have hcloses : ∀ i, ¬ Pairs tags k i := by
        intro i hpairs
        obtain ⟨closer, hcloser, hcloses⟩ := hpairs.closes
        rw [htag, Option.some.injEq] at hcloser
        exact hclosing (hcloser ▸ hcloses)
      by_cases hopens : tag.opensElement = true
      · exact .inr (.inl ⟨tag, rfl, hopens, by simp [advance, hclosing, hopens]⟩)
      · refine .inr (.inr ⟨?_, hcloses, by simp [advance, hclosing, hopens]⟩)
        rintro ⟨opener, hopener, hopener_opens⟩
        rw [htag, Option.some.injEq] at hopener
        exact hopens (hopener ▸ hopener_opens)

/-- The open tags stand before the place at which they are open, the innermost one last. -/
theorem openAt_pairwise (tags : List Tag) (k : ℕ) :
    (k :: (openAt tags k).map Prod.fst).Pairwise (· > ·) := by
  induction k with
  | zero => exact List.pairwise_singleton _ _
  | succ k ih =>
    obtain ⟨hlt, hsorted⟩ := List.pairwise_cons.mp ih
    rcases openAt_succ_cases tags k with ⟨i, opener, -, hopen⟩ | ⟨tag, -, -, hopen⟩ | ⟨-, -, hopen⟩
    · rw [hopen, List.map_cons] at hlt hsorted
      refine List.pairwise_cons.mpr ⟨fun i' hi' => ?_, (List.pairwise_cons.mp hsorted).2⟩
      exact Nat.lt_succ_of_lt (hlt i' (List.mem_cons_of_mem i hi'))
    · rw [hopen, List.map_cons]
      refine List.pairwise_cons.mpr ⟨fun i' hi' => ?_, ih⟩
      rcases List.mem_cons.mp hi' with rfl | hi'
      · exact Nat.lt_succ_self _
      · exact Nat.lt_succ_of_lt (hlt i' hi')
    · rw [hopen]
      exact List.pairwise_cons.mpr ⟨fun i' hi' => Nat.lt_succ_of_lt (hlt i' hi'), hsorted⟩

theorem Pairs.lt {tags : List Tag} {j i : ℕ} (h : Pairs tags j i) : i < j := by
  obtain ⟨-, opener, outer, -, -, hopen, -⟩ := h
  have hsorted := openAt_pairwise tags j
  rw [hopen, List.map_cons] at hsorted
  exact (List.pairwise_cons.mp hsorted).1 i List.mem_cons_self

/-- **What is open** before a place: the opening tags before it that no closing tag before it has
closed. -/
theorem mem_openAt_iff {tags : List Tag} {k i : ℕ} {tag : Tag} :
    (i, tag) ∈ openAt tags k ↔
      tags[i]? = some tag ∧ tag.opensElement = true ∧ i < k ∧ ∀ j < k, ¬ Pairs tags j i := by
  induction k with
  | zero => simp [openAt]
  | succ k ih =>
    rw [Nat.forall_lt_succ_right]
    rcases openAt_succ_cases tags k with ⟨i₀, opener, hpairs, hopen⟩ |
      ⟨tag₀, htag₀, hopens, hopen⟩ | ⟨hopens, hpairs, hopen⟩
    · -- The tag that is closed stands behind all that stay open, so it is none of them.
      have hsorted := (List.pairwise_cons.mp (openAt_pairwise tags k)).2
      rw [hopen, List.map_cons, List.pairwise_cons] at hsorted
      rw [hopen, List.mem_cons, Prod.mk.injEq] at ih
      constructor
      · intro hmem
        obtain ⟨htag, hopens, hlt, hnot⟩ := ih.mp (.inr hmem)
        have hlast : i < i₀ := hsorted.1 i (List.mem_map_of_mem hmem)
        exact ⟨htag, hopens, Nat.lt_succ_of_lt hlt, hnot, fun h => by
          have := h.unique hpairs
          omega⟩
      · rintro ⟨htag, hopens, hlt, hnot, hlast⟩
        have hne : i ≠ k := by
          rintro rfl
          exact not_opens_of_closes hpairs.closes ⟨tag, htag, hopens⟩
        rcases ih.mpr ⟨htag, hopens, by omega, hnot⟩ with ⟨rfl, -⟩ | hmem
        · exact absurd hpairs hlast
        · exact hmem
    · rw [hopen, List.mem_cons, ih, Prod.mk.injEq]
      constructor
      · rintro (⟨rfl, rfl⟩ | ⟨htag, htag_opens, hlt, hnot⟩)
        · exact ⟨htag₀, hopens, Nat.lt_succ_self i, fun j hj h => Nat.lt_asymm hj h.lt,
            fun h => Nat.lt_irrefl i h.lt⟩
        · exact ⟨htag, htag_opens, Nat.lt_succ_of_lt hlt, hnot,
            fun h => not_opens_of_closes h.closes ⟨tag₀, htag₀, hopens⟩⟩
      · rintro ⟨htag, htag_opens, hlt, hnot, -⟩
        by_cases hk : i = k
        · subst hk
          exact .inl ⟨rfl, Option.some.inj (htag.symm.trans htag₀)⟩
        · exact .inr ⟨htag, htag_opens, by omega, hnot⟩
    · rw [hopen, ih]
      constructor
      · rintro ⟨htag, htag_opens, hlt, hnot⟩
        exact ⟨htag, htag_opens, Nat.lt_succ_of_lt hlt, hnot, hpairs i⟩
      · rintro ⟨htag, htag_opens, hlt, hnot, -⟩
        have hne : i ≠ k := by
          rintro rfl
          exact hopens ⟨tag, htag, htag_opens⟩
        exact ⟨htag, htag_opens, by omega, hnot⟩

theorem Pairs.opens {tags : List Tag} {j i : ℕ} (h : Pairs tags j i) :
    Opens tags i ∧ ∀ j' < j, ¬ Pairs tags j' i := by
  obtain ⟨-, opener, outer, -, -, hopen, -⟩ := h
  obtain ⟨htag, hopens, -, hnot⟩ := mem_openAt_iff.mp (hopen ▸ List.mem_cons_self)
  exact ⟨⟨opener, htag, hopens⟩, hnot⟩

theorem Pairs.injective {tags : List Tag} {j j' i : ℕ} (h : Pairs tags j i) (h' : Pairs tags j' i) :
    j = j' := by
  rcases Nat.lt_trichotomy j j' with hlt | heq | hlt
  · exact absurd h (h'.opens.2 j hlt)
  · exact heq
  · exact absurd h' (h.opens.2 j' hlt)

/-! ### The verdicts in terms of the walk -/

theorem misfit?_eq_some_iff {openers : List (ℕ × Tag)} {tag : Tag} {verdict : Verdict} :
    misfit? openers tag = some verdict ↔ tag.isClosing = true ∧
      (openers = [] ∧ .unexpected tag = verdict ∨
        ∃ i opener outer, openers = (i, opener) :: outer ∧ opener.name ≠ tag.name ∧
          .mismatched opener tag = verdict) := by
  unfold misfit?
  by_cases hclosing : tag.isClosing = true
  · rcases openers with _ | ⟨⟨i, opener⟩, outer⟩
    · simp [hclosing]
    · by_cases hname : opener.name = tag.name <;> simp [hclosing, hname]
  · simp [hclosing]

/-- The verdict on the tag at a place, as the open tags decide it. -/
inductive Judged (tags : List Tag) (place : ℕ) : Verdict → Prop where
  | unexpected {closer : Tag} (hplace : tags[place]? = some closer)
      (hclosing : closer.isClosing = true) (hopen : openAt tags place = []) :
      Judged tags place (.unexpected closer)
  | mismatched {closer opener : Tag} {i : ℕ} {outer : List (ℕ × Tag)}
      (hplace : tags[place]? = some closer) (hclosing : closer.isClosing = true)
      (hopen : openAt tags place = (i, opener) :: outer) (hname : opener.name ≠ closer.name) :
      Judged tags place (.mismatched opener closer)
  | unclosed {opener : Tag} (hopen : (place, opener) ∈ openAt tags tags.length) :
      Judged tags place (.unclosed opener)

theorem misfitAt?_eq_some_iff {tags : List Tag} {k place : ℕ} {verdict : Verdict} :
    misfitAt? tags k = some (place, verdict) ↔ k = place ∧
      ∃ tag, tags[place]? = some tag ∧ misfit? (openAt tags place) tag = some verdict := by
  simp only [misfitAt?, Option.map_eq_some_iff, Option.bind_eq_some_iff, Prod.mk.injEq]
  constructor
  · rintro ⟨verdict, htag, rfl, rfl⟩
    exact ⟨rfl, htag⟩
  · rintro ⟨rfl, htag⟩
    exact ⟨verdict, htag, rfl, rfl⟩

theorem mem_placedVerdicts_iff {tags : List Tag} {place : ℕ} {verdict : Verdict} :
    (place, verdict) ∈ placedVerdicts tags ↔ Judged tags place verdict := by
  simp only [placedVerdicts, List.mem_append, List.mem_filterMap, misfitAt?_eq_some_iff,
    misfit?_eq_some_iff, List.mem_map, List.mem_reverse, List.mem_range]
  constructor
  · rintro (⟨k, -, rfl, closer, hplace, hclosing,
      ⟨hopen, rfl⟩ | ⟨i, opener, outer, hopen, hname, rfl⟩⟩ | ⟨⟨i, opener⟩, hmem, heq⟩)
    · exact .unexpected hplace hclosing hopen
    · exact .mismatched hplace hclosing hopen hname
    · obtain ⟨rfl, rfl⟩ := Prod.mk.inj heq
      exact .unclosed hmem
  · rintro (⟨hplace, hclosing, hopen⟩ | ⟨hplace, hclosing, hopen, hname⟩ | hmem)
    · exact .inl ⟨place, (List.getElem?_eq_some_iff.mp hplace).1, rfl, _, hplace, hclosing,
        .inl ⟨hopen, rfl⟩⟩
    · exact .inl ⟨place, (List.getElem?_eq_some_iff.mp hplace).1, rfl, _, hplace, hclosing,
        .inr ⟨_, _, _, hopen, hname, rfl⟩⟩
    · exact .inr ⟨_, hmem, rfl⟩

theorem Judged.getElem? {tags : List Tag} {place : ℕ} {verdict : Verdict}
    (h : Judged tags place verdict) : tags[place]? = some verdict.tag := by
  cases h with
  | unexpected hplace _ _ => exact hplace
  | mismatched hplace _ _ _ => exact hplace
  | unclosed hopen => exact (mem_openAt_iff.mp hopen).1

/-- There is a verdict on a closing tag that closes nothing and on an opening tag that nothing
closes, and on no other. -/
theorem exists_judged_iff {tags : List Tag} {place : ℕ} :
    (∃ verdict, Judged tags place verdict) ↔
      (Closes tags place ∧ ∀ i, ¬ Pairs tags place i) ∨
        (Opens tags place ∧ ∀ j, ¬ Pairs tags j place) := by
  constructor
  · rintro ⟨verdict, ⟨hplace, hclosing, hopen⟩ | ⟨hplace, hclosing, hopen, hname⟩ | hmem⟩
    · exact .inl ⟨⟨_, hplace, hclosing⟩, not_pairs_of_openAt_eq_nil hopen⟩
    · exact .inl ⟨⟨_, hplace, hclosing⟩, not_pairs_of_name_ne hplace hopen hname⟩
    · obtain ⟨htag, hopens, -, hnot⟩ := mem_openAt_iff.mp hmem
      refine .inr ⟨⟨_, htag, hopens⟩, fun j hpairs => hnot j ?_ hpairs⟩
      obtain ⟨closer, hcloser, -⟩ := hpairs.closes
      exact (List.getElem?_eq_some_iff.mp hcloser).1
  · rintro (⟨⟨closer, hplace, hclosing⟩, hnot⟩ | ⟨⟨opener, hplace, hopens⟩, hnot⟩)
    · rcases hopen : openAt tags place with _ | ⟨⟨i, opener⟩, outer⟩
      · exact ⟨_, .unexpected hplace hclosing hopen⟩
      · exact ⟨_, .mismatched hplace hclosing hopen fun hname =>
          hnot i ⟨closer, opener, outer, hplace, hclosing, hopen, hname⟩⟩
    · exact ⟨_, .unclosed (mem_openAt_iff.mpr ⟨hplace, hopens,
        (List.getElem?_eq_some_iff.mp hplace).1, fun j _ => hnot j⟩)⟩

/-! ### The account of the walk -/

/-- The account that the walk keeps: a closing tag is meant for the innermost open one. -/
def walkAccount (tags : List Tag) : Account where
  mate j := ((openAt tags j).head?.map Prod.fst).getD 0
  reported := (placedVerdicts tags).map Prod.fst

theorem Pairs.mate_eq {tags : List Tag} {j i : ℕ} (h : Pairs tags j i) :
    (walkAccount tags).mate j = i := by
  obtain ⟨-, opener, outer, -, -, hopen, -⟩ := h
  simp [walkAccount, hopen]

theorem mem_reported_iff {tags : List Tag} {place : ℕ} :
    place ∈ (walkAccount tags).reported ↔ ∃ verdict, Judged tags place verdict := by
  simp only [walkAccount, List.mem_map, Prod.exists, exists_and_right, exists_eq_right,
    mem_placedVerdicts_iff]

theorem Closes.notMem_reported_iff {tags : List Tag} {j : ℕ} (h : Closes tags j) :
    j ∉ (walkAccount tags).reported ↔ ∃ i, Pairs tags j i := by
  rw [mem_reported_iff, exists_judged_iff]
  simp [h, not_opens_of_closes h]

theorem Opens.notMem_reported_iff {tags : List Tag} {i : ℕ} (h : Opens tags i) :
    i ∉ (walkAccount tags).reported ↔ ∃ j, Pairs tags j i := by
  have hcloses : ¬ Closes tags i := fun hcloses => not_opens_of_closes hcloses h
  rw [mem_reported_iff, exists_judged_iff]
  simp [h, hcloses]

theorem paired_walkAccount_iff {tags : List Tag} {j i : ℕ} :
    (walkAccount tags).Paired tags j i ↔ Pairs tags j i := by
  constructor
  · rintro ⟨hcloses, hnot, rfl⟩
    obtain ⟨i, hpairs⟩ := hcloses.notMem_reported_iff.mp hnot
    exact hpairs.mate_eq.symm ▸ hpairs
  · intro hpairs
    exact ⟨hpairs.closes, hpairs.closes.notMem_reported_iff.mpr ⟨i, hpairs⟩, hpairs.mate_eq⟩

theorem pending_walkAccount_iff {tags : List Tag} {j i : ℕ} :
    (walkAccount tags).Pending tags j i ↔ ∃ opener, (i, opener) ∈ openAt tags j := by
  simp only [Account.Pending, paired_walkAccount_iff, mem_openAt_iff, Opens]
  constructor
  · rintro ⟨⟨opener, hopener, hopens⟩, hlt, hnot⟩
    exact ⟨opener, hopener, hopens, hlt, hnot⟩
  · rintro ⟨opener, hopener, hopens, hlt, hnot⟩
    exact ⟨⟨opener, hopener, hopens⟩, hlt, hnot⟩

/-- The first of the open tags is the one that was opened last. -/
theorem innermost_of_openAt_eq_cons {tags : List Tag} {j i : ℕ} {opener : Tag}
    {outer : List (ℕ × Tag)} (h : openAt tags j = (i, opener) :: outer) :
    (walkAccount tags).Innermost tags j i := by
  refine ⟨pending_walkAccount_iff.mpr ⟨opener, h ▸ List.mem_cons_self⟩, fun i' hi' => ?_⟩
  obtain ⟨opener', hmem⟩ := pending_walkAccount_iff.mp hi'
  have hsorted := (List.pairwise_cons.mp (openAt_pairwise tags j)).2
  rw [h, List.map_cons, List.pairwise_cons] at hsorted
  rw [h, List.mem_cons, Prod.mk.injEq] at hmem
  rcases hmem with ⟨rfl, -⟩ | hmem
  · exact le_rfl
  · exact le_of_lt (hsorted.1 i' (List.mem_map_of_mem hmem))

/-! ### The account balances -/

theorem nodup_reported (tags : List Tag) : (walkAccount tags).reported.Nodup := by
  rw [walkAccount, placedVerdicts, List.map_append, List.map_filterMap, List.map_map,
    List.map_reverse]
  refine List.Nodup.append ?_ ?_ ?_
  · -- Every closing tag is looked at once.
    refine List.Nodup.filterMap (fun k k' place hk hk' => ?_) List.nodup_range
    simp only [misfitAt?, Option.map_map, Option.mem_def, Option.map_eq_some_iff] at hk hk'
    obtain ⟨_, -, rfl⟩ := hk
    obtain ⟨_, -, heq⟩ := hk'
    exact heq.symm
  · exact List.nodup_reverse.mpr
      ((List.pairwise_cons.mp (openAt_pairwise tags tags.length)).2.imp Nat.ne_of_gt)
  · -- What is left open are no closing tags.
    intro place hcloser hopener
    obtain ⟨k, -, hplace⟩ := List.mem_filterMap.mp hcloser
    obtain ⟨⟨place', verdict⟩, hk, rfl⟩ := Option.map_eq_some_iff.mp hplace
    obtain ⟨rfl, closer, hcloser, hmisfit⟩ := misfitAt?_eq_some_iff.mp hk
    obtain ⟨⟨i, opener⟩, hmem, rfl⟩ := List.mem_map.mp (List.mem_reverse.mp hopener)
    obtain ⟨htag, hopens, -⟩ := mem_openAt_iff.mp hmem
    exact not_opens_of_closes ⟨closer, hcloser, (misfit?_eq_some_iff.mp hmisfit).1⟩
      ⟨opener, htag, hopens⟩

theorem bijOn_mate (tags : List Tag) :
    Set.BijOn (walkAccount tags).mate {j | Closes tags j ∧ j ∉ (walkAccount tags).reported}
      {i | Opens tags i ∧ i ∉ (walkAccount tags).reported} := by
  -- The mate of an unreported closing tag is what the walk pairs it with.
  have hmate : ∀ {j}, Closes tags j ∧ j ∉ (walkAccount tags).reported →
      Pairs tags j ((walkAccount tags).mate j) := fun h =>
    paired_walkAccount_iff.mp ⟨h.1, h.2, rfl⟩
  refine ⟨fun j hj => ?_, fun j hj j' hj' heq => ?_, fun i hi => ?_⟩
  · exact ⟨(hmate hj).opens.1, (hmate hj).opens.1.notMem_reported_iff.mpr ⟨j, hmate hj⟩⟩
  · exact (hmate hj).injective (heq ▸ hmate hj')
  · obtain ⟨j, hpairs⟩ := hi.1.notMem_reported_iff.mp hi.2
    exact ⟨j, ⟨hpairs.closes, hpairs.closes.notMem_reported_iff.mpr ⟨i, hpairs⟩⟩, hpairs.mate_eq⟩

theorem Pairs.name_eq {tags : List Tag} {j i : ℕ} (h : Pairs tags j i) :
    (tags[i]?).map Tag.name = (tags[j]?).map Tag.name := by
  obtain ⟨closer, opener, outer, hcloser, -, hopen, hname⟩ := h
  obtain ⟨hopener, -⟩ := mem_openAt_iff.mp (hopen ▸ List.mem_cons_self)
  rw [hopener, hcloser, Option.map_some, Option.map_some, hname]

theorem balances_walkAccount (tags : List Tag) : (walkAccount tags).Balances tags where
  nodup := nodup_reported tags
  bijOn := bijOn_mate tags
  innermost h := by
    obtain ⟨_, _, _, -, -, hopen, -⟩ := paired_walkAccount_iff.mp h
    exact innermost_of_openAt_eq_cons hopen
  name_eq h := (paired_walkAccount_iff.mp h).name_eq

/-! ### The diagnostics -/

theorem Verdict.fits (verdict : Verdict) :
    verdict.finding.1.fits (verdict.finding.2.map Prod.fst) = true := by
  cases verdict <;> rfl

/-- A verdict on a tag inside the text becomes the diagnostic that the account asks for. -/
theorem Judged.exists_diagnostic {table : LineTable} {tags : List Tag} {place : ℕ}
    {verdict : Verdict} (h : Judged tags place verdict) (htag : verdict.tag.Inside table) :
    ∃ d, verdict.diagnostic table = .ok d ∧ (walkAccount tags).Reports tags place d := by
  obtain ⟨d, hd, hcode, hmessage, hrange⟩ := Tag.diagnostic_of_inside htag verdict.fits
  refine ⟨d, hd, ?_⟩
  -- The messages are compared by filling the templates.
  cases h with
  | unexpected hplace hclosing hopen =>
    refine .unexpected hplace hclosing (fun i hi => ?_) hrange hcode (Except.ok.inj hmessage).symm
    obtain ⟨opener, hmem⟩ := pending_walkAccount_iff.mp hi
    simp [hopen] at hmem
  | mismatched hplace hclosing hopen hname =>
    have hopener := (mem_openAt_iff.mp (hopen ▸ List.mem_cons_self)).1
    exact .mismatched hplace hclosing (innermost_of_openAt_eq_cons hopen) hopener hname hrange
      hcode (Except.ok.inj hmessage).symm
  | unclosed hopen =>
    obtain ⟨hplace, hopens, -⟩ := mem_openAt_iff.mp hopen
    refine .unclosed hplace hopens (fun j hpaired => ?_) hrange hcode (Except.ok.inj hmessage).symm
    have hreported := mem_reported_iff.mpr ⟨_, Judged.unclosed hopen⟩
    exact Opens.notMem_reported_iff ⟨_, hplace, hopens⟩ |>.mpr
      ⟨j, paired_walkAccount_iff.mp hpaired⟩ hreported

theorem accounted_of_inside {table : LineTable} {tags : List Tag}
    (h : ∀ tag ∈ tags, tag.Inside table) : Accounted table tags := by
  have hplaced : ∀ placed ∈ placedVerdicts tags, ∃ d, placed.2.diagnostic table = .ok d ∧
      (walkAccount tags).Reports tags placed.1 d := by
    rintro ⟨place, verdict⟩ hmem
    have hjudged := mem_placedVerdicts_iff.mp hmem
    exact hjudged.exists_diagnostic (h _ (List.mem_of_getElem? hjudged.getElem?))
  obtain ⟨diagnostics, hdiagnostics, hreports⟩ := exists_mapM_forall₂ hplaced
  refine ⟨walkAccount tags, diagnostics, ?_, balances_walkAccount tags, ?_⟩
  · rw [check, verdicts_eq, List.mapM_map]
    exact hdiagnostics
  · exact List.forall₂_map_left_iff.mpr hreports

/-- **The check of the nesting accounts for every tag exactly once.** Whenever the tags lie inside
the text, as those of a scan do, it has a result, and the result is what a balanced account of the
tags says: each unreported closing tag is paired with the last opening tag before it that was not
closed already, their names agree, and no other opening tag goes unreported; each reported tag gets
one diagnostic, at its own range and for its own reason; and there are no other diagnostics. -/
theorem check_accounts_for_tags :
    (∀ (table : LineTable) (tags : List Tag), (∀ tag ∈ tags, tag.Inside table) →
      Accounted table tags) ∧
    ∀ text : Text, ∃ scan, Scan.ofText text = .ok scan ∧ Accounted scan.table scan.tags := by
  refine ⟨fun table tags => accounted_of_inside, fun text => ?_⟩
  obtain ⟨scan, hscan, -⟩ := Scan.exists_ofText text
  exact ⟨scan, hscan, accounted_of_inside fun tag htag => Scan.inside_of_ofText hscan htag⟩

/-- The tags of `<p></i></p></b><br><i>`: a closing tag that is passed over, one that closes the
element after all, one that comes where nothing is open, a void tag and a tag that is never
closed. -/
def strayTags : List Tag :=
  [ ⟨"p", "<p>".toList, 0, ⟨false, false, false, 0⟩⟩,
    ⟨"i", "</i>".toList, 3, ⟨true, false, false, 0⟩⟩,
    ⟨"p", "</p>".toList, 7, ⟨true, false, false, 0⟩⟩,
    ⟨"b", "</b>".toList, 11, ⟨true, false, false, 0⟩⟩,
    ⟨"br", "<br>".toList, 15, ⟨false, false, true, 0⟩⟩,
    ⟨"i", "<i>".toList, 19, ⟨false, false, false, 0⟩⟩ ]

theorem check_accounts_for_strayTags :
    (∀ tag ∈ strayTags, tag.Inside ⟨22, []⟩) ∧ Accounted ⟨22, []⟩ strayTags :=
  ⟨by decide, check_accounts_for_tags.1 _ _ (by decide)⟩

end Nesting

end MarkupLint
