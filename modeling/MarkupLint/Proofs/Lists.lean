import Mathlib.Data.List.Forall2
import Mathlib.Data.List.Nodup
import Mathlib.Data.List.Perm.Basic
import MarkupLint.Fault

/-!
# Lists and requests

What the rest of the theory needs to know about lists and about requests that may be refused, and
that has nothing to do with markup.

A list is often made one by one from another, where the first fault ends it all. Such a list is best
seen as a relation: each member of the one list goes with the member of the other that was made from
it. Then what is known of the members is known of the lists.

The other half is about filters. A stable sort can be exchanged with every filter, as can be seen
from where a new first member goes: behind all that are smaller and before all others. Both parts
are filters of the sorted rest, and filters can be exchanged.

At the end there is a little about lists of entries, in which a value is looked up by its name.

## Main results

* `exists_mapM_forall₂`, `mapM_eq_ok_iff` — lists that are made one by one
* `forall₂_of_common`, `pairwise_of_forall₂` — what is known of lists that were made from others
* `perm_of_filter_eq` — lists that agree sort by sort are permutations of each other
* `filter_mergeSort` — sorting and filtering can be exchanged
-/

namespace MarkupLint

/-! ### Lists made one by one -/

section Traversal

variable {α β : Type}

/-- A request that follows another is granted if both are. -/
theorem bind_eq_ok_iff {first : Except Fault α} {next : α → Except Fault β} {b : β} :
    (first >>= next) = .ok b ↔ ∃ a, first = .ok a ∧ next a = .ok b := by
  constructor
  · intro h
    cases first with
    | error fault => cases h
    | ok a => exact ⟨a, rfl, h⟩
  · rintro ⟨a, rfl, h⟩
    exact h

variable {f : α → Except Fault β}

theorem exists_mapM_forall₂ {P : α → β → Prop} {xs : List α}
    (h : ∀ x ∈ xs, ∃ y, f x = .ok y ∧ P x y) :
    ∃ ys, xs.mapM f = .ok ys ∧ List.Forall₂ P xs ys := by
  induction xs with
  | nil => exact ⟨[], rfl, .nil⟩
  | cons x xs ih =>
    obtain ⟨y, hy, hP⟩ := h x List.mem_cons_self
    obtain ⟨ys, hys, hall⟩ := ih fun x' hx' => h x' (List.mem_cons_of_mem x hx')
    exact ⟨y :: ys, by rw [List.mapM_cons, hy, hys]; rfl, .cons hP hall⟩

theorem exists_mapM_eq_ok {xs : List α} (h : ∀ x ∈ xs, ∃ y, f x = .ok y) :
    ∃ ys, xs.mapM f = .ok ys := by
  obtain ⟨ys, hys, -⟩ := exists_mapM_forall₂ fun x hx => (h x hx).imp fun y hy => ⟨hy, hy⟩
  exact ⟨ys, hys⟩

/-- A list is made one by one if each of its members is. -/
theorem mapM_eq_ok_iff {xs : List α} {ys : List β} :
    xs.mapM f = .ok ys ↔ List.Forall₂ (fun x y => f x = .ok y) xs ys := by
  induction xs generalizing ys with
  | nil =>
    rw [List.mapM_nil, List.forall₂_nil_left_iff]
    exact ⟨fun h => (Except.ok.inj h).symm, fun h => congrArg Except.ok h.symm⟩
  | cons x xs ih =>
    simp only [List.mapM_cons, bind_eq_ok_iff, List.forall₂_cons_left_iff, ih]
    constructor
    · rintro ⟨y, hy, ys, hys, heq⟩
      cases heq
      exact ⟨y, ys, hy, hys, rfl⟩
    · rintro ⟨y, ys, hy, hys, rfl⟩
      exact ⟨y, hy, ys, hys, rfl⟩

end Traversal

/-! ### Lists that go together -/

section Relation

variable {α β γ : Type} {R : α → β → Prop} {xs : List α} {ys : List β}

/-- Whatever was made was made from something. -/
theorem exists_mem_of_forall₂ (h : List.Forall₂ R xs ys) {y : β} (hy : y ∈ ys) :
    ∃ x ∈ xs, R x y := by
  induction h with
  | nil => cases hy
  | @cons x first xs ys hfirst _ ih =>
    rcases List.mem_cons.mp hy with rfl | hy
    · exact ⟨x, List.mem_cons_self, hfirst⟩
    · obtain ⟨x', hx', hR⟩ := ih hy
      exact ⟨x', List.mem_cons_of_mem x hx', hR⟩

/-- What was made from the same list goes together if what is made from one of its members does. -/
theorem forall₂_of_common {R' : α → γ → Prop} {Q : β → γ → Prop} {zs : List γ}
    (h : List.Forall₂ R xs ys) (h' : List.Forall₂ R' xs zs)
    (hQ : ∀ {x y z}, x ∈ xs → R x y → R' x z → Q y z) : List.Forall₂ Q ys zs := by
  induction h generalizing zs with
  | nil =>
    cases h'
    exact .nil
  | @cons x y xs ys hfirst hrest ih =>
    obtain ⟨z, zs, hfirst', hrest', rfl⟩ := List.forall₂_cons_left_iff.mp h'
    exact .cons (hQ List.mem_cons_self hfirst hfirst')
      (ih hrest' fun hx => hQ (List.mem_cons_of_mem x hx))

/-- What is known of any two members of a list is known of what was made from them. -/
theorem pairwise_of_forall₂ {P : α → α → Prop} {Q : β → β → Prop} (h : List.Forall₂ R xs ys)
    (hxs : xs.Pairwise P)
    (hPQ : ∀ {x x' y y'}, x ∈ xs → x' ∈ xs → R x y → R x' y' → P x x' → Q y y') :
    ys.Pairwise Q := by
  induction h with
  | nil => exact .nil
  | @cons x y xs ys hfirst hrest ih =>
    obtain ⟨hx, hxs⟩ := List.pairwise_cons.mp hxs
    refine .cons (fun y' hy' => ?_) (ih hxs fun hmem hmem' =>
      hPQ (List.mem_cons_of_mem x hmem) (List.mem_cons_of_mem x hmem'))
    obtain ⟨x', hx', hR⟩ := exists_mem_of_forall₂ hrest hy'
    exact hPQ List.mem_cons_self (List.mem_cons_of_mem x hx') hfirst hR (hx x' hx')

end Relation

/-! ### Filters -/

section Filter

variable {α : Type} {code : α → String} {c : String} {xs : List α}

theorem filter_ne_eq_self (h : ∀ x ∈ xs, code x ≠ c) : xs.filter (code · != c) = xs :=
  List.filter_eq_self.mpr fun x hx => bne_iff_ne.mpr (h x hx)

theorem filter_eq_eq_nil (h : ∀ x ∈ xs, code x ≠ c) : xs.filter (code · == c) = [] :=
  List.filter_eq_nil_iff.mpr fun x hx heq => h x hx (beq_iff_eq.mp heq)

/-- Before a stricter filter, a filter makes no difference. -/
theorem filter_filter_of_imp {p q : α → Bool} (h : ∀ a, p a = true → q a = true) (l : List α) :
    (l.filter q).filter p = l.filter p := by
  rw [List.filter_filter]
  refine List.filter_congr fun a _ => ?_
  cases hp : p a with
  | false => rfl
  | true => rw [h a hp, Bool.and_self]

/-- Lists that have the same members of each sort, in the same order, are permutations of each
other. -/
theorem perm_of_filter_eq (sort : α → String) {ys : List α}
    (h : ∀ s, xs.filter (sort · == s) = ys.filter (sort · == s)) : xs.Perm ys := by
  induction xs generalizing ys with
  | nil =>
    -- a member of `ys` would be one of its own sort
    cases ys with
    | nil => exact .nil
    | cons y ys =>
      have hy := h (sort y)
      simp at hy
  | cons x xs ih =>
    have hx := h (sort x)
    rw [List.filter_cons_of_pos (by simp), eq_comm, List.filter_eq_cons_iff] at hx
    obtain ⟨front, back, rfl, hfront, -, hback⟩ := hx
    refine (List.Perm.cons x (ih fun s => ?_)).trans List.perm_middle.symm
    have hs := h s
    by_cases heq : sort x = s
    · -- of this sort `front` has no members
      have hnil : front.filter (sort · == s) = [] := by
        rw [← heq]
        exact List.filter_eq_nil_iff.mpr hfront
      rw [List.filter_append, hnil, ← heq, ← hback]
      rfl
    · have hneg : ∀ zs, (x :: zs).filter (sort · == s) = zs.filter (sort · == s) := fun zs =>
        List.filter_cons_of_neg (by simpa using heq)
      rwa [hneg, List.filter_append, hneg, ← List.filter_append] at hs

end Filter

/-! ### Sorting and telling apart -/

section Sorting

variable {α : Type} {le : α → α → Bool}

/-- Sorting puts the first member behind those that are smaller and before all others. -/
theorem mergeSort_cons_eq_filter (trans : ∀ a b c, le a b → le b c → le a c)
    (total : ∀ a b, le a b || le b a) (a : α) (l : List α) :
    (a :: l).mergeSort le =
      (l.mergeSort le).filter (fun b => !le a b) ++ a :: (l.mergeSort le).filter (le a) := by
  obtain ⟨l₁, l₂, hcons, hl, hbefore⟩ := List.mergeSort_cons trans total a l
  have hsorted := List.pairwise_mergeSort trans total (a :: l)
  rw [hcons, List.pairwise_append, List.pairwise_cons] at hsorted
  have hbehind : ∀ b ∈ l₂, le a b = true := hsorted.2.1.1
  have hsmaller : (l.mergeSort le).filter (fun b => !le a b) = l₁ := by
    rw [hl, List.filter_append, List.filter_eq_self.mpr hbefore,
      List.filter_eq_nil_iff.mpr fun b hb => by simp [hbehind b hb], List.append_nil]
  have hother : (l.mergeSort le).filter (le a) = l₂ := by
    rw [hl, List.filter_append, List.filter_eq_self.mpr hbehind,
      List.filter_eq_nil_iff.mpr fun b hb => by simpa using hbefore b hb, List.nil_append]
  rw [hcons, hsmaller, hother]

/-- **Sorting and filtering can be exchanged.** -/
theorem filter_mergeSort (trans : ∀ a b c, le a b → le b c → le a c)
    (total : ∀ a b, le a b || le b a) (p : α → Bool) (l : List α) :
    (l.mergeSort le).filter p = (l.filter p).mergeSort le := by
  induction l with
  | nil => simp
  | cons a l ih =>
    cases hp : p a with
    | true =>
      have hswap : ∀ q : α → Bool,
          ((l.mergeSort le).filter q).filter p = ((l.filter p).mergeSort le).filter q := by
        intro q
        rw [← ih, List.filter_filter, List.filter_filter]
        congr 1
        funext b
        exact Bool.and_comm _ _
      rw [List.filter_cons_of_pos hp, mergeSort_cons_eq_filter trans total,
        mergeSort_cons_eq_filter trans total, List.filter_append, List.filter_cons_of_pos hp,
        hswap, hswap]
    | false =>
      -- without the new member there is only the sorted rest, wherever the member went
      have hneg : ¬ p a = true := by simp [hp]
      obtain ⟨l₁, l₂, hcons, hl, -⟩ := List.mergeSort_cons trans total a l
      rw [List.filter_cons_of_neg hneg, ← ih, hcons, hl, List.filter_append,
        List.filter_cons_of_neg hneg, List.filter_append]

/-- Names that were told apart are different. -/
theorem nodup_eraseDups : ∀ names : List String, names.eraseDups.Nodup
  | [] => List.nodup_nil
  | name :: rest => by
    rw [List.eraseDups_cons, List.nodup_cons]
    exact ⟨by simp [List.mem_eraseDups], nodup_eraseDups _⟩
termination_by names => names.length
decreasing_by exact Nat.lt_succ_of_le (List.length_filter_le _ _)

end Sorting

/-! ### Lists of entries -/

section Entries

variable {α β : Type}

end Entries

end MarkupLint
