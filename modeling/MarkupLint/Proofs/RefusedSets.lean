import Mathlib.Data.List.Flatten
import MarkupLint.Fault.Message
import MarkupLint.Proofs.RuleSets

/-!
# Refused sets of rules

A set of rules is refused with one fault, although there may be many things wrong with it. This file
says which one it is. The check goes through the rules from the front, and each is compared with the
names and the codes of those before it. So the rules before the one it ends at go together, the rule
itself does not go together with them, and all that comes later was never looked at. In other words,
the fault is about the first rule with which the list is no longer accepted, and it says so: an
`Objection` carries the name of the rule, and its wording starts with it.

Which rule is blamed depends on the order in which the rules are given. Whether one is blamed does
not, since what is accepted can be said without any order.

## Main results

* `RuleSet.Objection.not_wellFormed` — objections are justified
* `RuleSet.validateFrom_cons_eq_error` — one step of the check
* `RuleSet.exists_objection_of_validateFrom` — where the check ends
* `RuleSet.validate_judges` — which sets are accepted, and what becomes of them
-/

namespace MarkupLint

namespace RuleSet

/-! ### Smaller sets -/

/-- Rules that can be combined can be combined without some of them. -/
theorem WellFormed.sublist {rules fewer : List Rule} (h : WellFormed rules)
    (hsub : fewer.Sublist rules) : WellFormed fewer where
  category_known rule hrule := h.category_known rule (hsub.subset hrule)
  names_nodup := h.names_nodup.sublist (hsub.map Rule.name)
  codes_known rule hrule := h.codes_known rule (hsub.subset hrule)
  codes_nodup := h.codes_nodup.sublist (hsub.flatMap Rule.codes)

/-! ### Objections -/

/-- The fault is a true reason why the rule cannot be combined with rules that have the given names
and codes. -/
inductive Objection (names declared : List String) (rule : Rule) : Fault → Prop where
  /-- The category does not exist. -/
  | category (h : Category.ofName? rule.category = none) :
    Objection names declared rule (.unknownCategory rule.name rule.category)
  /-- The name is taken. -/
  | name (h : rule.name ∈ names) : Objection names declared rule (.repeatedRule rule.name)
  /-- A code does not start like one. -/
  | malformed {code : String} (hcode : code ∈ rule.codes) (h : isCode code = false) :
    Objection names declared rule (.malformedCode rule.name code)
  /-- A code is declared already, by another rule or by this one. -/
  | repeated {front back : List String} {code : String}
    (hcodes : rule.codes = front ++ code :: back) (h : code ∈ declared ∨ code ∈ front) :
    Objection names declared rule (.repeatedCode rule.name code)

namespace Objection

variable {names declared : List String} {rule : Rule} {fault : Fault}

theorem mono {names' declared' : List String} (h : Objection names declared rule fault)
    (hnames : names ⊆ names') (hdeclared : declared ⊆ declared') :
    Objection names' declared' rule fault := by
  cases h with
  | category h => exact .category h
  | name h => exact .name (hnames h)
  | malformed hcode h => exact .malformed hcode h
  | repeated hcodes h => exact .repeated hcodes (h.imp_left fun h => hdeclared h)

/-- The wording of an objection starts with the name of the rule. -/
theorem message_isPrefix (h : Objection names declared rule fault) :
    ("Lint rule `" ++ rule.name ++ "` ").toList <+: fault.message.toList := by
  unfold Fault.message
  cases h <;> simp

/-- A rule that there is an objection to cannot be combined with the others. -/
theorem not_wellFormed {before : List Rule}
    (h : Objection (before.map Rule.name) (before.flatMap Rule.codes) rule fault) :
    ¬ WellFormed (before ++ [rule]) := by
  intro hwell
  have hrule : rule ∈ before ++ [rule] := List.mem_append_right _ (List.mem_singleton_self rule)
  cases h with
  | category h =>
    have hknown := hwell.category_known rule hrule
    rw [h] at hknown
    cases hknown
  | name h =>
    have hnodup := hwell.names_nodup
    rw [List.map_append, List.nodup_append] at hnodup
    exact hnodup.2.2 rule.name h rule.name (List.mem_singleton_self _) rfl
  | malformed hcode h =>
    have hknown := hwell.codes_known rule hrule _ hcode
    rw [h] at hknown
    cases hknown
  | @repeated front back code hcodes h =>
    have hnodup := hwell.codes_nodup
    rw [List.flatMap_append, List.flatMap_singleton, hcodes, ← List.append_assoc,
      List.nodup_append] at hnodup
    exact hnodup.2.2 code (List.mem_append.mpr h) code List.mem_cons_self rfl

end Objection

theorem exists_of_addCodes_eq_error {rule : String} {declared codes : List String} {fault : Fault}
    (h : addCodes rule declared codes = .error fault) :
    ∃ front code back, codes = front ++ code :: back ∧
      (isCode code = false ∧ fault = .malformedCode rule code ∨
        (code ∈ declared ∨ code ∈ front) ∧ fault = .repeatedCode rule code) := by
  induction codes generalizing declared with
  | nil => cases h
  | cons code codes ih =>
    unfold addCodes at h
    split at h
    · next hcode =>
      exact ⟨[], code, codes, rfl, .inl ⟨by simpa using hcode, (Except.error.inj h).symm⟩⟩
    · split at h
      · next hmem =>
        exact ⟨[], code, codes, rfl, .inr ⟨.inl (by simpa using hmem), (Except.error.inj h).symm⟩⟩
      · obtain ⟨front, later, back, rfl, hreason⟩ := ih h
        refine ⟨code :: front, later, back, rfl, hreason.imp_right (And.imp_left fun hmem => ?_)⟩
        rwa [List.mem_cons, or_left_comm, ← or_assoc, ← List.mem_cons]

/-- **One step of the check**: there is an objection to the rule, or it goes together with the rules
before it and there is a fault in the rest. -/
theorem validateFrom_cons_eq_error {names declared : List String} {rule : Rule} {rest : List Rule}
    {fault : Fault} (h : validateFrom names declared (rule :: rest) = .error fault) :
    Objection names declared rule fault ∨ Extends [rule] names declared ∧
      validateFrom (rule.name :: names) (rule.codes.reverse ++ declared) rest = .error fault := by
  unfold validateFrom at h
  split at h
  · next hcategory =>
    cases h
    exact .inl (.category (Option.isNone_iff_eq_none.mp hcategory))
  · next hcategory =>
    split at h
    · next hname =>
      cases h
      exact .inl (.name (List.contains_iff_mem.mp hname))
    · next hname =>
      cases hcodes : addCodes rule.name declared rule.codes with
      | error reason =>
        rw [hcodes] at h
        cases h
        obtain ⟨front, code, back, heq, ⟨hcode, rfl⟩ | ⟨hmem, rfl⟩⟩ :=
          exists_of_addCodes_eq_error hcodes
        · exact .inl (.malformed (heq ▸ by simp) hcode)
        · exact .inl (.repeated heq hmem)
      | ok later =>
        rw [hcodes] at h
        obtain ⟨hknown, hnodup, hnew, rfl⟩ := addCodes_eq_ok_iff.mp hcodes
        refine .inr ⟨extends_cons_iff.mpr ⟨?_, ?_, ⟨hknown, hnodup, hnew⟩, ?_⟩, h⟩
        · simpa [Option.isSome_iff_ne_none] using hcategory
        · simpa using hname
        · exact validateFrom_eq_ok_iff.mp rfl

/-- **The check ends at a rule that there is an objection to**, and that follows rules which go
together. -/
theorem exists_objection_of_validateFrom {names declared : List String} {rules : List Rule}
    {fault : Fault} (h : validateFrom names declared rules = .error fault) :
    ∃ before rule after, rules = before ++ rule :: after ∧ Extends before names declared ∧
      Objection (before.map Rule.name ++ names) (before.flatMap Rule.codes ++ declared) rule
        fault := by
  induction rules generalizing names declared with
  | nil => cases h
  | cons first rest ih =>
    rcases validateFrom_cons_eq_error h with hobjection | ⟨hfirst, h⟩
    · exact ⟨[], first, rest, rfl, validateFrom_eq_ok_iff.mp rfl, hobjection⟩
    · obtain ⟨before, rule, after, rfl, hbefore, hobjection⟩ := ih h
      obtain ⟨hknown, hname, hcodes, -⟩ := extends_cons_iff.mp hfirst
      refine ⟨first :: before, rule, after, rfl,
        extends_cons_iff.mpr ⟨hknown, hname, hcodes, hbefore⟩, hobjection.mono ?_ ?_⟩
      · intro name hmem
        simp only [List.map_cons, List.cons_append, List.mem_cons, List.mem_append] at hmem ⊢
        exact or_left_comm.mp hmem
      · intro code hmem
        simp only [List.flatMap_cons, List.mem_append, List.mem_reverse] at hmem ⊢
        rwa [or_assoc, or_left_comm]

/-! ### The judgement on a set -/

theorem category_iff {s : String} :
    (Category.ofName? s).isSome = true ↔ s ∈ Category.all.map Category.name := by
  rw [Category.ofName?_isSome_iff, List.mem_map]
  simp only [Category.mem_all, true_and]

theorem isCode_iff {code : String} : isCode code = true ↔
    ∃ start ∈ Category.all.map Category.codeStart, start.toList <+: code.toList := by
  simp [isCode]

/-- What the check of a set of rules and its order say. -/
structure Judged (rules : List Rule) : Prop where
  /-- The rules are accepted if their categories exist, their names differ, their codes start like
  codes, and no code is declared twice. -/
  accepted_iff : validate rules = .ok () ↔
    (∀ rule ∈ rules, rule.category ∈ Category.all.map Category.name) ∧
    (rules.map Rule.name).Nodup ∧
    (∀ rule ∈ rules, ∀ code ∈ rule.codes, ∃ start ∈ Category.all.map Category.codeStart,
      start.toList <+: code.toList) ∧
    (rules.flatMap Rule.codes).Nodup
  /-- It does not matter in which order they are given. -/
  perm_iff : ∀ other, rules.Perm other → (validate other = .ok () ↔ validate rules = .ok ())
  /-- If they are refused, the fault is an objection to the first rule with which they are no longer
  accepted, and starts with its name. -/
  refused : ∀ fault, validate rules = .error fault → ∃ before rule after,
    rules = before ++ rule :: after ∧
    (∀ n, validate (rules.take n) = .ok () ↔ n ≤ before.length) ∧
    Objection (before.map Rule.name) (before.flatMap Rule.codes) rule fault ∧
    ("Lint rule `" ++ rule.name ++ "` ").toList <+: fault.message.toList
  /-- If they are accepted, they can be put in order, and stably so. -/
  ordered : validate rules = .ok () →
    ∃ ordered, order rules = .ok ordered ∧ StablyOrders ordered rules

/-- Where there is an objection to a rule, the parts of the list that are accepted end before it. -/
theorem validate_take_eq_ok_iff {before after : List Rule} {rule : Rule} {fault : Fault}
    (hbefore : WellFormed before)
    (h : Objection (before.map Rule.name) (before.flatMap Rule.codes) rule fault) (n : ℕ) :
    validate ((before ++ rule :: after).take n) = .ok () ↔ n ≤ before.length := by
  rw [validate_eq_ok_iff]
  constructor
  · intro hwell
    by_contra hlt
    refine h.not_wellFormed (hwell.sublist ?_)
    have htake : (before ++ rule :: after).take (before.length + 1) = before ++ [rule] :=
      List.take_length_add_append 1
    rw [← htake]
    exact (List.take_prefix_take_left (by omega)).sublist
  · intro hle
    rw [List.take_append_of_le_length hle]
    exact hbefore.sublist (List.take_sublist n before)

/-- **A set of rules is judged by its rules alone**, one by one. -/
theorem validate_judges (rules : List Rule) : Judged rules where
  accepted_iff := by
    rw [validate_eq_ok_iff]
    constructor
    · intro h
      exact ⟨fun rule hrule => category_iff.mp (h.category_known rule hrule), h.names_nodup,
        fun rule hrule code hcode => isCode_iff.mp (h.codes_known rule hrule code hcode),
        h.codes_nodup⟩
    · rintro ⟨hcategories, hnames, hcodes, hnodup⟩
      exact ⟨fun rule hrule => category_iff.mpr (hcategories rule hrule), hnames,
        fun rule hrule code hcode => isCode_iff.mpr (hcodes rule hrule code hcode), hnodup⟩
  perm_iff other hperm := by
    rw [validate_eq_ok_iff, validate_eq_ok_iff]
    exact ⟨fun h => h.perm hperm.symm, fun h => h.perm hperm⟩
  refused fault h := by
    obtain ⟨before, rule, after, rfl, hbefore, hobjection⟩ := exists_objection_of_validateFrom h
    rw [List.append_nil, List.append_nil] at hobjection
    exact ⟨before, rule, after, rfl, validate_take_eq_ok_iff hbefore.wellFormed hobjection,
      hobjection, hobjection.message_isPrefix⟩
  ordered := exists_order

end RuleSet

end MarkupLint
