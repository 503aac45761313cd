import MarkupLint.Proofs.Lists
import MarkupLint.Rule.Basic

/-!
# Sets of rules and their order

A set of rules is handed over as a list, and it is checked from the front, against the names and the
codes that were met before. What the check accepts can be said without any order: the categories
exist, the names differ, and the codes start like codes and differ too. So it does not matter in
which order the rules are given.

For the order in which they run it does matter, but only inside a category. `RuleSet.order` collects
the rules of one category after the other. That is a stable sort, and it can be told from any other
list of the same rules by two things: the categories come in the order in which they are reported,
and of each category the rules come as they were given.

## Main results

* `RuleSet.validate_eq_ok_iff` — which sets of rules are accepted
* `RuleSet.exists_order` — an accepted set is put in order, and stably so
* `RuleSet.order_congr` — only the order inside the categories matters
-/

namespace MarkupLint

/-! ### Categories -/

namespace Category

theorem mem_all (category : Category) : category ∈ all := by
  cases category <;> decide

theorem name_injective : Function.Injective name := by
  have hnodup : (all.map name).Nodup := by decide
  intro c d h
  exact List.inj_on_of_nodup_map hnodup (mem_all c) (mem_all d) h

theorem ofName?_isSome_iff {s : String} :
    (ofName? s).isSome = true ↔ ∃ c : Category, c.name = s := by
  rw [ofName?, List.find?_isSome]
  constructor
  · rintro ⟨c, -, hc⟩
    exact ⟨c, beq_iff_eq.mp hc⟩
  · rintro ⟨c, hc⟩
    exact ⟨c, mem_all c, beq_iff_eq.mpr hc⟩

/-- The place in the reporting order of the category with the given name. -/
def rank (s : String) : ℕ := all.findIdx (·.name == s)

theorem pairwise_rank : all.Pairwise (rank ·.name ≤ rank ·.name) := by
  decide

end Category

/-- The place of the rule's category in the reporting order. -/
def Rule.rank (rule : Rule) : ℕ := Category.rank rule.category

namespace RuleSet

/-! ### Which sets are accepted -/

/-- The rules can be combined. -/
structure WellFormed (rules : List Rule) : Prop where
  /-- The categories exist. -/
  category_known : ∀ rule ∈ rules, (Category.ofName? rule.category).isSome = true
  /-- No two rules share a name. -/
  names_nodup : (rules.map Rule.name).Nodup
  /-- The codes start like codes. -/
  codes_known : ∀ rule ∈ rules, ∀ code ∈ rule.codes, isCode code = true
  /-- No code is declared twice, be it by one rule or by two. -/
  codes_nodup : (rules.flatMap Rule.codes).Nodup

theorem WellFormed.perm {rules other : List Rule} (h : WellFormed rules)
    (hperm : rules.Perm other) : WellFormed other where
  category_known rule hrule := h.category_known rule (hperm.mem_iff.mpr hrule)
  names_nodup := (hperm.map _).nodup_iff.mp h.names_nodup
  codes_known rule hrule := h.codes_known rule (hperm.mem_iff.mpr hrule)
  codes_nodup := (hperm.flatMap_right _).nodup_iff.mp h.codes_nodup

theorem addCodes_eq_ok_iff {rule : String} {declared codes later : List String} :
    addCodes rule declared codes = .ok later ↔
      (∀ code ∈ codes, isCode code = true) ∧ codes.Nodup ∧ (∀ code ∈ codes, code ∉ declared) ∧
        later = codes.reverse ++ declared := by
  induction codes generalizing declared with
  | nil =>
    simp only [addCodes, Except.ok.injEq, eq_comm]
    simp
  | cons code codes ih =>
    by_cases hcode : isCode code = true
    · by_cases hmem : code ∈ declared
      · simp [addCodes, hcode, hmem]
      · have hstep : addCodes rule declared (code :: codes) =
            addCodes rule (code :: declared) codes := by
          simp [addCodes, hcode, hmem]
        rw [hstep, ih, List.forall_mem_cons, List.forall_mem_cons, List.nodup_cons,
          List.reverse_cons, List.append_assoc, List.singleton_append]
        constructor
        · rintro ⟨hcodes, hnodup, hnew, rfl⟩
          exact ⟨⟨hcode, hcodes⟩, ⟨fun h => hnew code h List.mem_cons_self, hnodup⟩,
            ⟨hmem, fun c hc h => hnew c hc (List.mem_cons_of_mem code h)⟩, rfl⟩
        · rintro ⟨⟨-, hcodes⟩, ⟨hnotMem, hnodup⟩, ⟨-, hnew⟩, rfl⟩
          refine ⟨hcodes, hnodup, fun c hc h => ?_, rfl⟩
          rcases List.mem_cons.mp h with rfl | h
          · exact hnotMem hc
          · exact hnew c hc h
    · simp [addCodes, hcode]

/-- The rules can be combined with those that have the given names and codes. -/
structure Extends (rules : List Rule) (names declared : List String) : Prop where
  wellFormed : WellFormed rules
  names_new : ∀ rule ∈ rules, rule.name ∉ names
  codes_new : ∀ rule ∈ rules, ∀ code ∈ rule.codes, code ∉ declared

theorem extends_cons_iff {names declared : List String} {rule : Rule} {rest : List Rule} :
    Extends (rule :: rest) names declared ↔
      (Category.ofName? rule.category).isSome = true ∧ rule.name ∉ names ∧
        ((∀ code ∈ rule.codes, isCode code = true) ∧ rule.codes.Nodup ∧
          ∀ code ∈ rule.codes, code ∉ declared) ∧
        Extends rest (rule.name :: names) (rule.codes.reverse ++ declared) := by
  constructor
  · rintro ⟨⟨hknown, hnames, hcodes, hnodup⟩, hnew, hnewCodes⟩
    rw [List.forall_mem_cons] at hknown hcodes hnew hnewCodes
    rw [List.map_cons, List.nodup_cons] at hnames
    rw [List.flatMap_cons, List.nodup_append] at hnodup
    refine ⟨hknown.1, hnew.1, ⟨hcodes.1, hnodup.1, hnewCodes.1⟩,
      ⟨hknown.2, hnames.2, hcodes.2, hnodup.2.1⟩, fun rule' hrule' h => ?_,
      fun rule' hrule' code hcode h => ?_⟩
    · rcases List.mem_cons.mp h with heq | h
      · exact hnames.1 (heq ▸ List.mem_map_of_mem hrule')
      · exact hnew.2 rule' hrule' h
    · rcases List.mem_append.mp h with h | h
      · have hlater := List.mem_flatMap_of_mem hrule' hcode
        exact hnodup.2.2 code (List.mem_reverse.mp h) code hlater rfl
      · exact hnewCodes.2 rule' hrule' code hcode h
  · rintro ⟨hknown, hname, ⟨hcodes, hnodup, hnewCodes⟩, hrest⟩
    have hnames : rule.name ∉ rest.map Rule.name := by
      intro h
      obtain ⟨rule', hrule', heq⟩ := List.mem_map.mp h
      exact hrest.names_new rule' hrule' (heq ▸ List.mem_cons_self)
    have hdisjoint : ∀ code ∈ rule.codes, ∀ code' ∈ rest.flatMap Rule.codes, code ≠ code' := by
      rintro code hcode _ hcode' rfl
      obtain ⟨rule', hrule', hmem⟩ := List.mem_flatMap.mp hcode'
      exact hrest.codes_new rule' hrule' code hmem
        (List.mem_append_left _ (List.mem_reverse.mpr hcode))
    obtain ⟨⟨hknown', hnames', hcodes', hnodup'⟩, hnew, hnew'⟩ := hrest
    refine ⟨⟨List.forall_mem_cons.mpr ⟨hknown, hknown'⟩, List.nodup_cons.mpr ⟨hnames, hnames'⟩,
      List.forall_mem_cons.mpr ⟨hcodes, hcodes'⟩, ?_⟩,
      List.forall_mem_cons.mpr ⟨hname, fun rule' hrule' h => ?_⟩,
      List.forall_mem_cons.mpr ⟨hnewCodes, fun rule' hrule' code hcode h => ?_⟩⟩
    · exact List.nodup_append.mpr ⟨hnodup, hnodup', hdisjoint⟩
    · exact hnew rule' hrule' (List.mem_cons_of_mem _ h)
    · exact hnew' rule' hrule' code hcode (List.mem_append_right _ h)

theorem validateFrom_eq_ok_iff {names declared : List String} {rules : List Rule} :
    validateFrom names declared rules = .ok () ↔ Extends rules names declared := by
  induction rules generalizing names declared with
  | nil => exact ⟨fun _ => ⟨⟨by simp, by simp, by simp, by simp⟩, by simp, by simp⟩, fun _ => rfl⟩
  | cons rule rest ih =>
    rw [extends_cons_iff]
    by_cases hknown : (Category.ofName? rule.category).isSome = true
    · by_cases hname : rule.name ∈ names
      · simp [validateFrom, Option.isSome_iff_ne_none.mp hknown, hname]
      · have hstep : validateFrom names declared (rule :: rest) =
            addCodes rule.name declared rule.codes >>= fun declared =>
              validateFrom (rule.name :: names) declared rest := by
          simp [validateFrom, Option.isSome_iff_ne_none.mp hknown, hname]
        rw [hstep, bind_eq_ok_iff]
        simp only [addCodes_eq_ok_iff, ih]
        constructor
        · rintro ⟨later, ⟨hcodes, hnodup, hnew, rfl⟩, hrest⟩
          exact ⟨hknown, hname, ⟨hcodes, hnodup, hnew⟩, hrest⟩
        · rintro ⟨-, -, ⟨hcodes, hnodup, hnew⟩, hrest⟩
          exact ⟨_, ⟨hcodes, hnodup, hnew, rfl⟩, hrest⟩
    · simp [validateFrom, Option.not_isSome_iff_eq_none.mp hknown]

theorem validate_eq_ok_iff {rules : List Rule} :
    validate rules = .ok () ↔ WellFormed rules := by
  rw [validate, validateFrom_eq_ok_iff]
  exact ⟨Extends.wellFormed, fun h => ⟨h, by simp, by simp⟩⟩

/-! ### The order of the rules -/

/-- The rules are in the order of their categories, and inside a category in the order in which they
were given. -/
structure StablyOrders (ordered rules : List Rule) : Prop where
  /-- They are the rules that were given. -/
  perm : ordered.Perm rules
  /-- The categories come in reporting order. -/
  ranks : ordered.Pairwise (·.rank ≤ ·.rank)
  /-- Those of one category come as they were given. -/
  stable : ∀ category, ordered.filter (·.category == category) =
    rules.filter (·.category == category)

/-- The rules of a category. -/
def bucket (rules : List Rule) (category : Category) : List Rule :=
  rules.filter (·.category == category.name)

theorem mem_bucket_iff {rules : List Rule} {category : Category} {rule : Rule} :
    rule ∈ bucket rules category ↔ rule ∈ rules ∧ rule.category = category.name := by
  rw [bucket, List.mem_filter, beq_iff_eq]

theorem filter_bucket (rules : List Rule) (c d : Category) :
    (bucket rules d).filter (·.category == c.name) = if c = d then bucket rules c else [] := by
  split
  · next h =>
    rw [h]
    exact List.filter_eq_self.mpr fun rule hrule => beq_iff_eq.mpr (mem_bucket_iff.mp hrule).2
  · next h =>
    refine List.filter_eq_nil_iff.mpr fun rule hrule heq => h (Category.name_injective ?_)
    rw [← beq_iff_eq.mp heq, (mem_bucket_iff.mp hrule).2]

theorem filter_buckets (rules : List Rule) (c : Category) :
    (Category.all.flatMap (bucket rules)).filter (·.category == c.name) = bucket rules c := by
  simp only [List.filter_flatMap, filter_bucket]
  cases c <;> simp [Category.all]

theorem stablyOrders_buckets {rules : List Rule}
    (h : ∀ rule ∈ rules, (Category.ofName? rule.category).isSome = true) :
    StablyOrders (Category.all.flatMap (bucket rules)) rules := by
  have hstable : ∀ s, (Category.all.flatMap (bucket rules)).filter (·.category == s) =
      rules.filter (·.category == s) := by
    intro s
    by_cases hs : ∃ c : Category, c.name = s
    · obtain ⟨c, rfl⟩ := hs
      exact filter_buckets rules c
    · -- no rule is in a category that does not exist
      have hnone : ∀ rule ∈ rules, ¬ (rule.category == s) = true := fun rule hrule heq =>
        hs (beq_iff_eq.mp heq ▸ Category.ofName?_isSome_iff.mp (h rule hrule))
      rw [List.filter_eq_nil_iff.mpr hnone, List.filter_eq_nil_iff]
      intro rule hrule
      obtain ⟨c, -, hc⟩ := List.mem_flatMap.mp hrule
      exact hnone rule (mem_bucket_iff.mp hc).1
  refine ⟨perm_of_filter_eq Rule.category hstable, List.pairwise_flatMap.mpr ⟨?_, ?_⟩, hstable⟩
  · intro c _
    refine List.pairwise_of_forall_mem_list fun rule hrule rule' hrule' => Nat.le_of_eq ?_
    rw [Rule.rank, Rule.rank, (mem_bucket_iff.mp hrule).2, (mem_bucket_iff.mp hrule').2]
  · refine Category.pairwise_rank.imp fun {c d} hle rule hrule rule' hrule' => ?_
    rw [Rule.rank, Rule.rank, (mem_bucket_iff.mp hrule).2, (mem_bucket_iff.mp hrule').2]
    exact hle

/-- **An accepted set of rules is put in order**, and stably so. -/
theorem exists_order {rules : List Rule} (h : validate rules = .ok ()) :
    ∃ ordered, order rules = .ok ordered ∧ StablyOrders ordered rules := by
  have hknown := (validate_eq_ok_iff.mp h).category_known
  refine ⟨_, ?_, stablyOrders_buckets hknown⟩
  rw [order, if_pos (List.all_eq_true.mpr hknown)]
  rfl

/-- **Only the order inside the categories matters.** -/
theorem order_congr {rules other : List Rule}
    (h : ∀ category, rules.filter (·.category == category) =
      other.filter (·.category == category)) : order rules = order other := by
  have hall := (perm_of_filter_eq Rule.category h).all_eq
    (f := fun rule => (Category.ofName? rule.category).isSome)
  simp only [order, h, hall]

end RuleSet

end MarkupLint
