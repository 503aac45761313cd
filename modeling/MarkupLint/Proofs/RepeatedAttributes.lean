import MarkupLint.Proofs.ListedElements
import MarkupLint.Proofs.OptionEffects
import MarkupLint.Proofs.ReportOrder
import MarkupLint.Proofs.ValuedAttributes

/-!
# Repeated attributes

Where a name is given several times on one tag, the first attribute of that name counts and the
others are reported. Two parts of the library have to agree on which attribute is the first, and
neither asks the other. The check walks over the attributes with the names it has met, among other
checks that have nothing to do with it. An element keeps all attributes of its tag, and looks for a
name from the front when it is asked.

What they have in common is the order in which the attributes are written. `RepeatsIn` says it
without any walk: an attribute repeats another if one that starts before it has its name. Then the
names met by the walk are those of the attributes before, and the attribute that is found under a
name is the only one of that name that repeats none. Since attributes of a tag start in different
places, a report at the range of an attribute is about this attribute and no other.

## Main results

* `Attribute.not_repeatsIn_iff` — the attribute that is found under its name
* `Attribute.filter_duplicate_findingsFrom` — the check finds the repeated attributes
* `Attribute.length_repeats_add` — how many there are
* `Scan.repeated_attributes_reported` — what is reported and what is kept, for every tag of a text
-/

namespace MarkupLint

/-! ### Repeated names -/

namespace Attribute

/-- An attribute that starts before this one has its name. -/
def RepeatsIn (attrs : List Attribute) (attr : Attribute) : Prop :=
  ∃ earlier ∈ attrs, earlier.offset < attr.offset ∧ earlier.name = attr.name

instance (attrs : List Attribute) (attr : Attribute) : Decidable (attr.RepeatsIn attrs) :=
  inferInstanceAs (Decidable (∃ earlier ∈ attrs, _))

section InOrder

variable {attr : Attribute} {attrs : List Attribute}

/-- The first of some attributes that stand in order repeats none of them. -/
theorem not_repeatsIn_first (h : (attr :: attrs).Pairwise (·.offset < ·.offset)) :
    ¬ attr.RepeatsIn (attr :: attrs) := by
  rintro ⟨earlier, hmem, hlt, -⟩
  rcases List.mem_cons.mp hmem with rfl | hmem
  · exact lt_irrefl _ hlt
  · exact lt_asymm hlt ((List.pairwise_cons.mp h).1 earlier hmem)

/-- A later one repeats the first, or one of the others. -/
theorem repeatsIn_cons_iff (h : (attr :: attrs).Pairwise (·.offset < ·.offset)) {later : Attribute}
    (hlater : later ∈ attrs) :
    later.RepeatsIn (attr :: attrs) ↔ later.name = attr.name ∨ later.RepeatsIn attrs := by
  have hlt := (List.pairwise_cons.mp h).1 later hlater
  constructor
  · rintro ⟨earlier, hmem, hbefore, hname⟩
    rcases List.mem_cons.mp hmem with rfl | hmem
    · exact .inl hname.symm
    · exact .inr ⟨earlier, hmem, hbefore, hname⟩
  · rintro (hname | ⟨earlier, hmem, hbefore, hname⟩)
    · exact ⟨attr, List.mem_cons_self, hlt, hname.symm⟩
    · exact ⟨earlier, List.mem_cons_of_mem attr hmem, hbefore, hname⟩

/-- **An attribute that repeats none is the one that is found under its name.** -/
theorem not_repeatsIn_iff (h : attrs.Pairwise (·.offset < ·.offset)) (hattr : attr ∈ attrs) :
    ¬ attr.RepeatsIn attrs ↔ attrs.find? (·.name == attr.name) = some attr := by
  induction attrs with
  | nil => cases hattr
  | cons first rest ih =>
    rcases List.mem_cons.mp hattr with rfl | hrest
    · rw [List.find?_cons_of_pos (by simp)]
      exact iff_of_true (not_repeatsIn_first h) rfl
    · have hlt := (List.pairwise_cons.mp h).1 attr hrest
      rw [repeatsIn_cons_iff h hrest, not_or, ih h.of_cons hrest]
      by_cases hname : attr.name = first.name
      · -- the first one is found in place of it
        rw [List.find?_cons_of_pos (by simpa using hname.symm)]
        refine iff_of_false (fun hnone => hnone.1 hname) fun hfound => ?_
        rw [Option.some.inj hfound] at hlt
        exact lt_irrefl _ hlt
      · rw [List.find?_cons_of_neg (by simpa using Ne.symm hname)]
        exact and_iff_right hname

/-- Attributes that repeat none have different names, and these are all names that there are. -/
theorem names_of_not_repeatsIn (h : attrs.Pairwise (·.offset < ·.offset)) :
    ((attrs.filter (¬ ·.RepeatsIn attrs)).map name).Perm (attrs.map name).eraseDups := by
  have hfirst : ∀ attr ∈ attrs.filter (¬ ·.RepeatsIn attrs),
      attrs.find? (·.name == attr.name) = some attr := by
    intro attr hmem
    obtain ⟨hattr, hnone⟩ := List.mem_filter.mp hmem
    exact (not_repeatsIn_iff h hattr).mp (of_decide_eq_true hnone)
  have hnodup : ((attrs.filter (¬ ·.RepeatsIn attrs)).map name).Nodup := by
    refine List.Nodup.map_on (fun a ha b hb heq => ?_) ((h.imp fun hlt heq => ?_).filter _)
    · have hsame := hfirst a ha
      rw [heq, hfirst b hb] at hsame
      exact (Option.some.inj hsame).symm
    · exact absurd hlt (heq ▸ lt_irrefl _)
  refine (List.perm_ext_iff_of_nodup hnodup (nodup_eraseDups _)).mpr fun s => ?_
  rw [List.mem_eraseDups]
  refine ⟨fun hs => (List.filter_sublist.map name).subset hs, fun hs => ?_⟩
  -- of the attributes of a name, the one that is found repeats none
  obtain ⟨attr, hattr, rfl⟩ := List.mem_map.mp hs
  obtain ⟨kept, hkept⟩ : ∃ kept, attrs.find? (·.name == attr.name) = some kept :=
    Option.isSome_iff_exists.mp (List.find?_isSome.mpr ⟨attr, hattr, by simp⟩)
  have hname : kept.name = attr.name := by simpa using List.find?_some hkept
  have hmem := List.mem_of_find?_eq_some hkept
  refine List.mem_map.mpr ⟨kept, List.mem_filter.mpr ⟨hmem, decide_eq_true ?_⟩, hname⟩
  rw [not_repeatsIn_iff h hmem, hname]
  exact hkept

/-- **All attributes but one for each name repeat another.** -/
theorem length_repeats_add (h : attrs.Pairwise (·.offset < ·.offset)) :
    (attrs.filter (·.RepeatsIn attrs)).length + (attrs.map name).eraseDups.length =
      attrs.length := by
  rw [← (names_of_not_repeatsIn h).length_eq, List.length_map,
    List.length_eq_length_filter_add (l := attrs) (·.RepeatsIn attrs)]
  simp only [decide_not]

end InOrder

/-! ### What the check finds -/

variable (element : String) (unquoted : Bool) (seen : List String)

theorem filter_duplicate_findings (attr : Attribute) :
    (attr.findings element unquoted seen).filter (·.code == Finding.duplicateAttribute.code) =
      if attr.name ∈ seen then [.duplicateAttribute] else [] := by
  have hcodes : ∀ finding ∈ [Finding.emptyId, .emptyHref, .emptySource, .unquotedValue],
      finding.code ≠ Finding.duplicateAttribute.code := by
    decide
  have hothers : ∀ finding ∈ (attr.emptyFinding? element).toList ++
      (if unquoted && attr.isUnquoted then [.unquotedValue] else []),
      finding.code ≠ Finding.duplicateAttribute.code := by
    intro finding h
    refine hcodes finding ?_
    unfold emptyFinding? at h
    grind
  rw [findings, List.append_assoc, List.filter_append, filter_eq_eq_nil hothers, List.append_nil]
  simp only [List.contains_iff_mem]
  split <;> simp

/-- **The check finds the repeated attributes.** -/
theorem filter_duplicate_findingsFrom {attrs : List Attribute}
    (h : attrs.Pairwise (·.offset < ·.offset)) :
    (findingsFrom element unquoted seen attrs).filter
        (·.1.code == Finding.duplicateAttribute.code) =
      (attrs.filter fun attr => attr.name ∈ seen ∨ attr.RepeatsIn attrs).map
        (.duplicateAttribute, ·) := by
  induction attrs generalizing seen with
  | nil => rfl
  | cons attr rest ih =>
    have hfirst : ((attr.findings element unquoted seen).map (·, attr)).filter
        (·.1.code == Finding.duplicateAttribute.code) =
          ((attr.findings element unquoted seen).filter
            (·.code == Finding.duplicateAttribute.code)).map (·, attr) :=
      List.filter_map
    have hrest : rest.filter (fun later => later.name ∈ attr.name :: seen ∨ later.RepeatsIn rest) =
        rest.filter fun later => later.name ∈ seen ∨ later.RepeatsIn (attr :: rest) := by
      refine List.filter_congr fun later hlater => decide_eq_decide.mpr ?_
      rw [repeatsIn_cons_iff h hlater, List.mem_cons, or_left_comm, or_assoc]
    rw [findingsFrom, List.filter_append, ih _ h.of_cons, hfirst, filter_duplicate_findings, hrest,
      List.filter_cons]
    simp only [not_repeatsIn_first h, or_false, decide_eq_true_eq]
    split <;> rfl

end Attribute

/-! ### What is reported -/

namespace Tag

theorem pairwise_offset_attributes (tag : Tag) : tag.attributes.Pairwise (·.offset < ·.offset) :=
  (Attribute.layout_readAll tag.attributeOffset tag.attributeText).in_order.imp And.left

/-- The name of an attribute as it is written. -/
def writtenName (tag : Tag) (attr : Attribute) : Text :=
  (tag.attributeText.drop (attr.offset - tag.attributeOffset)).takeWhile Attribute.isNameChar

theorem name_eq_lowerText {tag : Tag} {attr : Attribute} (h : attr ∈ tag.attributes) :
    attr.name = String.ofList (lowerText (tag.writtenName attr)) := by
  obtain ⟨before, s, after, hwritten⟩ := exists_writtenIn h
  have hname : tag.writtenName attr = s.name := by
    rw [writtenName, offset_of_writtenIn hwritten, Nat.add_sub_cancel_left, hwritten.text_eq,
      List.drop_left, Attribute.Spelling.text, List.append_assoc,
      takeWhile_run s.isNameChar hwritten.name_stops]
  rw [hname, hwritten.attr_eq]
  rfl

/-- What a diagnostic about an attribute says. -/
theorem attributeDiagnostic_eq_ok {tag : Tag} {table : LineTable} {precise : Bool}
    {finding : Finding} {attr : Attribute} {d : Diagnostic}
    (h : tag.attributeDiagnostic table precise finding attr = .ok d) :
    tag.attributeRange attr.offset attr.length = .ok d.range ∧ d.code = finding.code ∧
      finding.message.fill [("name", tag.name), ("attribute", attr.name)] = .ok d.message := by
  obtain ⟨span, hspan, h⟩ := bind_eq_ok_iff.mp h
  obtain ⟨range, hrange, h⟩ := bind_eq_ok_iff.mp h
  obtain ⟨message, hmessage, h⟩ := bind_eq_ok_iff.mp h
  obtain ⟨hint, -, heq⟩ := bind_eq_ok_iff.mp h
  cases heq
  exact ⟨hrange, rfl, hmessage⟩

/-- Attributes of a tag can be told by their ranges. -/
theorem attribute_eq_of_range_eq {tag : Tag} {attr attr' : Attribute} (h : attr ∈ tag.attributes)
    (h' : attr' ∈ tag.attributes) {range : Range}
    (hrange : tag.attributeRange attr.offset attr.length = .ok range)
    (hrange' : tag.attributeRange attr'.offset attr'.length = .ok range) : attr = attr' := by
  have hstart := (Range.ofBounds_eq_ok_iff.mp hrange).1
  have hstart' := (Range.ofBounds_eq_ok_iff.mp hrange').1
  exact attribute_eq_of_offset_eq h h' (by omega)

/-- The attribute is reported to repeat another one. -/
def ReportsRepeat (tag : Tag) (found : List Diagnostic) (attr : Attribute) : Prop :=
  ∃ d ∈ found, d.code = "ATTRIBUTE_DUPLICATE" ∧
    tag.attributeRange attr.offset attr.length = .ok d.range

/-- The diagnostic says that the attribute repeats another one, and where. -/
structure SaysRepeat (tag : Tag) (attr : Attribute) (d : Diagnostic) : Prop where
  /-- It is at the range of the attribute. -/
  range_eq : tag.attributeRange attr.offset attr.length = .ok d.range
  /-- It names attribute and element. -/
  message_eq : d.message =
    "duplicate attribute `" ++ attr.name ++ "` on `<" ++ tag.name ++ ">`"

section Check

variable {tag : Tag} {table : LineTable} {precise unquoted : Bool} {found : List Diagnostic}

theorem filter_duplicate_attributeFindings (hopening : tag.isOpening = true) :
    (tag.attributeFindings unquoted).filter (·.1.code == "ATTRIBUTE_DUPLICATE") =
      (tag.attributes.filter (·.RepeatsIn tag.attributes)).map (.duplicateAttribute, ·) := by
  have hclosing : ¬ tag.isClosing = true := by simpa [isOpening] using hopening
  have hfindings := Attribute.filter_duplicate_findingsFrom tag.name unquoted []
    tag.pairwise_offset_attributes
  simp only [List.not_mem_nil, false_or] at hfindings
  rw [attributeFindings, if_neg hclosing]
  exact hfindings

/-- **The repeated attributes are reported one by one.** -/
theorem saysRepeat_of_checkAttributes (hopening : tag.isOpening = true)
    (h : tag.checkAttributes table precise unquoted = .ok found) :
    List.Forall₂ tag.SaysRepeat (tag.attributes.filter (·.RepeatsIn tag.attributes))
      (found.filter (·.code == "ATTRIBUTE_DUPLICATE")) := by
  have hkept : List.Forall₂ (fun found d => tag.attributeDiagnostic table precise found.1 found.2 =
      .ok d) ((tag.attributeFindings unquoted).filter (·.1.code == "ATTRIBUTE_DUPLICATE"))
        (found.filter (·.code == "ATTRIBUTE_DUPLICATE")) := by
    refine List.rel_filter (fun found d hd => ?_) (mapM_eq_ok_iff.mp h)
    dsimp only
    rw [(attributeDiagnostic_eq_ok hd).2.1]
  rw [filter_duplicate_attributeFindings hopening, List.forall₂_map_left_iff] at hkept
  refine hkept.imp fun attr d hd => ?_
  obtain ⟨hrange, -, hmessage⟩ := attributeDiagnostic_eq_ok hd
  exact ⟨hrange, (Except.ok.inj hmessage).symm⟩

/-- An attribute is reported if it repeats another one. -/
theorem reportsRepeat_iff (hopening : tag.isOpening = true)
    (h : tag.checkAttributes table precise unquoted = .ok found) {attr : Attribute}
    (hattr : attr ∈ tag.attributes) :
    tag.ReportsRepeat found attr ↔ attr.RepeatsIn tag.attributes := by
  have hreports := saysRepeat_of_checkAttributes hopening h
  constructor
  · rintro ⟨d, hd, hcode, hrange⟩
    have hlisted : d ∈ found.filter (·.code == "ATTRIBUTE_DUPLICATE") :=
      List.mem_filter.mpr ⟨hd, beq_iff_eq.mpr hcode⟩
    obtain ⟨attr', hmem, hsays⟩ := exists_mem_of_forall₂ hreports hlisted
    obtain ⟨hattr', hrepeats⟩ := List.mem_filter.mp hmem
    rw [attribute_eq_of_range_eq hattr hattr' hrange hsays.range_eq]
    exact of_decide_eq_true hrepeats
  · intro hrepeats
    have hlisted : attr ∈ tag.attributes.filter (·.RepeatsIn tag.attributes) :=
      List.mem_filter.mpr ⟨hattr, decide_eq_true hrepeats⟩
    obtain ⟨d, hd, hsays⟩ := exists_mem_of_forall₂ hreports.flip hlisted
    obtain ⟨hmem, hcode⟩ := List.mem_filter.mp hd
    exact ⟨d, hmem, beq_iff_eq.mp hcode, hsays.range_eq⟩

end Check

/-- Of the attributes of each name the first is kept, and the others are reported. -/
structure KeepsFirsts (tag : Tag) (element : Element) (found : List Diagnostic) : Prop where
  /-- The name of an attribute is what is written, in small letters. -/
  name_eq : ∀ attr ∈ tag.attributes, attr.name = String.ofList (lowerText (tag.writtenName attr))
  /-- An attribute is reported if one that starts before it has its name. -/
  reported_iff : ∀ attr ∈ tag.attributes, tag.ReportsRepeat found attr ↔
    ∃ earlier ∈ tag.attributes, earlier.offset < attr.offset ∧ earlier.name = attr.name
  /-- Those attributes are reported one by one, in their order, and nothing else is. -/
  in_order : List.Forall₂ tag.SaysRepeat (tag.attributes.filter (·.RepeatsIn tag.attributes))
    (found.filter (·.code == "ATTRIBUTE_DUPLICATE"))
  /-- There are as many reports as attributes, less one for each name. -/
  length_add : (found.filter (·.code == "ATTRIBUTE_DUPLICATE")).length +
    tag.attributeNames.length = tag.attributes.length
  /-- The one attribute of a name that is not reported is the one the element has. -/
  kept : ∀ name ∈ tag.attributeNames, ∃ first ∈ tag.attributes, first.name = name ∧
    element.attribute? name = some first ∧
    ∀ attr ∈ tag.attributes, attr.name = name → (¬ tag.ReportsRepeat found attr ↔ attr = first)

theorem keepsFirsts {tag : Tag} {element : Element} {table : LineTable} {precise unquoted : Bool}
    {found : List Diagnostic} (hopening : tag.isOpening = true)
    (helement : element.attributes = tag.attributes)
    (h : tag.checkAttributes table precise unquoted = .ok found) :
    tag.KeepsFirsts element found where
  name_eq attr := name_eq_lowerText
  reported_iff attr := reportsRepeat_iff hopening h
  in_order := saysRepeat_of_checkAttributes hopening h
  length_add := by
    rw [← (saysRepeat_of_checkAttributes hopening h).length_eq]
    exact Attribute.length_repeats_add tag.pairwise_offset_attributes
  kept := by
    intro name hname
    obtain ⟨attr, hattr, rfl⟩ := List.mem_map.mp (List.mem_eraseDups.mp hname)
    obtain ⟨first, hfirst⟩ : ∃ first, element.attribute? attr.name = some first := by
      refine Option.isSome_iff_exists.mp (List.find?_isSome.mpr ⟨attr, ?_, by simp⟩)
      rwa [helement]
    have hfound : tag.attributes.find? (·.name == attr.name) = some first := helement ▸ hfirst
    refine ⟨first, List.mem_of_find?_eq_some hfound, by simpa using List.find?_some hfound, hfirst,
      fun attr' hattr' heq => ?_⟩
    rw [reportsRepeat_iff hopening h hattr',
      Attribute.not_repeatsIn_iff tag.pairwise_offset_attributes hattr', heq, hfound,
      Option.some.injEq, eq_comm]

end Tag

/-! ### The elements of tags -/

/-- **Each opening tag has one element**, which can be told by where it starts. -/
theorem Scan.exists_element {scan : Scan} {elements : List Element}
    (horder : Tag.InOrder scan.tags) (houtline : scan.outline = .ok elements) {tag : Tag}
    (htag : tag ∈ scan.tags) (hopening : tag.isOpening = true) :
    ∃ element, elements.filter (·.start == tag.start) = [element] ∧
      element.opening = tag.opening := by
  have htags : (scan.tags.filter Tag.isOpening).filter (·.start == tag.start) = [tag] := by
    have hnodup := (horder.nodup.filter Tag.isOpening).filter (·.start == tag.start)
    refine List.perm_singleton.mp
      ((List.perm_ext_iff_of_nodup hnodup (List.nodup_singleton tag)).mpr fun other => ?_)
    simp only [List.mem_filter, List.mem_singleton, beq_iff_eq]
    constructor
    · rintro ⟨⟨hother, -⟩, hstart⟩
      exact horder.eq_of_start_eq hother htag hstart
    · rintro rfl
      exact ⟨⟨htag, hopening⟩, rfl⟩
  have hperm := (openings_perm houtline).filter (·.2.1 == tag.start)
  rw [List.filter_map, List.filter_map] at hperm
  have hone : (elements.filter (·.start == tag.start)).map Element.opening = [tag.opening] := by
    refine List.perm_singleton.mp (hperm.trans ?_)
    exact (congrArg (List.map Tag.opening) htags).symm ▸ .refl _
  exact List.map_eq_singleton_iff.mp hone

/-- **Repeated attributes are reported**, all but the first of each name. -/
theorem Scan.repeated_attributes_reported (text : Text) :
    ∃ scan elements, ofText text = .ok scan ∧ scan.outline = .ok elements ∧
      ∀ tag ∈ scan.tags, tag.isOpening = true → ∃ element,
        elements.filter (·.start == tag.start) = [element] ∧ element.opening = tag.opening ∧
        ∀ precise unquoted, ∃ found,
          tag.checkAttributes scan.table precise unquoted = .ok found ∧
            tag.KeepsFirsts element found := by
  obtain ⟨scan, -, elements, hscan, -, houtline, horder, -⟩ := Outline.exists_results text
  refine ⟨scan, elements, hscan, houtline, fun tag htag hopening => ?_⟩
  obtain ⟨element, hone, hsame⟩ := exists_element horder houtline htag hopening
  have hattributes : element.attributes = tag.attributes := congrArg (·.2.2) hsame
  refine ⟨element, hone, hsame, fun precise unquoted => ?_⟩
  obtain ⟨found, hfound⟩ :=
    Tag.exists_checkAttributes (inside_of_ofText hscan htag) precise unquoted
  exact ⟨found, hfound, Tag.keepsFirsts hopening hattributes hfound⟩

end MarkupLint
