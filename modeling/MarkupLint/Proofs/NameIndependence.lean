import MarkupLint.Proofs.ListedElements

/-!
# The elements of one name

A closing tag looks for an open element of its own name and passes by all others, and no element is
opened or listed because of another. So what happens to the elements of one name is decided by the
tags of this name alone. The tags of other names could as well not be there: the same elements would
be listed, in the same order and with the same places. The depths alone would be different, since
they count the open elements of every name.

The proof goes over all tags and, beside it, over the tags of one name. What is open in the second
walk are the open elements of that name in the first one, and this stays so whichever element is
taken out from wherever in the first walk.

Among elements of one name a closing tag takes the innermost. Hence they nest like those of a
document without errors, however much they may lie across elements of other names.

## Main results

* `Outline.extentsFrom_restrict` — the walk over the tags of one name
* `Outline.extentsFrom_compatible` — how elements of one name lie to each other
* `Outline.outline_splits_by_name` — both for the outline of a scan
-/

namespace MarkupLint

/-- The scan, with the tags of one name only. -/
def Scan.restrict (scan : Scan) (name : String) : Scan :=
  { scan with tags := scan.tags.filter (·.name == name) }

/-- The element, apart from its depth. -/
def Element.withoutDepth (element : Element) : Element := { element with depth := 0 }

namespace Outline

/-- The extent, apart from the depth of its element. -/
def Extent.withoutDepth (extent : Extent) : Extent :=
  { extent with opened := ⟨extent.opened.tag, 0⟩ }

/-- Of each name, the elements are those that the tags of this name have by themselves, up to their
depths. -/
def SplitsByName (scan : Scan) (elements : List Element) : Prop :=
  ∀ name : String, ∃ own, (scan.restrict name).outline = .ok own ∧
    (elements.filter (·.name == name)).map Element.withoutDepth = own.map Element.withoutDepth

/-- The elements do not get in each other's way. -/
structure Entry.Compatible (a b : Entry) : Prop where
  /-- If both are closed, one lies inside the other or they lie apart. -/
  nests : a.closed = true → b.closed = true → a.Nests b
  /-- If only the first is closed, the second does not start inside it. -/
  not_inside : a.closed = true → b.closed = false → ¬ (a.start < b.start ∧ b.start < a.stop)
  /-- If only the second is closed, the first does not start inside it. -/
  not_around : b.closed = true → a.closed = false → ¬ (b.start < a.start ∧ a.start < b.stop)

/-! ### The walk over the tags of one name -/

section Restrict

variable {name : String} {openers own : List Opened}

/-- What is left open, up to depths, only depends on the tags of the open elements. -/
theorem extentsFrom_nil_withoutDepth (openers : List Opened) :
    (extentsFrom openers []).map Extent.withoutDepth =
      (openers.map Opened.tag).reverse.map fun tag => ⟨⟨tag, 0⟩, tag.stop, false⟩ := by
  rw [extentsFrom, List.map_map, ← List.map_reverse, List.map_map]
  rfl

/-- **The tags of one name make the elements of this name.** -/
theorem extentsFrom_restrict (tags : List Tag)
    (h : own.map Opened.tag = (openers.filter (·.tag.name == name)).map Opened.tag) :
    (extentsFrom own (tags.filter (·.name == name))).map Extent.withoutDepth =
      ((extentsFrom openers tags).filter (·.opened.tag.name == name)).map Extent.withoutDepth := by
  induction tags using Tag.walkInduction generalizing openers own with
  | nil =>
    have hfilter : (extentsFrom openers []).filter (·.opened.tag.name == name) =
        extentsFrom (openers.filter (·.tag.name == name)) [] := by
      rw [extentsFrom, extentsFrom, List.filter_map, List.filter_reverse]
      rfl
    rw [hfilter, List.filter_nil, extentsFrom_nil_withoutDepth, extentsFrom_nil_withoutDepth, h]
  | closing tag rest hclosing ih =>
    rcases extentsFrom_closing_cases rest hclosing openers with
      ⟨hnone, heq⟩ | ⟨inner, opened, outer, rfl, hinner, hname, heq⟩
    · rw [heq]
      by_cases htag : tag.name = name
      · -- no element of this name is open in either walk
        have hopen : openers.filter (·.tag.name == name) = [] := by
          refine List.filter_eq_nil_iff.mpr fun opened hopened => ?_
          simpa [← htag] using hnone opened hopened
        obtain rfl : own = [] := by simpa [hopen] using h
        rw [List.filter_cons_of_pos (by simpa using htag)]
        have hignored : extentsFrom [] (tag :: rest.filter (·.name == name)) =
            extentsFrom [] (rest.filter (·.name == name)) := by
          simp [extentsFrom, hclosing]
        rw [hignored]
        exact ih h
      · rw [List.filter_cons_of_neg (by simpa using htag)]
        exact ih h
    · rw [heq]
      by_cases htag : tag.name = name
      · have hnone : inner.filter (·.tag.name == name) = [] := by
          refine List.filter_eq_nil_iff.mpr fun other hother => ?_
          simpa [← htag] using hinner other hother
        have hopened : (opened.tag.name == name) = true := by simpa [hname] using htag
        rw [List.filter_append, hnone, List.nil_append, List.filter_cons, if_pos hopened,
          List.map_cons] at h
        obtain ⟨first, own, rfl, hfirst, h⟩ := List.map_eq_cons_iff.mp h
        rw [List.filter_cons_of_pos (by simpa using htag),
          extentsFrom_of_closes _ hclosing (by rw [hfirst, hname]), List.map_cons,
          List.filter_cons, if_pos hopened, List.map_cons]
        have hrest : own.map Opened.tag =
            ((inner ++ outer).filter (·.tag.name == name)).map Opened.tag := by
          rw [List.filter_append, hnone, List.nil_append, h]
        rw [ih hrest, Extent.withoutDepth, Extent.withoutDepth, hfirst]
      · have hopened : ¬ (opened.tag.name == name) = true := by simpa [hname] using htag
        rw [List.filter_append, List.filter_cons, if_neg hopened, ← List.filter_append] at h
        rw [List.filter_cons_of_neg (by simpa using htag), List.filter_cons, if_neg hopened]
        exact ih h
  | leaf tag rest hopening hleaf ih =>
    rw [extentsFrom_of_leaf rest hopening hleaf]
    by_cases htag : (tag.name == name) = true
    · rw [List.filter_cons, if_pos htag, List.filter_cons, if_pos htag,
        extentsFrom_of_leaf _ hopening hleaf, List.map_cons, List.map_cons, ih h]
      rfl
    · rw [List.filter_cons, if_neg htag, List.filter_cons, if_neg htag]
      exact ih h
  | opens tag rest hopening hleaf ih =>
    rw [extentsFrom_of_opens rest hopening hleaf]
    by_cases htag : (tag.name == name) = true
    · rw [List.filter_cons, if_pos htag, extentsFrom_of_opens _ hopening hleaf]
      refine ih ?_
      rw [List.filter_cons, if_pos htag, List.map_cons, List.map_cons, h]
    · rw [List.filter_cons, if_neg htag]
      refine ih ?_
      rw [List.filter_cons, if_neg htag, h]

end Restrict

/-! ### How elements of one name lie to each other -/

theorem Entry.Compatible.symm {a b : Entry} (h : a.Compatible b) : b.Compatible a :=
  ⟨fun hb ha => (h.nests ha hb).symm, h.not_around, h.not_inside⟩

theorem Entry.Compatible.refl (entry : Entry) : entry.Compatible entry :=
  ⟨fun _ _ => .refl entry, fun _ _ hinside => lt_irrefl _ hinside.1,
    fun _ _ hinside => lt_irrefl _ hinside.1⟩

/-- What is closed by a tag does not get in the way of anything that is completed later, if the
elements that stay open started before it or have other names. -/
theorem compatible_of_mem {openers : List Opened} {tag : Tag} {rest : List Tag}
    (horder : Ordered openers (tag :: rest)) {opened : Opened} {openers' : List Opened}
    (hopeners : ∀ other ∈ openers', opened.tag.name = other.tag.name →
      other.tag.start ≤ opened.tag.start)
    {later : Extent} (hlater : later ∈ extentsFrom openers' rest)
    (hname : opened.tag.name = later.opened.tag.name) :
    (Extent.entry ⟨opened, tag.stop, true⟩).Compatible later.entry := by
  have hclosed : (Extent.entry ⟨opened, tag.stop, true⟩).closed ≠ false := Bool.false_ne_true.symm
  rcases opened_of_mem_extentsFrom hlater with hopen | hrest
  · -- the later one was open around it
    have hstart := hopeners later.opened hopen hname
    refine ⟨fun _ hlaterClosed => .inr (.inl ⟨hstart, ?_⟩),
      fun _ _ hinside => absurd hinside.1 (not_lt_of_ge hstart), fun _ h => absurd h hclosed⟩
    obtain ⟨tag', htag', hstop⟩ := stop_of_closed hlater hlaterClosed
    show tag.stop ≤ later.stop
    rw [hstop]
    exact (horder.stop_lt_stop htag').le
  · -- the later one starts behind it
    have hbehind := horder.stop_le_start hrest
    exact ⟨fun _ _ => .inr (.inr (.inl hbehind)),
      fun _ _ hinside => absurd hinside.2 (not_lt_of_ge hbehind), fun _ h => absurd h hclosed⟩

/-- **Elements of one name do not get in each other's way.** -/
theorem extentsFrom_compatible {openers : List Opened} {tags : List Tag}
    (horder : Ordered openers tags) :
    (extentsFrom openers tags).Pairwise fun extent later =>
      extent.opened.tag.name = later.opened.tag.name → extent.entry.Compatible later.entry := by
  induction tags using Tag.walkInduction generalizing openers with
  | nil =>
    rw [extentsFrom, List.pairwise_map]
    exact List.pairwise_of_forall fun _ _ _ =>
      ⟨fun h => absurd h Bool.false_ne_true, fun h => absurd h Bool.false_ne_true,
        fun h => absurd h Bool.false_ne_true⟩
  | closing tag rest hclosing ih =>
    rcases extentsFrom_closing_cases rest hclosing openers with
      ⟨-, heq⟩ | ⟨inner, opened, outer, rfl, hinner, hname, heq⟩
    · rw [heq]
      exact ih horder.pass
    · rw [heq]
      have hsub := (List.sublist_cons_self opened outer).append_left inner
      have hsorted := (List.pairwise_append.mp horder.start_lt_start).2.1
      -- of its name, the element that is closed is the innermost one
      have hopeners : ∀ other ∈ inner ++ outer, opened.tag.name = other.tag.name →
          other.tag.start ≤ opened.tag.start := by
        intro other hother hsame
        rcases List.mem_append.mp hother with hother | hother
        · exact absurd (hsame.symm.trans hname) (hinner other hother)
        · exact ((List.pairwise_cons.mp hsorted).1 other hother).le
      exact .cons (fun later => compatible_of_mem horder hopeners) (ih (horder.pass.sublist hsub))
  | leaf tag rest hopening hleaf ih =>
    rw [extentsFrom_of_leaf rest hopening hleaf]
    have hopeners : ∀ other ∈ openers, tag.name = other.tag.name →
        other.tag.start ≤ tag.start := fun other hother _ =>
      (horder.opener_start_lt hother).le.trans (horder.opener_stop_le hother List.mem_cons_self)
    exact .cons (fun later => compatible_of_mem horder hopeners) (ih horder.pass)
  | opens tag rest hopening hleaf ih =>
    rw [extentsFrom_of_opens rest hopening hleaf]
    exact ih (horder.push _)

/-- Of two elements of one name, it does not matter which is listed first. -/
theorem compatible_of_name_eq {tags : List Tag} (horder : Ordered [] tags) {a b : Entry}
    (ha : a ∈ (extents tags).map Extent.entry) (hb : b ∈ (extents tags).map Extent.entry)
    (hname : a.name = b.name) : a.Compatible b := by
  have hsymm : Std.Symm fun a b : Entry => a.name = b.name → a.Compatible b :=
    ⟨fun _ _ h hname => (h hname.symm).symm⟩
  have hpairwise : ((extents tags).map Extent.entry).Pairwise fun a b =>
      a.name = b.name → a.Compatible b := List.pairwise_map.mpr (extentsFrom_compatible horder)
  exact hpairwise.forall_of_forall (fun a _ _ => .refl a) ha hb hname

end Outline

/-! ### The outline of a scan -/

/-- The depth of an extent only goes into the depth of its element. -/
theorem Element.ofExtent_withoutDepth (table : LineTable) (extent : Outline.Extent) :
    ofExtent table extent.withoutDepth = (ofExtent table extent).map Element.withoutDepth := by
  simp only [ofExtent, Outline.Extent.withoutDepth]
  cases table.position extent.opened.tag.start with
  | error fault => rfl
  | ok start =>
    cases table.position extent.stop with
    | error fault => rfl
    | ok stop => rfl

/-- Without depths, extents make the same elements without depths. -/
theorem Element.mapM_withoutDepth {table : LineTable} {extents : List Outline.Extent}
    {elements : List Element} (h : extents.mapM (ofExtent table) = .ok elements) :
    (extents.map Outline.Extent.withoutDepth).mapM (ofExtent table) =
      .ok (elements.map Element.withoutDepth) := by
  rw [mapM_eq_ok_iff, List.forall₂_map_left_iff, List.forall₂_map_right_iff]
  refine (mapM_eq_ok_iff.mp h).imp fun extent element helement => ?_
  rw [ofExtent_withoutDepth, helement]
  rfl

/-- Extents that make elements without depths also make them with depths. -/
theorem Element.exists_mapM_of_withoutDepth {table : LineTable} {extents : List Outline.Extent}
    {elements : List Element}
    (h : (extents.map Outline.Extent.withoutDepth).mapM (ofExtent table) = .ok elements) :
    ∃ own, extents.mapM (ofExtent table) = .ok own ∧ elements = own.map Element.withoutDepth := by
  have hmade : ∀ extent ∈ extents, ∃ element, ofExtent table extent = .ok element := by
    intro extent hextent
    obtain ⟨element, -, helement⟩ :=
      exists_mem_of_forall₂ (mapM_eq_ok_iff.mp h).flip (List.mem_map_of_mem hextent)
    rw [ofExtent_withoutDepth] at helement
    cases hmade : ofExtent table extent with
    | error fault => rw [hmade] at helement; cases helement
    | ok element => exact ⟨element, rfl⟩
  obtain ⟨own, hown⟩ := exists_mapM_eq_ok hmade
  exact ⟨own, hown, Except.ok.inj (h.symm.trans (mapM_withoutDepth hown))⟩

/-- **The outline of the tags of one name.** -/
theorem Scan.splitsByName_of_outline {scan : Scan} {elements : List Element}
    (h : scan.outline = .ok elements) : Outline.SplitsByName scan elements := by
  intro name
  have hfilter : ((Outline.extents scan.tags).filter (·.opened.tag.name == name)).mapM
      (Element.ofExtent scan.table) = .ok (elements.filter (·.name == name)) := by
    refine mapM_eq_ok_iff.mpr (List.rel_filter ?_ (mapM_eq_ok_iff.mp h))
    intro extent element helement
    have hname : extent.opened.tag.name = element.name :=
      congrArg Prod.fst (Element.opening_of_ofExtent helement)
    simp [hname]
  have hrestrict : (Outline.extents (scan.restrict name).tags).map Outline.Extent.withoutDepth =
      ((Outline.extents scan.tags).filter (·.opened.tag.name == name)).map
        Outline.Extent.withoutDepth := Outline.extentsFrom_restrict scan.tags rfl
  have hstripped := Element.mapM_withoutDepth hfilter
  rw [← hrestrict] at hstripped
  exact Element.exists_mapM_of_withoutDepth hstripped

/-- **Elements of one name do not depend on the tags of other names.** Of each name, the elements of
a scan are, up to their depths and in the same order, those of the scan with the tags of this name
only. In the outline of a text, two closed elements of one name are nested or lie apart, and no
element that is not closed starts inside a closed one of its name. -/
theorem Outline.outline_splits_by_name :
    (∀ (scan : Scan) (elements : List Element), scan.outline = .ok elements →
      SplitsByName scan elements) ∧
    ∀ text : Text, ∃ scan elements, Scan.ofText text = .ok scan ∧ scan.outline = .ok elements ∧
      SplitsByName scan elements ∧
      ∀ a ∈ elements, ∀ b ∈ elements, a.name = b.name → a.entry.Compatible b.entry := by
  refine ⟨fun scan elements => Scan.splitsByName_of_outline, fun text => ?_⟩
  obtain ⟨scan, -, elements, hscan, -, houtline, horder, -, hentries⟩ := exists_results text
  refine ⟨scan, elements, hscan, houtline, Scan.splitsByName_of_outline houtline, ?_⟩
  intro a ha b hb hname
  have hmem : ∀ element ∈ elements, element.entry ∈ (extents scan.tags).map Extent.entry :=
    fun element helement => hentries ▸ List.mem_map_of_mem helement
  exact compatible_of_name_eq horder (hmem a ha) (hmem b hb) hname

/-- A scan in which the elements of two names lie across each other, with an element of the first
name inside both. -/
def Outline.crossingScan : Scan where
  text := "<b><i><b></b></b></i>".toList
  tags :=
    [ ⟨"b", "<b>".toList, 0, ⟨false, false, false, 0⟩⟩,
      ⟨"i", "<i>".toList, 3, ⟨false, false, false, 0⟩⟩,
      ⟨"b", "<b>".toList, 6, ⟨false, false, false, 0⟩⟩,
      ⟨"b", "</b>".toList, 9, ⟨true, false, false, 0⟩⟩,
      ⟨"b", "</b>".toList, 13, ⟨true, false, false, 0⟩⟩,
      ⟨"i", "</i>".toList, 17, ⟨true, false, false, 0⟩⟩ ]
  stubs := []
  diagnostics := []
  table := ⟨21, []⟩

theorem Outline.outline_splits_by_name_crossingScan :
    ∃ elements, crossingScan.outline = .ok elements ∧ SplitsByName crossingScan elements := by
  have hinside : ∀ tag ∈ crossingScan.tags, tag.Inside crossingScan.table := by decide
  obtain ⟨elements, houtline, -⟩ := Scan.exists_outline hinside
  exact ⟨elements, houtline, outline_splits_by_name.1 _ _ houtline⟩

end MarkupLint
