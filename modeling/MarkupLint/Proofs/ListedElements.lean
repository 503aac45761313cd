import MarkupLint.Proofs.Agreement
import MarkupLint.Proofs.Repetition

/-!
# What the outline lists

The outline has one element for each opening tag, and the elements are listed as they are completed.
Between the opening tag and its place in the list an element may stay open for long, and a closing
tag takes it out from wherever it is by then. So neither of these is plain: that no element gets
lost or is listed twice, and what the depth of an element, which is the number of elements that were
open when its tag came, has to do with the list in the end.

Both have the same reason. At any moment of the walk, the elements that are still to be listed are
those that are open and those of the opening tags to come. Those that are open will be closed by a
tag to come, or not at all, and all others start later. Hence the number of open elements can be
read off the list: it counts the elements that started before this moment and did not stop before
it. Elements that were listed earlier did stop before it.

## Main results

* `Outline.tags_extentsFrom_perm` — one element for each opening tag
* `Outline.ends_of_mem_extentsFrom` — how elements end
* `Outline.extentsFrom_pairwise` — in which order they are listed
* `Outline.countP_openAt`, `Outline.depth_eq_countP` — how many elements are open
* `Outline.outline_lists_elements` — all of this for the outline of a text
-/

namespace MarkupLint

/-- What an element takes over from its opening tag. -/
def Tag.opening (tag : Tag) : String × ℤ × List Attribute := (tag.name, tag.start, tag.attributes)

/-- What an element has from its opening tag. -/
def Element.opening (element : Element) : String × ℤ × List Attribute :=
  (element.name, element.start, element.attributes)

namespace Outline

/-- The element is open at an offset: it starts before it and does not stop up to it. -/
def Entry.OpenAt (entry : Entry) (offset : ℤ) : Prop :=
  entry.start < offset ∧ (entry.closed = false ∨ offset < entry.stop)

instance (entry : Entry) (offset : ℤ) : Decidable (entry.OpenAt offset) :=
  inferInstanceAs (Decidable (_ ∧ _))

/-- The tag is the opening tag of the element. -/
def Entry.OpenedBy (entry : Entry) (tag : Tag) : Prop :=
  tag.isOpening = true ∧ entry.name = tag.name ∧ entry.start = tag.start

/-- The entries are in the order of an outline, they end as the tags say, and their depths are the
true ones. -/
structure Listed (tags : List Tag) (entries : List Entry) : Prop where
  /-- Elements that are closed come before those that are not. -/
  closed_first : entries.Pairwise fun entry later => later.closed = true → entry.closed = true
  /-- Elements that are closed come in the order of their ends. -/
  stop_lt : (entries.filter (·.closed)).Pairwise (·.stop < ·.stop)
  /-- The others come in the order of their starts. -/
  start_lt : (entries.filter (!·.closed)).Pairwise (·.start < ·.start)
  /-- An element that is not closed stops with its opening tag. -/
  unclosed : ∀ entry ∈ entries, entry.closed = false →
    ∃ tag ∈ tags, entry.OpenedBy tag ∧ entry.stop = tag.stop
  /-- An element that is closed stops with a closing tag, or with its own if it has no content. -/
  closed : ∀ entry ∈ entries, entry.closed = true → ∃ tag ∈ tags, entry.stop = tag.stop ∧
    (tag.isClosing = true ∨ tag.isSelfClosing = true ∧ entry.OpenedBy tag)
  /-- The element that stops with a closing tag is closed, has its name and starts before it. -/
  completed : ∀ tag ∈ tags, tag.isClosing = true → ∀ entry ∈ entries, entry.stop = tag.stop →
    entry.closed = true ∧ entry.name = tag.name ∧ entry.start < tag.start
  /-- With a closing tag stops at most one element. -/
  countP_stop_le : ∀ tag ∈ tags, tag.isClosing = true →
    entries.countP (fun entry => entry.stop = tag.stop) ≤ 1
  /-- The depth of an element is the number of elements that are open where it starts. -/
  depth_eq : ∀ entry ∈ entries, entry.depth = entries.countP fun other => other.OpenAt entry.start

/-! ### One element for each opening tag -/

/-- **No element gets lost, and none is listed twice**: the outline lists the open elements and one
element for each opening tag to come. -/
theorem tags_extentsFrom_perm (openers : List Opened) (tags : List Tag) :
    ((extentsFrom openers tags).map fun extent => extent.opened.tag).Perm
      (openers.map Opened.tag ++ tags.filter Tag.isOpening) := by
  induction tags using Tag.walkInduction generalizing openers with
  | nil =>
    rw [extentsFrom, List.map_map, List.filter_nil, List.append_nil]
    exact (List.reverse_perm openers).map _
  | closing tag rest hclosing ih =>
    rw [List.filter_cons_of_neg (by simp [Tag.isOpening, hclosing])]
    rcases extentsFrom_closing_cases rest hclosing openers with
      ⟨-, heq⟩ | ⟨inner, opened, outer, rfl, -, -, heq⟩
    · rw [heq]
      exact ih openers
    · rw [heq, List.map_cons, List.map_append, List.map_cons, List.append_assoc, List.cons_append]
      refine ((ih (inner ++ outer)).cons opened.tag).trans ?_
      rw [List.map_append, List.append_assoc]
      exact List.perm_middle.symm
  | leaf tag rest hopening hleaf ih =>
    rw [extentsFrom_of_leaf rest hopening hleaf, List.map_cons,
      List.filter_cons_of_pos (Tag.isOpening_iff.mpr hopening)]
    exact ((ih openers).cons tag).trans List.perm_middle.symm
  | opens tag rest hopening hleaf ih =>
    rw [extentsFrom_of_opens rest hopening hleaf,
      List.filter_cons_of_pos (Tag.isOpening_iff.mpr hopening)]
    exact (ih _).trans List.perm_middle.symm

/-! ### How elements end -/

/-- How an element ends, given the tags that come while it is open or open it. -/
inductive Extent.Ends (tags : List Tag) (extent : Extent) : Prop where
  /-- It is not closed and stops with its opening tag. -/
  | unclosed (hopen : extent.closed = false) (hstop : extent.stop = extent.opened.tag.stop)
  /-- It is closed by a later tag of its name. -/
  | closed {tag : Tag} (htag : tag ∈ tags) (hclosing : tag.isClosing = true)
      (hname : extent.opened.tag.name = tag.name) (hstart : extent.opened.tag.start < tag.start)
      (hclosed : extent.closed = true) (hstop : extent.stop = tag.stop)
  /-- It is complete with its opening tag. -/
  | leaf (htag : extent.opened.tag ∈ tags) (hopening : extent.opened.tag.isClosing = false)
      (hleaf : extent.opened.tag.isSelfClosing = true) (hclosed : extent.closed = true)
      (hstop : extent.stop = extent.opened.tag.stop)

theorem Extent.Ends.cons {tags : List Tag} {extent : Extent} (h : extent.Ends tags) (tag : Tag) :
    extent.Ends (tag :: tags) := by
  cases h with
  | unclosed hopen hstop => exact .unclosed hopen hstop
  | closed htag hclosing hname hstart hclosed hstop =>
    exact .closed (List.mem_cons_of_mem tag htag) hclosing hname hstart hclosed hstop
  | leaf htag hopening hleaf hclosed hstop =>
    exact .leaf (List.mem_cons_of_mem tag htag) hopening hleaf hclosed hstop

/-- **How the elements of the outline end.** -/
theorem ends_of_mem_extentsFrom {openers : List Opened} {tags : List Tag}
    (horder : Ordered openers tags) {extent : Extent} (h : extent ∈ extentsFrom openers tags) :
    extent.Ends tags := by
  induction tags using Tag.walkInduction generalizing openers with
  | nil =>
    obtain ⟨opened, -, rfl⟩ := List.mem_map.mp h
    exact .unclosed rfl rfl
  | closing tag rest hclosing ih =>
    rcases extentsFrom_closing_cases rest hclosing openers with
      ⟨-, heq⟩ | ⟨inner, opened, outer, rfl, -, hname, heq⟩
    · rw [heq] at h
      exact (ih horder.pass h).cons tag
    · rw [heq, List.mem_cons] at h
      rcases h with rfl | h
      · have hopened : opened ∈ inner ++ opened :: outer := by simp
        have hstart := horder.opener_start_lt hopened
        have hbefore := horder.opener_stop_le hopened List.mem_cons_self
        exact .closed List.mem_cons_self hclosing hname (hstart.trans_le hbefore) rfl rfl
      · have hsub := (List.sublist_cons_self opened outer).append_left inner
        exact (ih (horder.pass.sublist hsub) h).cons tag
  | leaf tag rest hopening hleaf ih =>
    rw [extentsFrom_of_leaf rest hopening hleaf, List.mem_cons] at h
    rcases h with rfl | h
    · exact .leaf List.mem_cons_self hopening hleaf rfl rfl
    · exact (ih horder.pass h).cons tag
  | opens tag rest hopening hleaf ih =>
    rw [extentsFrom_of_opens rest hopening hleaf] at h
    exact (ih (horder.push _) h).cons tag

/-! ### The order of the list -/

/-- The first element may be listed before the second. -/
structure Entry.ListedBefore (entry later : Entry) : Prop where
  /-- What is closed is not listed behind what is not. -/
  closed_first : later.closed = true → entry.closed = true
  /-- Elements that are closed are listed in the order of their ends. -/
  stop_lt : later.closed = true → entry.stop < later.stop
  /-- The others are listed in the order of their starts. -/
  start_lt : entry.closed = false → entry.start < later.start

/-- What is closed by a tag may be listed before everything that is completed later. -/
theorem listedBefore_of_mem {openers : List Opened} {tag : Tag} {rest : List Tag}
    (horder : Ordered openers (tag :: rest)) (opened : Opened) {openers' : List Opened}
    {later : Extent} (hlater : later ∈ extentsFrom openers' rest) :
    (Extent.entry ⟨opened, tag.stop, true⟩).ListedBefore later.entry := by
  refine ⟨fun _ => rfl, fun hclosed => ?_, fun hopen => absurd hopen.symm Bool.false_ne_true⟩
  obtain ⟨tag', htag', hstop⟩ := stop_of_closed hlater hclosed
  show tag.stop < later.stop
  rw [hstop]
  exact horder.stop_lt_stop htag'

/-- Open elements start one behind the other, the innermost one last. -/
theorem Ordered.start_lt_start {openers : List Opened} {tags : List Tag}
    (h : Ordered openers tags) :
    openers.Pairwise fun inner outer => outer.tag.start < inner.tag.start := by
  have hsorted := (List.pairwise_append.mp (Tag.InOrder.stop_le_start h)).1
  rw [List.pairwise_map, List.pairwise_reverse] at hsorted
  exact hsorted.imp_of_mem fun _ houter hle => (h.opener_start_lt houter).trans_le hle

/-- **In which order elements are listed.** -/
theorem extentsFrom_pairwise {openers : List Opened} {tags : List Tag}
    (horder : Ordered openers tags) :
    (extentsFrom openers tags).Pairwise fun extent later =>
      extent.entry.ListedBefore later.entry := by
  induction tags using Tag.walkInduction generalizing openers with
  | nil =>
    rw [extentsFrom, List.pairwise_map, List.pairwise_reverse]
    exact horder.start_lt_start.imp fun hlt =>
      ⟨fun h => h, fun h => absurd h Bool.false_ne_true, fun _ => hlt⟩
  | closing tag rest hclosing ih =>
    rcases extentsFrom_closing_cases rest hclosing openers with
      ⟨-, heq⟩ | ⟨inner, opened, outer, rfl, -, hname, heq⟩
    · rw [heq]
      exact ih horder.pass
    · rw [heq]
      have hsub := (List.sublist_cons_self opened outer).append_left inner
      exact .cons (fun later => listedBefore_of_mem horder opened) (ih (horder.pass.sublist hsub))
  | leaf tag rest hopening hleaf ih =>
    rw [extentsFrom_of_leaf rest hopening hleaf]
    exact .cons (fun later => listedBefore_of_mem horder _) (ih horder.pass)
  | opens tag rest hopening hleaf ih =>
    rw [extentsFrom_of_opens rest hopening hleaf]
    exact ih (horder.push _)

/-! ### How many elements are open -/

/-- **The open elements, counted in the list.** Where no tag to come has started yet, the elements
that are open are the ones that were opened before. -/
theorem countP_openAt {openers : List Opened} {tags : List Tag} (horder : Ordered openers tags)
    {offset : ℤ} (htags : ∀ tag ∈ tags, offset ≤ tag.start) :
    (extentsFrom openers tags).countP (fun extent => extent.entry.OpenAt offset) =
      openers.countP fun opened => opened.tag.start < offset := by
  -- whatever started before is closed by a tag to come, or not at all
  have hstart : ∀ extent ∈ extentsFrom openers tags,
      extent.entry.OpenAt offset ↔ extent.opened.tag.start < offset := by
    intro extent hmem
    refine ⟨And.left, fun hlt => ⟨hlt, ?_⟩⟩
    cases hclosed : extent.closed with
    | false => exact .inl hclosed
    | true =>
      obtain ⟨tag, htag, hstop⟩ := stop_of_closed hmem hclosed
      have hle := htags tag htag
      have hlt := horder.start_lt_stop htag
      exact .inr (show offset < extent.stop by omega)
  have hopening : ((tags.filter Tag.isOpening).countP fun tag => tag.start < offset) = 0 := by
    refine List.countP_eq_zero.mpr fun tag htag => ?_
    have hle := htags tag (List.mem_of_mem_filter htag)
    simpa using hle
  calc (extentsFrom openers tags).countP (fun extent => extent.entry.OpenAt offset)
      = (extentsFrom openers tags).countP (fun extent => extent.opened.tag.start < offset) :=
        List.countP_congr fun extent hmem => by simpa using hstart extent hmem
    _ = ((extentsFrom openers tags).map fun extent => extent.opened.tag).countP
          (fun tag => tag.start < offset) := by
        rw [List.countP_map]
        rfl
    _ = (openers.map Opened.tag ++ tags.filter Tag.isOpening).countP
          (fun tag => tag.start < offset) := (tags_extentsFrom_perm openers tags).countP_eq _
    _ = openers.countP fun opened => opened.tag.start < offset := by
        rw [List.countP_append, hopening, List.countP_map]
        rfl

/-- What is closed by a tag is not open where a later tag starts. -/
theorem not_openAt_of_mem {openers : List Opened} {tag : Tag} {rest : List Tag}
    (horder : Ordered openers (tag :: rest)) (opened : Opened) {openers' : List Opened}
    {later : Extent} (hlater : later ∈ extentsFrom openers' rest) (hnew : later.opened ∉ openers') :
    ¬ (Extent.entry ⟨opened, tag.stop, true⟩).OpenAt later.opened.tag.start := by
  have hrest := (opened_of_mem_extentsFrom hlater).resolve_left hnew
  rintro ⟨-, hopen | hlt⟩
  · exact Bool.false_ne_true hopen.symm
  · exact absurd (horder.stop_le_start hrest) (not_le_of_gt hlt)

/-- Before a tag, all open elements have started. -/
theorem Ordered.countP_start {openers : List Opened} {tag : Tag} {rest : List Tag}
    (h : Ordered openers (tag :: rest)) :
    (openers.countP fun opened => opened.tag.start < tag.start) = openers.length := by
  refine List.countP_eq_length.mpr fun opened hopened => ?_
  have hlt := h.opener_start_lt hopened
  have hle := h.opener_stop_le hopened List.mem_cons_self
  exact decide_eq_true (hlt.trans_le hle)

/-- **The depth of an element is the number of elements that are open where it starts**, counted in
the list of all elements. -/
theorem depth_eq_countP {openers : List Opened} {tags : List Tag} (horder : Ordered openers tags)
    {extent : Extent} (hmem : extent ∈ extentsFrom openers tags) (hnew : extent.opened ∉ openers) :
    extent.opened.depth = (extentsFrom openers tags).countP fun other =>
      other.entry.OpenAt extent.opened.tag.start := by
  induction tags using Tag.walkInduction generalizing openers with
  | nil =>
    obtain ⟨opened, hopened, rfl⟩ := List.mem_map.mp hmem
    exact absurd (List.mem_reverse.mp hopened) hnew
  | closing tag rest hclosing ih =>
    rcases extentsFrom_closing_cases rest hclosing openers with
      ⟨-, heq⟩ | ⟨inner, opened, outer, rfl, -, -, heq⟩
    · rw [heq] at hmem ⊢
      exact ih horder.pass hmem hnew
    · have hsub := (List.sublist_cons_self opened outer).append_left inner
      rw [heq] at hmem ⊢
      rcases List.mem_cons.mp hmem with rfl | hmem
      · exact absurd (by simp) hnew
      · have hnew : extent.opened ∉ inner ++ outer := fun h => hnew (hsub.subset h)
        rw [List.countP_cons_of_neg (by simpa using not_openAt_of_mem horder opened hmem hnew)]
        exact ih (horder.pass.sublist hsub) hmem hnew
  | leaf tag rest hopening hleaf ih =>
    rw [extentsFrom_of_leaf rest hopening hleaf] at hmem ⊢
    rcases List.mem_cons.mp hmem with rfl | hmem
    · -- the element does not start before itself
      rw [List.countP_cons_of_neg (by simp [Entry.OpenAt, Extent.entry])]
      have hlater : ∀ later ∈ rest, tag.start ≤ later.start := fun later hlater =>
        (horder.start_lt_stop List.mem_cons_self).le.trans (horder.stop_le_start hlater)
      rw [countP_openAt horder.pass hlater, horder.countP_start]
    · rw [List.countP_cons_of_neg (by simpa using not_openAt_of_mem horder _ hmem hnew)]
      exact ih horder.pass hmem hnew
  | opens tag rest hopening hleaf ih =>
    rw [extentsFrom_of_opens rest hopening hleaf] at hmem ⊢
    by_cases hopened : extent.opened = ⟨tag, openers.length⟩
    · have hlater : ∀ later ∈ rest, tag.start ≤ later.start := fun later hlater =>
        (horder.start_lt_stop List.mem_cons_self).le.trans (horder.stop_le_start hlater)
      rw [hopened, countP_openAt (horder.push _) hlater, List.countP_cons_of_neg (by simp),
        horder.countP_start]
    · exact ih (horder.push _) hmem (List.not_mem_cons_of_ne_of_not_mem hopened hnew)

/-! ### The list as a whole -/

section Whole

variable {tags : List Tag} {extent : Extent}

/-- The opening tag of an element is one of the tags. -/
theorem mem_tags_of_mem_extents (h : extent ∈ extents tags) :
    extent.opened.tag ∈ tags ∧ extent.opened.tag.isOpening = true := by
  have hmem : extent.opened.tag ∈ (extents tags).map fun extent => extent.opened.tag :=
    List.mem_map_of_mem h
  exact List.mem_filter.mp ((tags_extentsFrom_perm [] tags).mem_iff.mp hmem)

/-- The element that stops with a closing tag was closed by it. -/
theorem completed_of_stop_eq (horder : Ordered [] tags) (hmem : extent ∈ extents tags) {tag : Tag}
    (htag : tag ∈ tags) (hclosing : tag.isClosing = true) (heq : extent.stop = tag.stop) :
    extent.closed = true ∧ extent.opened.tag.name = tag.name ∧
      extent.opened.tag.start < tag.start := by
  have hinOrder : Tag.InOrder tags := horder
  obtain ⟨hopened, hopening⟩ := mem_tags_of_mem_extents hmem
  -- no element stops with its own tag where a closing tag stops
  have hown : extent.stop ≠ extent.opened.tag.stop := by
    intro hstop
    have hsame := hinOrder.eq_of_stop_eq hopened htag (hstop.symm.trans heq)
    rw [Tag.isOpening_iff, hsame, hclosing] at hopening
    exact Bool.false_ne_true hopening.symm
  cases ends_of_mem_extentsFrom horder hmem with
  | unclosed _ hstop => exact absurd hstop hown
  | leaf _ _ _ _ hstop => exact absurd hstop hown
  | closed htag' _ hname hstart hclosed hstop =>
    obtain rfl := hinOrder.eq_of_stop_eq htag' htag (hstop.symm.trans heq)
    exact ⟨hclosed, hname, hstart⟩

/-- With a closing tag stops at most one element. -/
theorem countP_stop_eq_le (horder : Ordered [] tags) {tag : Tag} (htag : tag ∈ tags)
    (hclosing : tag.isClosing = true) :
    (extents tags).countP (fun extent => extent.stop = tag.stop) ≤ 1 := by
  have hnone : ((extents tags).filter fun extent => extent.stop = tag.stop).Pairwise
      fun _ _ => False := by
    refine ((extentsFrom_pairwise horder).filter _).imp_of_mem fun {extent later} h h' hbefore => ?_
    obtain ⟨-, hstop⟩ := List.mem_filter.mp h
    obtain ⟨hlater, hstop'⟩ := List.mem_filter.mp h'
    have hclosed := (completed_of_stop_eq horder hlater htag hclosing (of_decide_eq_true hstop')).1
    have hlt : extent.stop < later.stop := hbefore.stop_lt hclosed
    rw [of_decide_eq_true hstop, of_decide_eq_true hstop'] at hlt
    exact lt_irrefl _ hlt
  rw [List.countP_eq_length_filter]
  generalize (extents tags).filter (fun extent => extent.stop = tag.stop) = completed at hnone ⊢
  rcases completed with _ | ⟨first, _ | ⟨later, rest⟩⟩
  · exact Nat.zero_le 1
  · exact le_rfl
  · exact False.elim ((List.pairwise_cons.mp hnone).1 later List.mem_cons_self)

/-- **The entries of the outline are listed in order, end as the tags say and have their true
depths.** -/
theorem listed_extents (horder : Ordered [] tags) :
    Listed tags ((extents tags).map Extent.entry) where
  closed_first :=
    List.pairwise_map.mpr ((extentsFrom_pairwise horder).imp Entry.ListedBefore.closed_first)
  stop_lt := by
    refine ((List.pairwise_map.mpr (extentsFrom_pairwise horder)).filter _).imp_of_mem ?_
    exact fun _ hlater hbefore => hbefore.stop_lt (List.mem_filter.mp hlater).2
  start_lt := by
    refine ((List.pairwise_map.mpr (extentsFrom_pairwise horder)).filter _).imp_of_mem ?_
    exact fun hentry _ hbefore => hbefore.start_lt (by simpa using (List.mem_filter.mp hentry).2)
  unclosed := by
    intro entry hentry hopen
    obtain ⟨extent, hmem, rfl⟩ := List.mem_map.mp hentry
    obtain ⟨htag, hopening⟩ := mem_tags_of_mem_extents hmem
    have hopened : extent.entry.OpenedBy extent.opened.tag := ⟨hopening, rfl, rfl⟩
    have hopen : extent.closed = false := hopen
    cases ends_of_mem_extentsFrom horder hmem with
    | unclosed _ hstop => exact ⟨_, htag, hopened, hstop⟩
    | closed _ _ _ _ hclosed _ => exact absurd (hclosed.symm.trans hopen) Bool.false_ne_true.symm
    | leaf _ _ _ hclosed _ => exact absurd (hclosed.symm.trans hopen) Bool.false_ne_true.symm
  closed := by
    intro entry hentry hclosed
    obtain ⟨extent, hmem, rfl⟩ := List.mem_map.mp hentry
    have hclosed : extent.closed = true := hclosed
    cases ends_of_mem_extentsFrom horder hmem with
    | unclosed hopen _ => exact absurd (hclosed.symm.trans hopen) Bool.false_ne_true.symm
    | closed htag hclosing _ _ _ hstop => exact ⟨_, htag, hstop, .inl hclosing⟩
    | leaf htag hopening hleaf _ hstop =>
      exact ⟨_, htag, hstop, .inr ⟨hleaf, Tag.isOpening_iff.mpr hopening, rfl, rfl⟩⟩
  completed := by
    intro tag htag hclosing entry hentry heq
    obtain ⟨extent, hmem, rfl⟩ := List.mem_map.mp hentry
    exact completed_of_stop_eq horder hmem htag hclosing heq
  countP_stop_le := by
    intro tag htag hclosing
    rw [List.countP_map]
    exact countP_stop_eq_le horder htag hclosing
  depth_eq := by
    intro entry hentry
    obtain ⟨extent, hmem, rfl⟩ := List.mem_map.mp hentry
    rw [List.countP_map]
    exact depth_eq_countP horder hmem List.not_mem_nil

end Whole

end Outline

/-! ### The outline of a text -/

/-- An element has from its opening tag what it should. -/
theorem Element.opening_of_ofExtent {table : LineTable} {extent : Outline.Extent}
    {element : Element} (h : ofExtent table extent = .ok element) :
    extent.opened.tag.opening = element.opening := by
  obtain ⟨start, -, h⟩ := bind_eq_ok_iff.mp h
  obtain ⟨stop, -, heq⟩ := bind_eq_ok_iff.mp h
  cases heq
  rfl

/-- **The outline of a scan has one element for each opening tag**, with the name, the start and the
attributes of the tag. -/
theorem Scan.openings_perm {scan : Scan} {elements : List Element}
    (h : scan.outline = .ok elements) :
    (elements.map Element.opening).Perm ((scan.tags.filter Tag.isOpening).map Tag.opening) := by
  have hopenings : (Outline.extents scan.tags).map (fun extent => extent.opened.tag.opening) =
      elements.map Element.opening := by
    rw [← List.forall₂_eq_eq_eq, List.forall₂_map_left_iff, List.forall₂_map_right_iff]
    exact (mapM_eq_ok_iff.mp h).imp fun _ _ => Element.opening_of_ofExtent
  have hperm := (Outline.tags_extentsFrom_perm [] scan.tags).map Tag.opening
  rw [List.map_map] at hperm
  exact hopenings ▸ hperm

/-- **The outline neither loses nor repeats elements, and its depths are the true ones.** The
elements of a text are those of its opening tags, each with the name, the start and the attributes
of its tag. Those that are closed come first, in the order of their ends, and then the others, in
the order of their starts; these stop with their opening tags. With a closing tag stops at most one
element, which has its name and starts before it. The depth of an element is the number of elements
that start before it and are not closed before it starts. -/
theorem Outline.outline_lists_elements (text : Text) :
    ∃ scan elements, Scan.ofText text = .ok scan ∧ scan.outline = .ok elements ∧
      (elements.map Element.opening).Perm ((scan.tags.filter Tag.isOpening).map Tag.opening) ∧
      Listed scan.tags (elements.map Element.entry) := by
  obtain ⟨scan, -, elements, hscan, -, houtline, horder, -, hentries⟩ := exists_results text
  refine ⟨scan, elements, hscan, houtline, Scan.openings_perm houtline, ?_⟩
  rw [hentries]
  exact listed_extents horder

end MarkupLint
