import MarkupLint.Element.Outline
import MarkupLint.Proofs.Reporting

/-!
# The outline has a result

The outline turns the extents of the elements into elements, by looking up two positions for each.
Both lie inside the text if the tags do, so no element is lost, and what an element says besides its
positions and attributes is what its extent says. `Outline.Entry` is that part.

## Main results

* `Outline.bounds_of_mem_extentsFrom` — elements start and stop at tags
* `Scan.exists_outline` — every element is listed, with the entry of its extent
-/

namespace MarkupLint

namespace Outline

/-- An element starts and stops at tags of the text. -/
theorem bounds_of_mem_extentsFrom {table : LineTable} {openers : List Opened} {tags : List Tag}
    (hopeners : ∀ opened ∈ openers, opened.tag.Inside table)
    (htags : ∀ tag ∈ tags, tag.Inside table) {extent : Extent}
    (h : extent ∈ extentsFrom openers tags) :
    extent.opened.tag.Inside table ∧ 0 ≤ extent.stop ∧ extent.stop ≤ table.length := by
  have hstop : ∀ tag : Tag, tag.Inside table → 0 ≤ tag.stop ∧ tag.stop ≤ table.length := by
    rintro tag ⟨hstart, hstop⟩
    exact ⟨by rw [Tag.stop]; omega, hstop⟩
  fun_induction extentsFrom openers tags with
  | case1 openers =>
    obtain ⟨opened, hopened, rfl⟩ := List.mem_map.mp h
    have hinside := hopeners opened (List.mem_reverse.mp hopened)
    exact ⟨hinside, hstop _ hinside⟩
  | case2 openers tag rest hclosing opened hfind ih =>
    have hrest := fun tag' htag' => htags tag' (List.mem_cons_of_mem tag htag')
    rcases List.mem_cons.mp h with rfl | h
    · exact ⟨hopeners opened (List.mem_of_find?_eq_some hfind),
        hstop tag (htags tag List.mem_cons_self)⟩
    · exact ih (fun opened' hmem => hopeners opened' (List.mem_of_mem_eraseP hmem)) hrest h
  | case3 openers tag rest hclosing hfind ih =>
    exact ih hopeners (fun tag' htag' => htags tag' (List.mem_cons_of_mem tag htag')) h
  | case4 openers tag rest hclosing hself ih =>
    have htag := htags tag List.mem_cons_self
    rcases List.mem_cons.mp h with rfl | h
    · exact ⟨htag, hstop tag htag⟩
    · exact ih hopeners (fun tag' htag' => htags tag' (List.mem_cons_of_mem tag htag')) h
  | case5 openers tag rest hclosing hself ih =>
    have hrest := fun tag' htag' => htags tag' (List.mem_cons_of_mem tag htag')
    refine ih (fun opened hmem => ?_) hrest h
    rcases List.mem_cons.mp hmem with rfl | hmem
    · exact htags tag List.mem_cons_self
    · exact hopeners opened hmem

/-- What the outline says about an element, apart from its positions and attributes. -/
structure Entry where
  /-- The name, in small letters. -/
  name : String
  /-- The offset at which the element starts. -/
  start : ℤ
  /-- The offset right behind the element. -/
  stop : ℤ
  /-- How many elements were open when this one was opened. -/
  depth : ℕ
  /-- Whether the element was closed. -/
  closed : Bool
deriving DecidableEq, Repr

/-- The entry of an extent. -/
def Extent.entry (extent : Extent) : Entry :=
  ⟨extent.opened.tag.name, extent.opened.tag.start, extent.stop, extent.opened.depth, extent.closed⟩

end Outline

/-- The entry of an element. -/
def Element.entry (element : Element) : Outline.Entry :=
  ⟨element.name, element.start, element.stop, element.depth, element.closed⟩

theorem Element.exists_ofExtent {table : LineTable} {extent : Outline.Extent}
    (hopened : extent.opened.tag.Inside table) (hzero : 0 ≤ extent.stop)
    (hle : extent.stop ≤ table.length) :
    ∃ element, ofExtent table extent = .ok element ∧ extent.entry = element.entry := by
  have hfirst := LineTable.position_of_le hopened.1 hopened.start_le
  have hlast := LineTable.position_of_le hzero hle
  exact ⟨_, bind_eq_ok_iff.mpr ⟨_, hfirst, bind_eq_ok_iff.mpr ⟨_, hlast, rfl⟩⟩, rfl⟩

/-- **Every element is listed**, in the order of the extents. -/
theorem Scan.exists_outline {scan : Scan} (h : ∀ tag ∈ scan.tags, tag.Inside scan.table) :
    ∃ elements, scan.outline = .ok elements ∧
      elements.map Element.entry = (Outline.extents scan.tags).map Outline.Extent.entry := by
  have hlisted : ∀ extent ∈ Outline.extents scan.tags, ∃ element,
      Element.ofExtent scan.table extent = .ok element ∧ extent.entry = element.entry := by
    intro extent hmem
    obtain ⟨hopened, hzero, hle⟩ := Outline.bounds_of_mem_extentsFrom
      (fun opened hopened => (by cases hopened)) h hmem
    exact Element.exists_ofExtent hopened hzero hle
  obtain ⟨elements, helements, hentries⟩ := exists_mapM_forall₂ hlisted
  refine ⟨elements, helements, ?_⟩
  rw [eq_comm, ← List.forall₂_eq_eq_eq, List.forall₂_map_left_iff, List.forall₂_map_right_iff]
  exact hentries

end MarkupLint
