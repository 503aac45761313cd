import Mathlib.Data.Nat.Notation
import MarkupLint.Attribute.Reader

/-!
# Attributes lie inside their tags

An attribute tells where it starts and how long it is, both counted in its tag. Neither is measured
when it is used, so a place that lay outside the tag would be noticed only much later, if at all.
This file shows that there is none: attributes start where the reader stands, they take up what is
read, and the reader never leaves the text it was given.

The last step is the same for every tag, whether a scan made it or not. A tag whose name is longer
than its text has no attribute text left, and so it has no attributes either.

## Main results

* `Attribute.bounds_of_mem_readAll` — attributes lie inside the text they are read from
* `Tag.attribute_stop_le` — attributes lie inside their tags
-/

namespace MarkupLint

namespace Attribute

theorem bounds_of_mem_readAll {offset : ℕ} {text : Text} {attr : Attribute}
    (h : attr ∈ readAll offset text) :
    offset ≤ attr.offset ∧ attr.offset + attr.length ≤ offset + text.length := by
  fun_induction readAll offset text with
  | case1 offset => cases h
  | case2 offset c text hc found ih =>
    have hlt : found.2.length < (c :: text).length := readAt_length_lt hc
    have hlength : found.1.length = (c :: text).length - found.2.length := rfl
    rcases List.mem_cons.mp h with rfl | h
    · have hoffset : found.1.offset = offset := rfl
      omega
    · have hlater := ih h
      omega
  | case3 offset c text hc ih =>
    have hlater := ih h
    rw [List.length_cons]
    omega

end Attribute

namespace Tag

theorem length_attributeText_le (tag : Tag) :
    tag.attributeText.length ≤ tag.raw.length - 1 - tag.attributeOffset := by
  have hbody : (tag.raw.dropLast.drop tag.attributeOffset).length =
      tag.raw.length - 1 - tag.attributeOffset := by
    rw [List.length_drop, List.length_dropLast]
  unfold attributeText
  dsimp only
  split
  · rw [List.length_dropLast]
    omega
  · omega

theorem attribute_stop_lt {tag : Tag} {attr : Attribute} (h : attr ∈ tag.attributes) :
    attr.offset + attr.length < tag.raw.length := by
  have hbounds := Attribute.bounds_of_mem_readAll h
  have htext := tag.length_attributeText_le
  have hne : tag.attributeText ≠ [] := by
    intro hnil
    rw [attributes, hnil, Attribute.readAll_nil] at h
    cases h
  have hpos := List.length_pos_iff.mpr hne
  omega

/-- **Attributes lie inside their tags.** -/
theorem attribute_stop_le {tag : Tag} {attr : Attribute} (h : attr ∈ tag.attributes) :
    attr.offset + attr.length ≤ tag.raw.length :=
  Nat.le_of_lt (attribute_stop_lt h)

theorem attribute_offset_pos {tag : Tag} {attr : Attribute} (h : attr ∈ tag.attributes) :
    0 < attr.offset := by
  have hoffset : 0 < tag.attributeOffset := by
    unfold attributeOffset
    split <;> omega
  exact Nat.lt_of_lt_of_le hoffset (Attribute.bounds_of_mem_readAll h).1

end Tag

end MarkupLint
