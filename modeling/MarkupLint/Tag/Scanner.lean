import MarkupLint.Tag.Scan

/-!
# Scanning step by step

A `Scanner` is a scan under way. `next` advances to the next tag and reports the tag starts it
passes; `drain` takes all tags that are left.

A scanner may resolve places by the table of another text and so fail to report a tag start. It then
stays in front of that tag start, with everything before it reported, and will fail there again.
-/

namespace MarkupLint

/-- A scan under way. -/
structure Scanner where
  /-- How far the text was read. -/
  cursor : Cursor
  /-- The table by which places are resolved. -/
  table : LineTable
  /-- The diagnostics so far. -/
  diagnostics : List Diagnostic
deriving DecidableEq, Repr

namespace Scanner

/-- The scanner at the beginning of a text, with the table by which it resolves places. -/
def start (table : LineTable) (text : Text) : Scanner := ⟨⟨0, text⟩, table, []⟩

/-- The offset up to which the text was read. -/
def position (scanner : Scanner) : Nat := scanner.cursor.offset

/-- A scanner at the end of its text. -/
def finished (scanner : Scanner) : Scanner :=
  { scanner with cursor := ⟨scanner.cursor.offset + scanner.cursor.rest.length, []⟩ }

/-- Advances to the next tag and returns it, or none at the end of the text. -/
def next (scanner : Scanner) : Except Fault (Option Tag) × Scanner :=
  match _ : scanner.cursor.next? with
  | none => (.ok none, scanner.finished)
  | some (.tag tag, cursor) => (.ok (some tag), { scanner with cursor })
  | some (.stub stub, cursor) =>
    match stub.diagnostic scanner.table with
    | .error fault => (.error fault, scanner)
    | .ok d => next { scanner with cursor, diagnostics := scanner.diagnostics ++ [d] }
termination_by scanner.cursor.rest.length
decreasing_by exact Cursor.next?_length_lt ‹_›

theorem next_of_none {scanner : Scanner} (h : scanner.cursor.next? = none) :
    scanner.next = (.ok none, scanner.finished) := by
  rw [next]
  split <;> simp_all

theorem next_of_tag {scanner : Scanner} {tag : Tag} {cursor : Cursor}
    (h : scanner.cursor.next? = some (.tag tag, cursor)) :
    scanner.next = (.ok (some tag), { scanner with cursor }) := by
  rw [next]
  split <;> simp_all

theorem next_of_stub {scanner : Scanner} {stub : Stub} {cursor : Cursor} {d : Diagnostic}
    (h : scanner.cursor.next? = some (.stub stub, cursor))
    (hd : stub.diagnostic scanner.table = .ok d) :
    scanner.next = next { scanner with cursor, diagnostics := scanner.diagnostics ++ [d] } := by
  rw [next]
  split <;> simp_all

theorem next_of_fault {scanner : Scanner} {stub : Stub} {cursor : Cursor} {fault : Fault}
    (h : scanner.cursor.next? = some (.stub stub, cursor))
    (hd : stub.diagnostic scanner.table = .error fault) :
    scanner.next = (.error fault, scanner) := by
  rw [next]
  split <;> simp_all

/-- A tag is only returned by a scanner that has less text left. -/
theorem next_length_lt {scanner scanner' : Scanner} {tag : Tag}
    (h : scanner.next = (.ok (some tag), scanner')) :
    scanner'.cursor.rest.length < scanner.cursor.rest.length := by
  fun_induction next scanner with
  | case1 => simp at h
  | case2 scanner tag cursor hnext =>
    simp only [Prod.mk.injEq] at h
    rw [← h.2]
    exact Cursor.next?_length_lt hnext
  | case3 => simp at h
  | case4 scanner stub cursor hnext d hd ih =>
    exact Nat.lt_trans (ih h) (Cursor.next?_length_lt hnext)

/-- Takes all tags that are left. After a fault the tags before it are lost. -/
def drain (scanner : Scanner) : Except Fault (List Tag) × Scanner :=
  match _ : scanner.next with
  | (.error fault, scanner') => (.error fault, scanner')
  | (.ok none, scanner') => (.ok [], scanner')
  | (.ok (some tag), scanner') =>
    let (tags, scanner'') := scanner'.drain
    (tags.map (tag :: ·), scanner'')
termination_by scanner.cursor.rest.length
decreasing_by exact next_length_lt ‹_›

theorem drain_of_error {scanner scanner' : Scanner} {fault : Fault}
    (h : scanner.next = (.error fault, scanner')) : scanner.drain = (.error fault, scanner') := by
  rw [drain]
  split <;> simp_all

theorem drain_of_none {scanner scanner' : Scanner} (h : scanner.next = (.ok none, scanner')) :
    scanner.drain = (.ok [], scanner') := by
  rw [drain]
  split <;> simp_all

theorem drain_of_tag {scanner scanner' : Scanner} {tag : Tag}
    (h : scanner.next = (.ok (some tag), scanner')) :
    scanner.drain = (scanner'.drain.1.map (tag :: ·), scanner'.drain.2) := by
  rw [drain]
  split <;> simp_all

end Scanner

end MarkupLint
