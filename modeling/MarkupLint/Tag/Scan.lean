import MarkupLint.Diagnostic.Finding
import MarkupLint.Tag.Piece
import MarkupLint.Text.LineTable

/-!
# Scans

The scan of a text is what the rules work on: the tags, the diagnostics for tag starts that are
never ended, and the line table by which places are resolved. Usually that is the table of the text
itself; with the table of another text, a scan fails if a place it has to report lies outside it.
-/

namespace MarkupLint

namespace Stub

/-- The diagnostic for a tag start that is never ended. -/
def diagnostic (table : LineTable) (stub : Stub) : Except Fault Diagnostic := do
  let span ← table.span stub.range
  Finding.unterminatedTag.diagnostic span stub.range [("name", stub.tagStart.name)]

end Stub

/-- What was found in a text. -/
structure Scan where
  /-- The text. -/
  text : Text
  /-- The tags, in the order of the text. -/
  tags : List Tag
  /-- The tag starts that are never ended, in the order of the text. -/
  stubs : List Stub
  /-- A diagnostic for each of `stubs`. -/
  diagnostics : List Diagnostic
  /-- The table by which places are resolved. -/
  table : LineTable
deriving DecidableEq, Repr

namespace Scan

/-- The scan of a text whose places are resolved by the given table. -/
def withTable (table : LineTable) (text : Text) : Except Fault Scan := do
  let pieces := Cursor.pieces ⟨0, text⟩
  let stubs := pieces.filterMap Piece.stub?
  let diagnostics ← stubs.mapM (Stub.diagnostic table)
  return ⟨text, pieces.filterMap Piece.tag?, stubs, diagnostics, table⟩

/-- The scan of a text. -/
def ofText (text : Text) : Except Fault Scan := withTable (.ofText text) text

/-- The opening tags, those of void and self-closing elements included. If names are given, only
tags with one of them. -/
def openingTags (scan : Scan) (names : List String) : List Tag :=
  scan.tags.filter fun tag => tag.isOpening && (names.isEmpty || names.contains tag.name)

end Scan

end MarkupLint
