import MarkupLint.Proofs.Notices
import MarkupLint.Proofs.Stepping

/-!
# A scanner with the table of another text

A scanner resolves the places it reports by a table, and nobody makes sure that it is the table of
the text it reads. With another table the places may be wrong, and a place that the other text does
not have cannot be resolved at all. This file shows that nothing worse can happen.

Two scanners on the same text are run side by side, one with the table of the text and one with any
other. The tags do not depend on the table, so the cursors stay together (`Shadows`), until the
second scanner comes to a tag start that it has to report and that ends outside the other text
(`Stalls`). There it fails. It has gathered what came before, but its cursor still stands in front
of that tag start, so the next request fails in the same way, and all others do.

A request for all tags that are left fails in the middle of its work, with some steps done. What it
has done is kept and not done again: `Agree` compares the results of both scanners with the states
that they are left in, and holds of a step, of a drain and of an answer.

## Main results

* `Stub.diagnostic_eq_error_iff` — which tag starts cannot be reported
* `Scanner.Stalls.serve` — a scanner that has failed stays as it is
* `Scanner.Shadows.next`, `Scanner.Shadows.drain` — a step, and all steps, side by side
* `Scanner.serve_with_other_table` — what any list of requests gets
-/

namespace MarkupLint

/-! ### Places outside a text -/

/-- The bound of a range that is found to lie outside a text of the given length: the first, if it
does. -/
def Range.outerBound (range : Range) (length : ℕ) : ℕ :=
  if length < range.start then range.start else range.stop

namespace LineTable

variable {table : LineTable} {range : Range}

theorem position_of_lt {offset : ℕ} (h : table.length < offset) :
    table.position offset = .error (.offsetOutside offset table.length) := by
  rw [position, if_pos (by omega)]

/-- A range that ends outside the text has no span. -/
theorem span_of_lt_stop (h : table.length < range.stop) :
    table.span range = .error (.offsetOutside (range.outerBound table.length) table.length) := by
  rw [span, Range.outerBound]
  by_cases hstart : table.length < range.start
  · rw [position_of_lt hstart, if_pos hstart]
    rfl
  · rw [position_of_le (Int.natCast_nonneg _) (by omega), position_of_lt h, if_neg hstart]
    rfl

end LineTable

/-- **Which tag starts cannot be reported:** those that end outside the text of the table. -/
theorem Stub.diagnostic_eq_error_iff {table : LineTable} {stub : Stub} {fault : Fault} :
    stub.diagnostic table = .error fault ↔ table.length < stub.stop ∧
      fault = .offsetOutside (stub.range.outerBound table.length) table.length := by
  by_cases hstop : table.length < stub.stop
  · rw [Stub.diagnostic, LineTable.span_of_lt_stop hstop]
    exact ⟨fun h => ⟨hstop, (Except.error.inj h).symm⟩, fun h => congrArg Except.error h.2.symm⟩
  · obtain ⟨d, hd, -⟩ := Stub.diagnostic_of_stop_le (Nat.not_lt.mp hstop)
    rw [hd]
    exact iff_of_false (by rintro ⟨⟩) (fun h => hstop h.1)

theorem Stub.stop_le_of_diagnostic {table : LineTable} {stub : Stub} {d : Diagnostic}
    (h : stub.diagnostic table = .ok d) : stub.stop ≤ table.length := by
  by_contra hlt
  rw [Stub.diagnostic_eq_error_iff.mpr ⟨Nat.not_le.mp hlt, rfl⟩] at h
  cases h

namespace Scanner

theorem serve_append (scanner : Scanner) (first later : List Request) :
    scanner.serve (first ++ later) =
      ((scanner.serve first).1 ++ ((scanner.serve first).2.serve later).1,
        ((scanner.serve first).2.serve later).2) := by
  induction first generalizing scanner with
  | nil => rfl
  | cons request first ih =>
    rw [List.cons_append, serve_cons, ih, serve_cons]
    rfl

/-! ### Side by side, and left behind -/

/-- The scanner has reported the given tag starts of `scan`, and the others are still to come. -/
structure HasReported (scanner : Scanner) (scan : Scan) (reported : List Stub) : Prop where
  stubs_eq : scan.stubs = reported ++ scanner.cursor.pieces.filterMap Piece.stub?
  diagnostics_eq : reported.mapM (Stub.diagnostic scanner.table) = .ok scanner.diagnostics

/-- The scanner, which goes by `table`, has come as far as another one on its way through `scan`. -/
structure Shadows (scanner own : Scanner) (table : LineTable) (scan : Scan) : Prop where
  follows : ∃ given, own.Follows scan given
  cursor_eq : scanner.cursor = own.cursor
  table_eq : scanner.table = table
  reported : ∃ reported, scanner.HasReported scan reported

/-- The scanner stands in front of a tag start that it cannot report by `table`. -/
structure Stalls (scanner : Scanner) (table : LineTable) (scan : Scan) (fault : Fault) : Prop where
  table_eq : scanner.table = table
  reported : ∃ reported, scanner.HasReported scan reported
  next?_eq : ∃ stub cursor, scanner.cursor.next? = some (.stub stub, cursor) ∧
    stub.diagnostic table = .error fault

/-- The results of two scanners that were side by side: the same, and they still are; or the first
has failed. -/
inductive Agree (table : LineTable) (scan : Scan) {α : Type} :
    Except Fault α × Scanner → Except Fault α × Scanner → Prop
  | granted {scanner own : Scanner} (result : α) (h : scanner.Shadows own table scan) :
    Agree table scan (.ok result, scanner) (.ok result, own)
  | refused {scanner : Scanner} {fault : Fault} {result : Except Fault α × Scanner}
    (h : scanner.Stalls table scan fault) : Agree table scan (.error fault, scanner) result

section

variable {scanner own : Scanner} {table : LineTable} {scan : Scan}

/-- What is made of the results does not matter. -/
theorem Agree.map {α β : Type} {first second : Except Fault α × Scanner}
    (h : Agree table scan first second) (f : α → β) :
    Agree table scan (first.1.map f, first.2) (second.1.map f, second.2) := by
  cases h with
  | granted result h => exact .granted (f result) h
  | refused h => exact .refused h

namespace HasReported

variable {reported : List Stub}

theorem pass_tag (h : scanner.HasReported scan reported) {tag : Tag} {cursor : Cursor}
    (hnext : scanner.cursor.next? = some (.tag tag, cursor)) :
    ({ scanner with cursor } : Scanner).HasReported scan reported := by
  refine ⟨?_, h.diagnostics_eq⟩
  rw [h.stubs_eq, Cursor.pieces_of_next?_eq_some hnext]
  rfl

theorem stubs_eq_of_stub (h : scanner.HasReported scan reported) {stub : Stub} {cursor : Cursor}
    (hnext : scanner.cursor.next? = some (.stub stub, cursor)) :
    scan.stubs = reported ++ stub :: cursor.pieces.filterMap Piece.stub? := by
  rw [h.stubs_eq, Cursor.pieces_of_next?_eq_some hnext]
  rfl

theorem pass_stub (h : scanner.HasReported scan reported) {stub : Stub} {cursor : Cursor}
    (hnext : scanner.cursor.next? = some (.stub stub, cursor)) {d : Diagnostic}
    (hd : stub.diagnostic scanner.table = .ok d) :
    ({ scanner with cursor, diagnostics := scanner.diagnostics ++ [d] } : Scanner).HasReported scan
      (reported ++ [stub]) := by
  refine ⟨?_, ?_⟩
  · rw [h.stubs_eq_of_stub hnext, List.append_assoc]
    rfl
  · rw [List.mapM_append, h.diagnostics_eq, List.mapM_cons, hd]
    rfl

theorem finish (h : scanner.HasReported scan reported) (hnext : scanner.cursor.next? = none) :
    scanner.finished.HasReported scan reported := by
  refine ⟨?_, h.diagnostics_eq⟩
  rw [h.stubs_eq, Cursor.pieces_of_next?_eq_none hnext, Cursor.pieces_of_rest_eq_nil rfl]

/-- What was reported has a place in the text of the table. -/
theorem stop_le (h : scanner.HasReported scan reported) :
    ∀ stub ∈ reported, stub.stop ≤ scanner.table.length := by
  intro stub hstub
  obtain ⟨d, -, hd⟩ := exists_mem_of_forall₂ (mapM_eq_ok_iff.mp h.diagnostics_eq).flip hstub
  exact Stub.stop_le_of_diagnostic hd

end HasReported

/-! ### A scanner that has failed -/

namespace Stalls

variable {fault : Fault}

theorem next (h : scanner.Stalls table scan fault) : scanner.next = (.error fault, scanner) := by
  obtain ⟨stub, cursor, hnext, hfault⟩ := h.next?_eq
  exact next_of_fault hnext (h.table_eq ▸ hfault)

theorem answer (h : scanner.Stalls table scan fault) (request : Request) :
    scanner.answer request = (.error fault, scanner) := by
  cases request with
  | next => rw [Scanner.answer, h.next]; rfl
  | drain => rw [Scanner.answer, drain_of_error h.next]; rfl

/-- **A scanner that has failed stays as it is,** and fails again. -/
theorem serve (h : scanner.Stalls table scan fault) (requests : List Request) :
    scanner.serve requests = (requests.map fun _ => .error fault, scanner) := by
  induction requests with
  | nil => rfl
  | cons request later ih => rw [serve_cons, h.answer, ih, List.map_cons]

end Stalls

/-! ### Steps side by side -/

namespace Shadows

/-- **A step to the next tag, side by side.** -/
theorem next (h : scanner.Shadows own table scan) : Agree table scan scanner.next own.next := by
  fun_induction Scanner.next scanner generalizing own with
  | case1 scanner hnext =>
    obtain ⟨⟨given, hfollows⟩, hcursor, htable, reported, hreported⟩ := h
    have hown : own.cursor.next? = none := hcursor ▸ hnext
    rw [next_of_none hown]
    refine .granted none ⟨⟨given, hfollows.finish hown⟩, ?_, htable, reported, ?_⟩
    · rw [finished, finished, hcursor]
    · exact hreported.finish hnext
  | case2 scanner tag cursor hnext =>
    obtain ⟨⟨given, hfollows⟩, hcursor, htable, reported, hreported⟩ := h
    have hown : own.cursor.next? = some (.tag tag, cursor) := hcursor ▸ hnext
    rw [next_of_tag hown]
    exact .granted (some tag)
      ⟨⟨_, hfollows.pass_tag hown⟩, rfl, htable, reported, hreported.pass_tag hnext⟩
  | case3 scanner stub cursor hnext fault hfault =>
    exact .refused ⟨h.table_eq, h.reported, stub, cursor, hnext, h.table_eq ▸ hfault⟩
  | case4 scanner stub cursor hnext d hd ih =>
    obtain ⟨⟨given, hfollows⟩, hcursor, htable, reported, hreported⟩ := h
    have hown : own.cursor.next? = some (.stub stub, cursor) := hcursor ▸ hnext
    -- both report the tag start, each by its own table
    obtain ⟨d', hd', hpassed⟩ := hfollows.pass_stub hown
    rw [next_of_stub hown hd']
    exact ih ⟨⟨given, hpassed⟩, rfl, htable, _, hreported.pass_stub hnext hd⟩

/-- Taking all tags that are left, side by side. -/
theorem drain (h : scanner.Shadows own table scan) : Agree table scan scanner.drain own.drain := by
  have hstep := h.next
  fun_induction Scanner.drain scanner generalizing own with
  | case1 scanner fault scanner' hnext =>
    rw [hnext] at hstep
    cases hstep with
    | refused hstalls =>
      -- the tags before the fault are lost, but not the state behind them
      exact .refused hstalls
  | case2 scanner scanner' hnext =>
    rw [hnext] at hstep
    generalize hown : own.next = step at hstep
    cases hstep with
    | granted _ hshadows =>
      rw [drain_of_none hown]
      exact .granted [] hshadows
  | case3 scanner tag scanner' hnext tags scanner'' hdrain ih =>
    rw [hnext] at hstep
    generalize hown : own.next = step at hstep
    cases hstep with
    | granted _ hshadows =>
      have hrest := (ih hshadows hshadows.next).map (tag :: ·)
      rw [hdrain] at hrest
      rw [drain_of_tag hown]
      exact hrest

theorem answer (h : scanner.Shadows own table scan) (request : Request) :
    Agree table scan (scanner.answer request) (own.answer request) := by
  cases request with
  | next => exact h.next.map _
  | drain => exact h.drain.map _

/-- **A list of requests, side by side.** All of them are granted to both scanners, or the first
scanner fails at one of them. -/
theorem serve (h : scanner.Shadows own table scan) (requests : List Request) :
    (∃ (answers : List Answer) (scanner' own' : Scanner),
      own.serve requests = (answers.map .ok, own') ∧
      scanner.serve requests = (answers.map .ok, scanner') ∧ scanner'.Shadows own' table scan) ∨
    ∃ (granted : List Request) (request : Request) (later : List Request) (answers : List Answer)
      (scanner' own' : Scanner) (fault : Fault), requests = granted ++ request :: later ∧
      own.serve granted = (answers.map .ok, own') ∧
      scanner.serve (granted ++ [request]) = (answers.map .ok ++ [.error fault], scanner') ∧
      scanner'.Stalls table scan fault := by
  induction requests generalizing scanner own with
  | nil => exact .inl ⟨[], scanner, own, rfl, rfl, h⟩
  | cons request later ih =>
    have hanswers := h.answer request
    generalize hfirst : scanner.answer request = first at hanswers
    generalize hsecond : own.answer request = second at hanswers
    cases hanswers with
    | granted answer hshadows =>
      rcases ih hshadows with ⟨answers, scanner', own', hown, hserve, hlast⟩ |
        ⟨granted, request', later', answers, scanner', own', fault, rfl, hown, hserve, hstalls⟩
      · refine .inl ⟨answer :: answers, scanner', own', ?_, ?_, hlast⟩
        · rw [serve_cons, hsecond, hown, List.map_cons]
        · rw [serve_cons, hfirst, hserve, List.map_cons]
      · refine .inr ⟨request :: granted, request', later', answer :: answers, scanner', own', fault,
          rfl, ?_, ?_, hstalls⟩
        · rw [serve_cons, hsecond, hown, List.map_cons]
        · rw [List.cons_append, serve_cons, hfirst, hserve, List.map_cons, List.cons_append]
    | refused hstalls =>
      refine .inr ⟨[], request, later, [], _, own, _, rfl, rfl, ?_, hstalls⟩
      rw [List.nil_append, serve_cons, hfirst]
      rfl

end Shadows

end

theorem shadows_start {text : Text} {scan : Scan} (h : Scan.ofText text = .ok scan)
    (table : LineTable) : (start table text).Shadows (start (.ofText text) text) table scan := by
  refine ⟨⟨[], follows_start h⟩, rfl, rfl, [], ?_, rfl⟩
  obtain ⟨diagnostics, -, heq⟩ := bind_eq_ok_iff.mp h
  cases heq
  rfl

/-- The scanner, with the table of `other`, has given the same answers as the one with the table of
its text. -/
structure KeepsUp (scan : Scan) (other : Text) (answers : List Answer) (scanner own : Scanner) :
    Prop where
  position_eq : scanner.position = own.position
  /-- It has reported the first tag starts, which end inside `other`. Once it has said that no tag
  is left, these are all. -/
  reported : ∃ reported, reported <+: scan.stubs ∧ (∀ stub ∈ reported, stub.stop ≤ other.length) ∧
    reported.mapM (Stub.diagnostic (.ofText other)) = .ok scanner.diagnostics ∧
    ((∃ answer ∈ answers, answer.isLast = true) → reported = scan.stubs)

/-- The scanner, with the table of `other`, has failed at a tag start, with those before it
reported. -/
structure FailsAt (scan : Scan) (other : Text) (scanner : Scanner) (fault : Fault)
    (before : List Stub) (stub : Stub) (after : List Stub) : Prop where
  stubs_eq : scan.stubs = before ++ stub :: after
  /-- It ends outside `other`, and is the first to do so. -/
  length_lt_stop : other.length < stub.stop
  stop_le : ∀ stub' ∈ before, stub'.stop ≤ other.length
  fault_eq : fault = .offsetOutside (stub.range.outerBound other.length) other.length
  /-- The scanner stands in front of it. -/
  position_le : scanner.position ≤ stub.start
  diagnostics_eq : before.mapM (Stub.diagnostic (.ofText other)) = .ok scanner.diagnostics
  /-- From then on every request fails in the same way, and the scanner does not change. -/
  stays : ∀ later, scanner.serve later = (later.map fun _ => .error fault, scanner)

section

variable {scanner own : Scanner} {other : Text} {scan : Scan}

theorem Stalls.exists_failsAt {fault : Fault} (h : scanner.Stalls (.ofText other) scan fault) :
    ∃ before stub after, FailsAt scan other scanner fault before stub after := by
  obtain ⟨before, hreported⟩ := h.reported
  obtain ⟨stub, cursor, hnext, hdiagnostic⟩ := h.next?_eq
  obtain ⟨hlt, hfault⟩ := Stub.diagnostic_eq_error_iff.mp hdiagnostic
  obtain ⟨-, -, hposition⟩ := Cursor.next?_eq_some_bounds hnext
  have hstop := hreported.stop_le
  have hdiagnostics := hreported.diagnostics_eq
  rw [h.table_eq] at hstop hdiagnostics
  exact ⟨before, stub, _, hreported.stubs_eq_of_stub hnext, hlt, hstop, hfault,
    hposition stub rfl, hdiagnostics, h.serve⟩

theorem Shadows.keepsUp {answers : List Answer} (h : scanner.Shadows own (.ofText other) scan)
    (hlast : (∃ answer ∈ answers, answer.isLast = true) → own.cursor.rest = []) :
    KeepsUp scan other answers scanner own := by
  obtain ⟨reported, hreported⟩ := h.reported
  have hstop := hreported.stop_le
  have hdiagnostics := hreported.diagnostics_eq
  rw [h.table_eq] at hstop hdiagnostics
  refine ⟨congrArg Cursor.offset h.cursor_eq, reported, ⟨_, hreported.stubs_eq.symm⟩, hstop,
    hdiagnostics, fun hend => ?_⟩
  rw [hreported.stubs_eq, Cursor.pieces_of_rest_eq_nil (h.cursor_eq ▸ hlast hend),
    List.filterMap_nil, List.append_nil]

end

/-- **What any list of requests gets from a scanner with the table of another text.** It gets what
it gets with the table of the text itself, up to the first request that comes to a tag start outside
the other text. That request fails, and all later ones do. -/
theorem serve_with_other_table (text other : Text) :
    ∃ scan, Scan.ofText text = .ok scan ∧ ∀ requests,
      (∃ (answers : List Answer) (scanner own : Scanner),
        (start (.ofText text) text).serve requests = (answers.map .ok, own) ∧
        (start (.ofText other) text).serve requests = (answers.map .ok, scanner) ∧
        KeepsUp scan other answers scanner own) ∨
      ∃ (granted : List Request) (request : Request) (later : List Request)
        (answers : List Answer) (scanner own : Scanner) (fault : Fault)
        (before : List Stub) (stub : Stub) (after : List Stub),
        requests = granted ++ request :: later ∧
        (start (.ofText text) text).serve granted = (answers.map .ok, own) ∧
        (start (.ofText other) text).serve (granted ++ [request]) =
          (answers.map .ok ++ [.error fault], scanner) ∧
        (start (.ofText other) text).serve requests =
          (answers.map .ok ++ .error fault :: later.map fun _ => .error fault, scanner) ∧
        FailsAt scan other scanner fault before stub after := by
  obtain ⟨scan, hscan, -⟩ := Scan.exists_ofText text
  refine ⟨scan, hscan, fun requests => ?_⟩
  rcases (shadows_start hscan (.ofText other)).serve requests with
    ⟨answers, scanner, own, hown, hserve, hshadows⟩ |
    ⟨granted, request, later, answers, scanner, own, fault, rfl, hown, hserve, hstalls⟩
  · refine .inl ⟨answers, scanner, own, hown, hserve, hshadows.keepsUp ?_⟩
    obtain ⟨answers', own', hown', -, -, hlast, -⟩ := (follows_start hscan).serve requests
    obtain ⟨hanswers, rfl⟩ := Prod.mk.inj (hown.symm.trans hown')
    rwa [List.map_injective_iff.mpr (fun _ _ => Except.ok.inj) hanswers]
  · obtain ⟨before, stub, after, hfails⟩ := hstalls.exists_failsAt
    refine .inr ⟨granted, request, later, answers, scanner, own, fault, before, stub, after, rfl,
      hown, hserve, ?_, hfails⟩
    rw [List.append_cons, serve_append, hserve, hfails.stays, List.append_assoc]
    rfl

end Scanner

end MarkupLint
