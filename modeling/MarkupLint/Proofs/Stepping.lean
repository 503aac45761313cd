import MarkupLint.Proofs.Recognition
import MarkupLint.Tag.Scanner

/-!
# A scanner gives the scan, however it is asked

A scanner can be asked for the next tag or for all that are left, as often as one likes and in any
order, also when there is nothing left. Every way of asking comes to the same: the tags it gives are
those of the scan, in their order, and the diagnostics it has gathered are those of the scan.

The scanner need not know how it got where it is. `Follows` says what is true of it at any time:
what it has given and what is still in front of its cursor make up the scan, for the tags and for
the diagnostics, and nothing of the text has been lost. A step to the next tag keeps that, so a
drain does, and so does every list of requests. At the end of the text nothing is in front of the
cursor, hence all has been given, and a scanner that stands there stays there.

## Main results

* `Cursor.next?_eq_some_bounds` — where reading goes on behind a piece
* `Scanner.Follows.next_cases` — a step to the next tag
* `Scanner.Follows.serve` — a list of requests
* `Scanner.serve_yields_scan` — what any list of requests gets from a new scanner
-/

namespace MarkupLint

/-- Reading goes on in the same text, and behind a tag it goes on where the tag stops. A tag start
that is never ended was in front of the cursor. -/
theorem Cursor.next?_eq_some_bounds {cursor cursor' : Cursor} {piece : Piece}
    (h : cursor.next? = some (piece, cursor')) :
    cursor'.offset + cursor'.rest.length = cursor.offset + cursor.rest.length ∧
      (∀ tag, piece = .tag tag → (cursor'.offset : ℤ) = tag.stop) ∧
      ∀ stub, piece = .stub stub → cursor.offset ≤ stub.start := by
  obtain ⟨gap, start, rest, htext, -, -, hfound⟩ := exists_of_find?_eq_some h
  have hlength := congrArg List.length htext
  by_cases hgt : '>' ∈ rest
  · obtain ⟨inner, after, rfl, hinner⟩ := List.eq_append_cons_of_mem hgt
    rw [finish_append hinner] at hfound
    cases hfound
    refine ⟨?_, ?_, ?_⟩
    · simp only [List.length_append, List.length_cons] at hlength
      dsimp only
      omega
    · rintro tag ⟨⟩
      simp only [Tag.stop, Tag.ofStart, List.length_append, List.length_singleton]
      omega
    · rintro stub ⟨⟩
  · rw [finish_of_notMem hgt] at hfound
    cases hfound
    refine ⟨?_, ?_, ?_⟩
    · simp only [List.length_append] at hlength
      dsimp only
      omega
    · rintro tag ⟨⟩
    · rintro stub ⟨⟩
      exact Nat.le_add_right _ _

theorem Cursor.pieces_of_rest_eq_nil {cursor : Cursor} (h : cursor.rest = []) :
    cursor.pieces = [] := by
  refine pieces_of_next?_eq_none ?_
  show find? cursor.offset cursor.rest = none
  rw [h, find?]

namespace Scanner

/-! ### Requests -/

/-- What can be asked of a scanner. -/
inductive Request where
  /-- The next tag. -/
  | next
  /-- All tags that are left. -/
  | drain
deriving DecidableEq, Repr

/-- What a scanner answers. -/
inductive Answer where
  /-- The next tag, or none at the end of the text. -/
  | next (tag? : Option Tag)
  /-- All tags that were left. -/
  | drain (tags : List Tag)
deriving DecidableEq, Repr

namespace Answer

/-- The tags in an answer. -/
def tags : Answer → List Tag
  | next tag? => tag?.toList
  | drain tags => tags

/-- Whether the answer says that no tag is left. -/
def isLast : Answer → Bool
  | next tag? => tag?.isNone
  | drain _ => true

/-- The answer without a tag. -/
def nothing : Request → Answer
  | .next => .next none
  | .drain => .drain []

end Answer

/-- The answer to a request, and the scanner behind it. -/
def answer (scanner : Scanner) : Request → Except Fault Answer × Scanner
  | .next => (scanner.next.1.map .next, scanner.next.2)
  | .drain => (scanner.drain.1.map .drain, scanner.drain.2)

/-- The answers to a list of requests, and the scanner behind them. -/
def serve (scanner : Scanner) : List Request → List (Except Fault Answer) × Scanner
  | [] => ([], scanner)
  | request :: later =>
    let (answer, scanner') := scanner.answer request
    let (answers, scanner'') := scanner'.serve later
    (answer :: answers, scanner'')

theorem serve_cons (scanner : Scanner) (request : Request) (later : List Request) :
    scanner.serve (request :: later) =
      ((scanner.answer request).1 :: ((scanner.answer request).2.serve later).1,
        ((scanner.answer request).2.serve later).2) :=
  rfl

/-! ### On the way -/

/-- The scanner is on its way through the text of `scan` and has given the tags `given`. -/
structure Follows (scanner : Scanner) (scan : Scan) (given : List Tag) : Prop where
  /-- Behind its cursor the text goes on to its end. -/
  stop_eq : scanner.cursor.offset + scanner.cursor.rest.length = scan.text.length
  /-- The tags of the scan were given or are still to come. -/
  tags_eq : scan.tags = given ++ scanner.cursor.pieces.filterMap Piece.tag?
  /-- The diagnostics of the scan were gathered or are still to come. -/
  diagnostics_eq : ∃ later, scan.diagnostics = scanner.diagnostics ++ later ∧
    (scanner.cursor.pieces.filterMap Piece.stub?).mapM (Stub.diagnostic scanner.table) = .ok later

theorem follows_start {text : Text} {scan : Scan} (h : Scan.ofText text = .ok scan) :
    (start (.ofText text) text).Follows scan [] := by
  obtain ⟨diagnostics, hdiagnostics, heq⟩ := bind_eq_ok_iff.mp h
  cases heq
  exact ⟨Nat.zero_add _, rfl, diagnostics, rfl, hdiagnostics⟩

namespace Follows

variable {scanner : Scanner} {scan : Scan} {given : List Tag}

theorem position_le (h : scanner.Follows scan given) : scanner.position ≤ scan.text.length := by
  have hstop := h.stop_eq
  rw [position]
  omega

/-- The cursor moves on behind a tag. -/
theorem pass_tag (h : scanner.Follows scan given) {tag : Tag} {cursor : Cursor}
    (hnext : scanner.cursor.next? = some (.tag tag, cursor)) :
    ({ scanner with cursor } : Scanner).Follows scan (given ++ [tag]) := by
  have hpieces := Cursor.pieces_of_next?_eq_some hnext
  obtain ⟨later, hlater, hreport⟩ := h.diagnostics_eq
  rw [hpieces] at hreport
  refine ⟨?_, ?_, later, hlater, hreport⟩
  · exact (Cursor.next?_eq_some_bounds hnext).1.trans h.stop_eq
  · rw [h.tags_eq, hpieces, List.append_assoc]
    rfl

/-- The cursor moves on behind a tag start that is never ended, which is reported. -/
theorem pass_stub (h : scanner.Follows scan given) {stub : Stub} {cursor : Cursor}
    (hnext : scanner.cursor.next? = some (.stub stub, cursor)) :
    ∃ d, stub.diagnostic scanner.table = .ok d ∧
      ({ scanner with cursor, diagnostics := scanner.diagnostics ++ [d] } : Scanner).Follows scan
        given := by
  have hpieces := Cursor.pieces_of_next?_eq_some hnext
  obtain ⟨later, hlater, hreport⟩ := h.diagnostics_eq
  have hstubs : scanner.cursor.pieces.filterMap Piece.stub? =
      stub :: cursor.pieces.filterMap Piece.stub? := by
    rw [hpieces]
    rfl
  rw [hstubs, List.mapM_cons] at hreport
  obtain ⟨d, hd, hreport⟩ := bind_eq_ok_iff.mp hreport
  obtain ⟨later', hreport', heq⟩ := bind_eq_ok_iff.mp hreport
  cases heq
  refine ⟨d, hd, ?_, ?_, later', ?_, hreport'⟩
  · exact (Cursor.next?_eq_some_bounds hnext).1.trans h.stop_eq
  · rw [h.tags_eq, hpieces]
    rfl
  · rw [hlater, List.append_assoc]
    rfl

/-- At the last piece the cursor moves on to the end of the text. -/
theorem finish (h : scanner.Follows scan given) (hnext : scanner.cursor.next? = none) :
    scanner.finished.Follows scan given := by
  have hpieces := Cursor.pieces_of_next?_eq_none hnext
  have hnil : scanner.finished.cursor.pieces = [] := Cursor.pieces_of_rest_eq_nil rfl
  obtain ⟨later, hlater, hreport⟩ := h.diagnostics_eq
  refine ⟨h.stop_eq, ?_, later, hlater, ?_⟩
  · rw [h.tags_eq, hpieces, hnil]
  · rw [hnil, ← hpieces]
    exact hreport

/-- **A step to the next tag.** There is none and the scanner stands at the end, or there is one and
the scanner stands behind it. -/
theorem next_cases (h : scanner.Follows scan given) :
    ∃ tag? scanner', scanner.next = (.ok tag?, scanner') ∧
      scanner'.Follows scan (given ++ tag?.toList) ∧ scanner.position ≤ scanner'.position ∧
      (tag? = none → scanner'.cursor.rest = []) ∧
      ∀ tag, tag? = some tag → (scanner'.position : ℤ) = tag.stop := by
  fun_induction next scanner with
  | case1 scanner hnext =>
    refine ⟨none, scanner.finished, rfl, ?_, Nat.le_add_right _ _, fun _ => rfl, ?_⟩
    · rw [Option.toList_none, List.append_nil]
      exact h.finish hnext
    · rintro tag ⟨⟩
  | case2 scanner tag cursor hnext =>
    obtain ⟨hstop, htag, -⟩ := Cursor.next?_eq_some_bounds hnext
    have hlt := Cursor.next?_length_lt hnext
    refine ⟨some tag, { scanner with cursor }, rfl, h.pass_tag hnext, ?_, ?_, ?_⟩
    · simp only [position]
      omega
    · rintro ⟨⟩
    · rintro tag' ⟨⟩
      exact htag tag rfl
  | case3 scanner stub cursor hnext fault hfault =>
    obtain ⟨d, hd, -⟩ := h.pass_stub hnext
    rw [hfault] at hd
    cases hd
  | case4 scanner stub cursor hnext d hd ih =>
    obtain ⟨d', hd', hpassed⟩ := h.pass_stub hnext
    cases hd.symm.trans hd'
    obtain ⟨tag?, scanner', hresult, hfollows, hle, hlast, htag⟩ := ih hpassed
    have hstop := (Cursor.next?_eq_some_bounds hnext).1
    have hlt := Cursor.next?_length_lt hnext
    refine ⟨tag?, scanner', hresult, hfollows, le_trans ?_ hle, hlast, htag⟩
    simp only [position]
    omega

/-- Taking all tags that are left is stepping to the end. -/
theorem drain (h : scanner.Follows scan given) :
    ∃ tags scanner', scanner.drain = (.ok tags, scanner') ∧
      scanner'.Follows scan (given ++ tags) ∧ scanner.position ≤ scanner'.position ∧
      scanner'.cursor.rest = [] := by
  fun_induction Scanner.drain scanner generalizing given with
  | case1 scanner fault scanner' hnext =>
    obtain ⟨tag?, scanner₁, hstep, -⟩ := h.next_cases
    cases hnext.symm.trans hstep
  | case2 scanner scanner' hnext =>
    obtain ⟨tag?, scanner₁, hstep, hfollows, hle, hlast, -⟩ := h.next_cases
    cases hnext.symm.trans hstep
    exact ⟨[], scanner', rfl, hfollows, hle, hlast rfl⟩
  | case3 scanner tag scanner' hnext tags scanner'' hdrain ih =>
    obtain ⟨tag?, scanner₁, hstep, hfollows, hle, -, -⟩ := h.next_cases
    cases hnext.symm.trans hstep
    obtain ⟨tags', scanner₂, heq, hfinal, hle', hrest⟩ := ih hfollows
    cases hdrain.symm.trans heq
    refine ⟨tag :: tags', scanner'', rfl, ?_, hle.trans hle', hrest⟩
    rw [Option.toList_some, List.append_assoc] at hfinal
    exact hfinal

/-- One request, of either sort. -/
theorem answer (h : scanner.Follows scan given) (request : Request) :
    ∃ answer scanner', scanner.answer request = (.ok answer, scanner') ∧
      scanner'.Follows scan (given ++ answer.tags) ∧ scanner.position ≤ scanner'.position ∧
      (answer.isLast = true → scanner'.cursor.rest = []) ∧
      ∀ tag, answer = .next (some tag) → (scanner'.position : ℤ) = tag.stop := by
  cases request with
  | next =>
    obtain ⟨tag?, scanner', hnext, hfollows, hle, hlast, htag⟩ := h.next_cases
    refine ⟨.next tag?, scanner', by rw [Scanner.answer, hnext]; rfl, hfollows, hle, ?_, ?_⟩
    · exact fun hnone => hlast (Option.isNone_iff_eq_none.mp hnone)
    · rintro tag ⟨⟩
      exact htag tag rfl
  | drain =>
    obtain ⟨tags, scanner', hdrain, hfollows, hle, hrest⟩ := h.drain
    refine ⟨.drain tags, scanner', by rw [Scanner.answer, hdrain]; rfl, hfollows, hle, ?_, ?_⟩
    · exact fun _ => hrest
    · rintro tag ⟨⟩

/-! ### At the end -/

/-- At the end of the text everything was given. -/
theorem complete (h : scanner.Follows scan given) (hrest : scanner.cursor.rest = []) :
    scanner.position = scan.text.length ∧ given = scan.tags ∧
      scanner.diagnostics = scan.diagnostics := by
  have hstop := h.stop_eq
  have hpieces := Cursor.pieces_of_rest_eq_nil hrest
  obtain ⟨later, hlater, hreport⟩ := h.diagnostics_eq
  rw [hpieces] at hreport
  cases hreport
  rw [hrest] at hstop
  refine ⟨hstop, ?_, ?_⟩
  · rw [h.tags_eq, hpieces, List.filterMap_nil, List.append_nil]
  · rw [hlater]
    exact (List.append_nil _).symm

end Follows

section End

variable {scanner : Scanner}

theorem next_of_rest_eq_nil (h : scanner.cursor.rest = []) :
    scanner.next = (.ok none, scanner) := by
  obtain ⟨⟨offset, rest⟩, table, diagnostics⟩ := scanner
  obtain rfl : rest = [] := h
  rw [next_of_none rfl]
  rfl

theorem drain_of_rest_eq_nil (h : scanner.cursor.rest = []) :
    scanner.drain = (.ok [], scanner) :=
  drain_of_none (next_of_rest_eq_nil h)

/-- A scanner at the end of its text stays as it is, and has nothing left to give. -/
theorem serve_of_rest_eq_nil (h : scanner.cursor.rest = []) (requests : List Request) :
    scanner.serve requests = (requests.map fun request => .ok (.nothing request), scanner) := by
  have hanswer : ∀ request, scanner.answer request = (.ok (.nothing request), scanner) := by
    intro request
    cases request with
    | next => rw [answer, next_of_rest_eq_nil h]; rfl
    | drain => rw [answer, drain_of_rest_eq_nil h]; rfl
  induction requests with
  | nil => rfl
  | cons request later ih => rw [serve_cons, hanswer, ih, List.map_cons]

end End

/-! ### Lists of requests -/

/-- **A list of requests.** All of them are granted, and the scanner follows the scan. -/
theorem Follows.serve {scanner : Scanner} {scan : Scan} {given : List Tag}
    (h : scanner.Follows scan given) (requests : List Request) :
    ∃ (answers : List Answer) (scanner' : Scanner),
      scanner.serve requests = (answers.map .ok, scanner') ∧
      scanner'.Follows scan (given ++ answers.flatMap Answer.tags) ∧
      scanner.position ≤ scanner'.position ∧
      ((∃ answer ∈ answers, answer.isLast = true) → scanner'.cursor.rest = []) ∧
      ∀ tag, answers.getLast? = some (.next (some tag)) →
        (scanner'.position : ℤ) = tag.stop := by
  induction requests generalizing scanner given with
  | nil =>
    refine ⟨[], scanner, rfl, ?_, le_rfl, ?_, ?_⟩
    · rwa [List.flatMap_nil, List.append_nil]
    · rintro ⟨answer, hmem, -⟩
      cases hmem
    · rintro tag ⟨⟩
  | cons request later ih =>
    obtain ⟨answer, scanner₁, hanswer, hfollows, hle, hlast, htag⟩ := h.answer request
    obtain ⟨answers, scanner₂, hserve, hfollows', hle', hlast', htag'⟩ := ih hfollows
    refine ⟨answer :: answers, scanner₂, ?_, ?_, hle.trans hle', ?_, ?_⟩
    · rw [serve_cons, hanswer, hserve, List.map_cons]
    · rwa [List.flatMap_cons, ← List.append_assoc]
    · rintro ⟨answer', hmem, hend⟩
      rcases List.mem_cons.mp hmem with rfl | hmem
      · -- the scanner stands at the end already, and stays there
        have hstays := serve_of_rest_eq_nil (hlast hend) later
        rw [hserve] at hstays
        rw [(Prod.mk.inj hstays).2]
        exact hlast hend
      · exact hlast' ⟨answer', hmem, hend⟩
    · intro tag hgetLast
      rcases answers.eq_nil_or_concat' with rfl | ⟨front, last, rfl⟩
      · -- nothing else was asked for
        obtain rfl : later = [] := by
          rcases later with _ | ⟨request', later⟩
          · rfl
          · cases congrArg Prod.fst hserve
        cases hserve
        exact htag tag (Option.some.inj hgetLast)
      · refine htag' tag ?_
        rw [← List.cons_append, List.getLast?_concat] at hgetLast
        rwa [List.getLast?_concat]

/-- What a scanner has done for the given answers, and what it is going to do. -/
structure Yields (scan : Scan) (answers : List Answer) (scanner : Scanner) : Prop where
  /-- The tags it has given are the first of the scan. -/
  tags_isPrefix : answers.flatMap Answer.tags <+: scan.tags
  /-- The diagnostics it has gathered are the first of the scan. -/
  diagnostics_isPrefix : scanner.diagnostics <+: scan.diagnostics
  /-- It stands inside the text. -/
  position_le : scanner.position ≤ scan.text.length
  /-- It never goes back. -/
  le_position : ∀ later, scanner.position ≤ (scanner.serve later).2.position
  /-- Behind a tag that was asked for it stands where the tag stops. -/
  position_eq_stop : ∀ tag, answers.getLast? = some (.next (some tag)) →
    (scanner.position : ℤ) = tag.stop
  /-- Once it has said that no tag is left, it stands at the end of the text with the whole scan
  given, and from then on it gives nothing and does not change. -/
  complete : (∃ answer ∈ answers, answer.isLast = true) →
    scanner.position = scan.text.length ∧ answers.flatMap Answer.tags = scan.tags ∧
      scanner.diagnostics = scan.diagnostics ∧
      ∀ later, scanner.serve later = (later.map fun request => .ok (.nothing request), scanner)

/-- **What any list of requests gets from a new scanner.** All requests are granted, and the answers
are the scan of the text, as far as they go. -/
theorem serve_yields_scan (text : Text) :
    ∃ scan, Scan.ofText text = .ok scan ∧ scan.text = text ∧ ∀ requests, ∃ answers scanner,
      (start (.ofText text) text).serve requests = (answers.map .ok, scanner) ∧
        Yields scan answers scanner := by
  obtain ⟨scan, hscan, htext, -⟩ := Scan.exists_ofText text
  refine ⟨scan, hscan, htext, fun requests => ?_⟩
  obtain ⟨answers, scanner, hserve, hfollows, -, hlast, htag⟩ :=
    (follows_start hscan).serve requests
  rw [List.nil_append] at hfollows
  obtain ⟨later, hlater, -⟩ := hfollows.diagnostics_eq
  refine ⟨answers, scanner, hserve, ⟨_, hfollows.tags_eq.symm⟩, ⟨later, hlater.symm⟩,
    hfollows.position_le, fun requests' => ?_, htag, fun hend => ?_⟩
  · obtain ⟨answers', scanner', hserve', -, hle, -⟩ := hfollows.serve requests'
    rw [hserve']
    exact hle
  · obtain ⟨hposition, htags, hdiagnostics⟩ := hfollows.complete (hlast hend)
    exact ⟨hposition, htags, hdiagnostics, serve_of_rest_eq_nil (hlast hend)⟩

end Scanner

end MarkupLint
