import Mathlib.Data.Nat.Notation
import Mathlib.Tactic.SplitIfs
import MarkupLint.Json

/-!
# Reading JSON

A value that was written is worth something only if it can be read again. This file has a reader for
JSON and shows that it gets back every value from what `Json.write` makes of it. So two values that
are written alike are the same, and nothing of a value is lost by the line breaks, the indentation
or the escapes.

The reader works in two stages, and neither looks ahead. The first goes over the characters and puts
out tokens. Its `Mode` says what the last characters were part of; inside a string this is the text
so far, and perhaps half of a character that is given by two code units. The second goes over the
tokens. Its `State` says what may come next, and holds the arrays and objects around it.

Both stages are shown to be right in the same way. Reading what is written of a value, and then some
more, comes to the same as putting out the tokens of the value, or putting the value in its place,
and then going on. This follows the value, one case for each sort.

## Main results

* `Json.lexFrom_escape`, `Json.lexFrom_writeString` — the strings
* `Json.lexFrom_writeAt` — the tokens of a value that was written
* `Json.run_tokens` — the value of its tokens
* `Json.read?_write` — what is written can be read again
-/

namespace MarkupLint

namespace Json

/-! ### Characters and tokens -/

/-- The smallest parts of a text in JSON. -/
inductive Token where
  | openArr
  | closeArr
  | openObj
  | closeObj
  | comma
  | colon
  | null
  | num (n : ℕ)
  | str (s : String)
deriving DecidableEq, Repr

/-- What the characters read last are part of. -/
inductive Mode where
  /-- Nothing: a token may start. -/
  | between
  /-- A number. -/
  | number (n : ℕ)
  /-- A word, with these letters still to come. -/
  | word (letters : Text)
  /-- A string. It may have come to the first half of a character. -/
  | string (text : Text) (half : Option ℕ)
  /-- An escape in a string. -/
  | escape (text : Text) (half : Option ℕ)
  /-- A code unit in a string, with so many digits still to come. -/
  | unit (text : Text) (half : Option ℕ) (count value : ℕ)
deriving DecidableEq, Repr

/-- The digit that a character is, up to base sixteen. -/
def digit? (c : Char) : Option ℕ :=
  if '0' ≤ c && c ≤ '9' then some (c.toNat - '0'.toNat)
  else if 'a' ≤ c && c ≤ 'f' then some (c.toNat - 'a'.toNat + 10)
  else if 'A' ≤ c && c ≤ 'F' then some (c.toNat - 'A'.toNat + 10)
  else none

/-- The character that is meant by one behind a backslash. -/
def escaped? : Char → Option Char
  | '\x22' => some '\x22'
  | '\\' => some '\\'
  | '/' => some '/'
  | 'n' => some '\n'
  | 'r' => some '\r'
  | 't' => some '\t'
  | 'f' => some '\x0c'
  | 'b' => some '\x08'
  | _ => none

namespace Mode

/-- Goes on from between two tokens. -/
def start (c : Char) : Option (List Token × Mode) :=
  if c.isDigit then (digit? c).map fun digit => ([], number digit)
  else match c with
    | ' ' => some ([], between)
    | '\n' => some ([], between)
    | '\r' => some ([], between)
    | '\t' => some ([], between)
    | '[' => some ([.openArr], between)
    | ']' => some ([.closeArr], between)
    | '\x7b' => some ([.openObj], between)
    | '\x7d' => some ([.closeObj], between)
    | ',' => some ([.comma], between)
    | ':' => some ([.colon], between)
    | 'n' => some ([], word ['u', 'l', 'l'])
    | '\x22' => some ([], string [] none)
    | _ => none

/-- Takes a code unit into a string. A character may need two of them, and these come in order. -/
def take (text : Text) : Option ℕ → ℕ → Option Mode
  | none, n =>
    if 0xD800 ≤ n && n < 0xDC00 then some (string text (some n))
    else if 0xDC00 ≤ n && n < 0xE000 then none
    else some (string (text ++ [Char.ofNat n]) none)
  | some high, n =>
    if 0xDC00 ≤ n && n < 0xE000 then
      let c := Char.ofNat (0x10000 + 0x400 * (high - 0xD800) + (n - 0xDC00))
      some (string (text ++ [c]) none)
    else none

/-- Goes on with a character, and puts out the tokens that it ends. -/
def step : Mode → Char → Option (List Token × Mode)
  | between, c => start c
  | number n, c =>
    if c.isDigit then (digit? c).map fun digit => ([], number (10 * n + digit))
    else (start c).map fun (tokens, mode) => (.num n :: tokens, mode)
  | word [], _ => none
  | word [last], c => if c = last then some ([.null], between) else none
  | word (next :: letters), c => if c = next then some ([], word letters) else none
  | string text half, c =>
    if c = '\\' then some ([], escape text half)
    else match half with
      | some _ => none
      | none =>
        if c = '\x22' then some ([.str (String.ofList text)], between)
        else if c.toNat < 0x20 then none
        else some ([], string (text ++ [c]) none)
  | escape text half, c =>
    if c = 'u' then some ([], unit text half 4 0)
    else match half with
      | some _ => none
      | none => (escaped? c).map fun d => ([], string (text ++ [d]) none)
  | unit text half count value, c =>
    match digit? c, count with
    | some digit, 1 => (take text half (16 * value + digit)).map ([], ·)
    | some digit, count + 2 => some ([], unit text half (count + 1) (16 * value + digit))
    | _, _ => none

/-- The tokens that are ended by the end of the text. -/
def finish : Mode → Option (List Token)
  | between => some []
  | number n => some [.num n]
  | _ => none

end Mode

/-- The tokens of a text that starts in the given mode. -/
def lexFrom : Mode → Text → Option (List Token)
  | mode, [] => mode.finish
  | mode, c :: rest =>
    (mode.step c).bind fun (tokens, mode') => (lexFrom mode' rest).map (tokens ++ ·)

/-! ### Tokens and values -/

/-- What a value is a part of. -/
inductive Frame where
  /-- An array, with the items before it. -/
  | item (before : List Json)
  /-- An object, with the fields before it and its own name. -/
  | field (before : List (String × Json)) (name : String)

/-- What was read, and so what may come next. -/
inductive State where
  /-- A value has to come. -/
  | awaiting (frames : List Frame)
  /-- An array was opened. -/
  | opened (frames : List Frame)
  /-- The name of a field has to come or, if there is none before it, the end of the object. -/
  | naming (frames : List Frame) (before : List (String × Json))
  /-- A colon has to come, behind the name of a field. -/
  | named (frames : List Frame) (before : List (String × Json)) (name : String)
  /-- A value was read. -/
  | done (frames : List Frame) (value : Json)

namespace State

/-- Goes on with the first token of a value. -/
def begin (frames : List Frame) : Token → Option State
  | .null => some (done frames .null)
  | .num n => some (done frames (.num n))
  | .str s => some (done frames (.str s))
  | .openArr => some (opened frames)
  | .openObj => some (naming frames [])
  | _ => none

/-- Goes on with a token. -/
def step : State → Token → Option State
  | awaiting frames, token => begin frames token
  | opened frames, .closeArr => some (done frames (.arr []))
  | opened frames, token => begin (.item [] :: frames) token
  | naming frames [], .closeObj => some (done frames (.obj []))
  | naming frames before, .str name => some (named frames before name)
  | named frames before name, .colon => some (awaiting (.field before name :: frames))
  | done (.item before :: frames) value, .comma =>
    some (awaiting (.item (before ++ [value]) :: frames))
  | done (.item before :: frames) value, .closeArr =>
    some (done frames (.arr (before ++ [value])))
  | done (.field before name :: frames) value, .comma =>
    some (naming frames (before ++ [(name, value)]))
  | done (.field before name :: frames) value, .closeObj =>
    some (done frames (.obj (before ++ [(name, value)])))
  | _, _ => none

/-- Goes on with tokens. -/
def run (state : State) (tokens : List Token) : Option State := tokens.foldlM step state

/-- The value that was read, if it is not part of anything. -/
def result? : State → Option Json
  | done [] value => some value
  | _ => none

end State

/-- The value that is written as `s`. -/
def read? (s : String) : Option Json := do
  let tokens ← lexFrom .between s.toList
  let state ← (State.awaiting []).run tokens
  state.result?

/-! ### The tokens of a value -/

mutual

/-- The tokens of a value. -/
def tokens : Json → List Token
  | .null => [.null]
  | .num n => [.num n]
  | .str s => [.str s]
  | .arr [] => [.openArr, .closeArr]
  | .arr (item :: items) => .openArr :: (tokens item ++ (itemTokens items ++ [.closeArr]))
  | .obj [] => [.openObj, .closeObj]
  | .obj ((name, value) :: fields) =>
    .openObj :: .str name :: .colon :: (tokens value ++ (fieldTokens fields ++ [.closeObj]))

/-- The tokens of the items of a list behind the first. -/
def itemTokens : List Json → List Token
  | [] => []
  | item :: items => .comma :: (tokens item ++ itemTokens items)

/-- The tokens of the fields of an object behind the first. -/
def fieldTokens : List (String × Json) → List Token
  | [] => []
  | (name, value) :: fields =>
    .comma :: .str name :: .colon :: (tokens value ++ fieldTokens fields)

end

/-! ### Going over characters -/

section Characters

variable {mode mode' : Mode} {c : Char}

/-- A character that ends no token is passed. -/
theorem lexFrom_cons (h : mode.step c = some ([], mode')) (rest : Text) :
    lexFrom mode (c :: rest) = lexFrom mode' rest := by
  rw [lexFrom, h]
  show (lexFrom mode' rest).map (fun later => [] ++ later) = _
  simp

/-- A character that ends a token puts it out. -/
theorem lexFrom_cons_token {token : Token} (h : mode.step c = some ([token], mode'))
    (rest : Text) : lexFrom mode (c :: rest) = (lexFrom mode' rest).map (token :: ·) := by
  rw [lexFrom, h]
  rfl

theorem toList_newline (depth : ℕ) :
    (newline depth).toList = '\n' :: List.replicate (2 * depth) ' ' := by
  simp [newline]

theorem lexFrom_newline (depth : ℕ) (rest : Text) :
    lexFrom .between ((newline depth).toList ++ rest) = lexFrom .between rest := by
  have hspaces : ∀ n, lexFrom .between (List.replicate n ' ' ++ rest) = lexFrom .between rest := by
    intro n
    induction n with
    | zero => rfl
    | succ n ih =>
      rw [List.replicate_succ, List.cons_append, lexFrom_cons rfl]
      exact ih
  rw [toList_newline, List.cons_append, lexFrom_cons rfl]
  exact hspaces (2 * depth)

end Characters

/-! ### Numbers -/

/-- The number that digits stand for in base `b`, behind the number `n`. -/
def numberFrom (b n : ℕ) (digits : List ℕ) : ℕ := digits.foldl (fun n digit => b * n + digit) n

theorem digit?_digitChar : ∀ digit < 16, digit? (Nat.digitChar digit) = some digit := by
  decide

theorem isDigit_digitChar : ∀ digit < 10, (Nat.digitChar digit).isDigit = true := by
  decide

/-- A number is written by its digits. -/
theorem exists_toDigits_eq {b : ℕ} (hb : 1 < b) (n : ℕ) :
    ∃ digits : List ℕ, Nat.toDigits b n = digits.map Nat.digitChar ∧
      (∀ digit ∈ digits, digit < b) ∧ digits ≠ [] ∧ numberFrom b 0 digits = n := by
  induction n using Nat.strongRecOn with
  | ind n ih =>
    rcases Nat.lt_or_ge n b with hlt | hge
    · refine ⟨[n], Nat.toDigits_of_lt_base hlt, by simpa using hlt, by simp, ?_⟩
      simp [numberFrom]
    · obtain ⟨digits, heq, hlt, -, hnumber⟩ := ih (n / b) (Nat.div_lt_self (by omega) hb)
      have hlast : n % b < b := Nat.mod_lt n (by omega)
      have hsplit : Nat.toDigits b n = Nat.toDigits b (n / b) ++ [(n % b).digitChar] := by
        rw [← Nat.toDigits_of_lt_base hlast,
          Nat.toDigits_append_toDigits hb (Nat.div_pos hge (by omega)) hlast, Nat.div_add_mod]
      refine ⟨digits ++ [n % b], ?_, ?_, by simp, ?_⟩
      · rw [hsplit, heq, List.map_append, List.map_singleton]
      · intro digit hmem
        rcases List.mem_append.1 hmem with hmem | hmem
        · exact hlt digit hmem
        · rwa [List.mem_singleton.1 hmem]
      · rw [numberFrom, List.foldl_append]
        show b * numberFrom b 0 digits + n % b = n
        rw [hnumber, Nat.div_add_mod]

/-- The text does not go on with a digit. -/
def NoDigit (rest : Text) : Prop := ∀ c ∈ rest.head?, c.isDigit = false

theorem noDigit_cons {c : Char} (h : c.isDigit = false) (rest : Text) : NoDigit (c :: rest) := by
  intro d hd
  rwa [← Option.mem_some_iff.1 hd]

theorem lexFrom_number (n : ℕ) {rest : Text} (h : NoDigit rest) :
    lexFrom (.number n) rest = (lexFrom .between rest).map (.num n :: ·) := by
  match rest with
  | [] => rfl
  | c :: rest =>
    have hc : c.isDigit = false := h c rfl
    have hstep : (Mode.number n).step c =
        (Mode.start c).map fun p => (Token.num n :: p.1, p.2) := by
      show (if c.isDigit then _ else _) = _
      rw [hc]
      rfl
    rw [lexFrom, hstep, lexFrom]
    show _ = ((Mode.start c).bind _).map _
    rcases Mode.start c with _ | ⟨tokens, mode⟩
    · rfl
    · show (lexFrom mode rest).map _ = ((lexFrom mode rest).map _).map _
      rw [Option.map_map]
      rfl

theorem lexFrom_digits {digits : List ℕ} (hlt : ∀ digit ∈ digits, digit < 10) (n : ℕ)
    (rest : Text) :
    lexFrom (.number n) (digits.map Nat.digitChar ++ rest) =
      lexFrom (.number (numberFrom 10 n digits)) rest := by
  induction digits generalizing n with
  | nil => rfl
  | cons digit digits ih =>
    have hdigit : digit < 10 := hlt digit List.mem_cons_self
    have hstep : (Mode.number n).step digit.digitChar = some ([], .number (10 * n + digit)) := by
      rw [Mode.step, if_pos (isDigit_digitChar digit hdigit), digit?_digitChar digit (by omega)]
      rfl
    rw [List.map_cons, List.cons_append, lexFrom_cons hstep]
    exact ih (fun other hmem => hlt other (List.mem_cons_of_mem _ hmem)) _

/-- A number is read up to a character that is no digit. -/
theorem lexFrom_toString (n : ℕ) {rest : Text} (h : NoDigit rest) :
    lexFrom .between ((toString n).toList ++ rest) =
      (lexFrom .between rest).map (.num n :: ·) := by
  obtain ⟨digits, heq, hlt, hne, hnumber⟩ := exists_toDigits_eq (by decide : 1 < 10) n
  obtain ⟨digit, digits, rfl⟩ := List.exists_cons_of_ne_nil hne
  have hdigit : digit < 10 := hlt digit List.mem_cons_self
  have hstep : Mode.between.step digit.digitChar = some ([], .number digit) := by
    show (if digit.digitChar.isDigit then (digit? digit.digitChar).map _ else _) = _
    rw [if_pos (isDigit_digitChar digit hdigit), digit?_digitChar digit (by omega)]
    rfl
  have hnumber' : numberFrom 10 digit digits = n := by
    rw [← hnumber, numberFrom, numberFrom, List.foldl_cons, Nat.mul_zero, Nat.zero_add]
  rw [Nat.toString_eq_repr, Nat.toList_repr, heq, List.map_cons, List.cons_append,
    lexFrom_cons hstep, lexFrom_digits (fun other hmem => hlt other (List.mem_cons_of_mem _ hmem)),
    hnumber', lexFrom_number n h]

/-! ### Strings -/

section Strings

variable (text : Text) (half : Option ℕ)

/-- A code unit is taken when its last digit was read. -/
theorem lexFrom_unit {digits : List ℕ} (hlt : ∀ digit ∈ digits, digit < 16) (hne : digits ≠ [])
    (n : ℕ) (rest : Text) :
    lexFrom (.unit text half digits.length n) (digits.map Nat.digitChar ++ rest) =
      (Mode.take text half (numberFrom 16 n digits)).bind (lexFrom · rest) := by
  induction digits generalizing n with
  | nil => exact absurd rfl hne
  | cons digit digits ih =>
    have hdigit : digit? digit.digitChar = some digit :=
      digit?_digitChar digit (hlt digit List.mem_cons_self)
    match digits with
    | [] =>
      show ((Mode.unit text half 1 n).step digit.digitChar).bind _ = _
      have hstep : (Mode.unit text half 1 n).step digit.digitChar =
          (Mode.take text half (16 * n + digit)).map ([], ·) := by
        simp only [Mode.step, hdigit]
      rw [hstep, Option.bind_map]
      show (Mode.take text half (16 * n + digit)).bind _ = _
      congr
      funext mode
      show (lexFrom mode rest).map (fun later => [] ++ later) = _
      simp
    | next :: digits =>
      have hstep : (Mode.unit text half (digits.length + 2) n).step digit.digitChar =
          some ([], .unit text half (digits.length + 1) (16 * n + digit)) := by
        simp only [Mode.step, hdigit]
      rw [List.map_cons, List.cons_append, List.length_cons, List.length_cons, lexFrom_cons hstep]
      exact ih (fun other hmem => hlt other (List.mem_cons_of_mem _ hmem)) (by simp) _

/-- A code unit is written by four digits. -/
theorem exists_hexDigits_eq {n : ℕ} (h : n < 0x10000) :
    ∃ digits : List ℕ, (hexDigits 4 n).toList = digits.map Nat.digitChar ∧
      digits.length = 4 ∧ (∀ digit ∈ digits, digit < 16) ∧ numberFrom 16 0 digits = n := by
  obtain ⟨digits, heq, hlt, -, hnumber⟩ := exists_toDigits_eq (by decide : 1 < 16) n
  have hlength : digits.length ≤ 4 := by
    rw [← List.length_map (f := Nat.digitChar), ← heq,
      Nat.length_toDigits_le_iff (by decide) (by decide)]
    exact h
  have hzeros : ∀ k, numberFrom 16 0 (List.replicate k 0) = 0 := by
    intro k
    induction k with
    | zero => rfl
    | succ k ih => exact ih
  refine ⟨List.replicate (4 - digits.length) 0 ++ digits, ?_, ?_, ?_, ?_⟩
  · rw [hexDigits, String.toList_ofList, heq, List.length_map, List.map_append,
      List.map_replicate]
    rfl
  · rw [List.length_append, List.length_replicate, Nat.sub_add_cancel hlength]
  · intro digit hmem
    rcases List.mem_append.1 hmem with hmem | hmem
    · rw [List.eq_of_mem_replicate hmem]
      decide
    · exact hlt digit hmem
  · rw [numberFrom, List.foldl_append]
    show numberFrom 16 (numberFrom 16 0 _) digits = n
    rw [hzeros, hnumber]

theorem lexFrom_escapeUnit {n : ℕ} (h : n < 0x10000) (rest : Text) :
    lexFrom (.string text half) ((escapeUnit n).toList ++ rest) =
      (Mode.take text half n).bind (lexFrom · rest) := by
  obtain ⟨digits, heq, hlength, hlt, hnumber⟩ := exists_hexDigits_eq h
  have hlist : (escapeUnit n).toList = '\\' :: 'u' :: digits.map Nat.digitChar := by
    rw [escapeUnit, String.toList_append, heq]
    rfl
  have hne : digits ≠ [] := List.ne_nil_of_length_pos (by omega)
  rw [hlist, List.cons_append, List.cons_append, lexFrom_cons rfl, lexFrom_cons rfl, ← hlength,
    lexFrom_unit text half hlt hne, hnumber]

theorem lexFrom_escaped {c d : Char} (h : escaped? d = some c) (rest : Text) :
    lexFrom (.string text none) ('\\' :: d :: rest) =
      lexFrom (.string (text ++ [c]) none) rest := by
  have hu : d ≠ 'u' := by
    rintro rfl
    cases h
  have hstep : (Mode.escape text none).step d = some ([], .string (text ++ [c]) none) := by
    rw [Mode.step, if_neg hu, h]
    rfl
  rw [lexFrom_cons rfl, lexFrom_cons hstep]

/-- The ways in which a character is written in a string. -/
theorem escape_cases (c : Char) :
    (∃ d, escaped? d = some c ∧ (escape c).toList = ['\\', d]) ∨
      (c ≠ '\\' ∧ c ≠ '\x22' ∧ 0x20 ≤ c.toNat ∧ escape c = String.singleton c) ∨
      (c.toNat < 0x10000 ∧ escape c = escapeUnit c.toNat) ∨
      (0x10000 ≤ c.toNat ∧ escape c = escapeUnit (0xD800 + (c.toNat - 0x10000) / 0x400) ++
        escapeUnit (0xDC00 + (c.toNat - 0x10000) % 0x400)) := by
  by_cases hspecial : c ∈ ['\x22', '\\', '\n', '\r', '\t', '\x0c', '\x08']
  · simp only [List.mem_cons, List.not_mem_nil, or_false] at hspecial
    left
    rcases hspecial with rfl | rfl | rfl | rfl | rfl | rfl | rfl
    · exact ⟨'\x22', rfl, rfl⟩
    · exact ⟨'\\', rfl, rfl⟩
    · exact ⟨'n', rfl, rfl⟩
    · exact ⟨'r', rfl, rfl⟩
    · exact ⟨'t', rfl, rfl⟩
    · exact ⟨'f', rfl, rfl⟩
    · exact ⟨'b', rfl, rfl⟩
  · simp only [List.mem_cons, List.not_mem_nil, or_false, not_or] at hspecial
    obtain ⟨hquote, hslash, hn, hr, ht, hf, hb⟩ := hspecial
    rw [escape, if_neg hquote, if_neg hslash, if_neg hn, if_neg hr, if_neg ht, if_neg hf,
      if_neg hb]
    right
    split_ifs with hprintable hunit
    · simp only [Bool.and_eq_true, decide_eq_true_eq] at hprintable
      exact .inl ⟨hslash, hquote, hprintable.1, rfl⟩
    · exact .inr (.inl ⟨hunit, rfl⟩)
    · exact .inr (.inr ⟨Nat.le_of_not_lt hunit, rfl⟩)

/-- A character that is given by one code unit is no half of a pair. -/
theorem take_toNat {c : Char} (h : c.toNat < 0x10000) :
    Mode.take text none c.toNat = some (.string (text ++ [c]) none) := by
  have hvalid : c.toNat < 0xD800 ∨ 0xDFFF < c.toNat ∧ c.toNat < 0x110000 := c.valid
  rw [Mode.take, if_neg, if_neg, Char.ofNat_toNat]
  · simp only [Bool.and_eq_true, decide_eq_true_eq]
    omega
  · simp only [Bool.and_eq_true, decide_eq_true_eq]
    omega

/-- A character that is given by two code units is put together again. -/
theorem take_pair {c : Char} (h : 0x10000 ≤ c.toNat) :
    (Mode.take text none (0xD800 + (c.toNat - 0x10000) / 0x400) =
        some (.string text (some (0xD800 + (c.toNat - 0x10000) / 0x400)))) ∧
      Mode.take text (some (0xD800 + (c.toNat - 0x10000) / 0x400))
          (0xDC00 + (c.toNat - 0x10000) % 0x400) =
        some (.string (text ++ [c]) none) := by
  have hvalid : c.toNat < 0xD800 ∨ 0xDFFF < c.toNat ∧ c.toNat < 0x110000 := c.valid
  have hback : 0x10000 + 0x400 * (0xD800 + (c.toNat - 0x10000) / 0x400 - 0xD800) +
      (0xDC00 + (c.toNat - 0x10000) % 0x400 - 0xDC00) = c.toNat := by
    omega
  constructor
  · rw [Mode.take, if_pos]
    simp only [Bool.and_eq_true, decide_eq_true_eq]
    omega
  · rw [Mode.take, if_pos, hback, Char.ofNat_toNat]
    simp only [Bool.and_eq_true, decide_eq_true_eq]
    omega

/-- **A character in a string is read as it was meant.** -/
theorem lexFrom_escape (c : Char) (rest : Text) :
    lexFrom (.string text none) ((escape c).toList ++ rest) =
      lexFrom (.string (text ++ [c]) none) rest := by
  obtain ⟨d, hd, heq⟩ | ⟨hslash, hquote, hle, heq⟩ | ⟨hlt, heq⟩ | ⟨hge, heq⟩ := escape_cases c
  · rw [heq]
    exact lexFrom_escaped text hd rest
  · have hstep : (Mode.string text none).step c = some ([], .string (text ++ [c]) none) := by
      show (if c = '\\' then _ else if c = '\x22' then _ else if c.toNat < 0x20 then _ else _) = _
      rw [if_neg hslash, if_neg hquote, if_neg (by omega)]
    rw [heq, String.toList_singleton, List.singleton_append, lexFrom_cons hstep]
  · rw [heq, lexFrom_escapeUnit text none hlt, take_toNat text hlt, Option.bind_some]
  · obtain ⟨hhigh, hlow⟩ := take_pair text hge
    have hvalid : c.toNat < 0xD800 ∨ 0xDFFF < c.toNat ∧ c.toNat < 0x110000 := c.valid
    rw [heq, String.toList_append, List.append_assoc, lexFrom_escapeUnit text none (by omega),
      hhigh, Option.bind_some, lexFrom_escapeUnit text _ (by omega), hlow, Option.bind_some]

theorem lexFrom_escapes (cs rest : Text) :
    lexFrom (.string text none) ((cs.map escape).flatMap String.toList ++ rest) =
      lexFrom (.string (text ++ cs) none) rest := by
  induction cs generalizing text with
  | nil => rw [List.map_nil, List.flatMap_nil, List.nil_append, List.append_nil]
  | cons c cs ih =>
    rw [List.map_cons, List.flatMap_cons, List.append_assoc, lexFrom_escape, ih,
      List.append_assoc, List.singleton_append]

end Strings

/-- A string is read up to its second quote. -/
theorem lexFrom_writeString (s : String) (rest : Text) :
    lexFrom .between ((writeString s).toList ++ rest) =
      (lexFrom .between rest).map (.str s :: ·) := by
  have hlist : (writeString s).toList ++ rest =
      '\x22' :: ((s.toList.map escape).flatMap String.toList ++ '\x22' :: rest) := by
    simp [writeString, String.toList_join]
  rw [hlist, lexFrom_cons rfl, lexFrom_escapes, List.nil_append, lexFrom_cons_token rfl,
    String.ofList_toList]

/-! ### Values -/

section Values

variable (depth : ℕ) {rest : Text}

theorem noDigit_newline (rest : Text) : NoDigit ((newline depth).toList ++ rest) := by
  rw [toList_newline]
  exact noDigit_cons (by decide) _

theorem noDigit_writeItems (items : List Json) (h : NoDigit rest) :
    NoDigit ((writeItems depth items).toList ++ rest) := by
  match items with
  | [] => simpa [writeItems] using h
  | item :: items =>
    simp only [writeItems, String.toList_append, List.append_assoc]
    exact noDigit_cons (by decide) _

theorem noDigit_writeFields (fields : List (String × Json)) (h : NoDigit rest) :
    NoDigit ((writeFields depth fields).toList ++ rest) := by
  match fields with
  | [] => simpa [writeFields] using h
  | (name, value) :: fields =>
    simp only [writeFields, String.toList_append, List.append_assoc]
    exact noDigit_cons (by decide) _

/-- A name and its colon are read up to the value. -/
theorem lexFrom_name (name : String) (rest : Text) :
    lexFrom .between ((writeString name).toList ++ (": ".toList ++ rest)) =
      (lexFrom .between rest).map fun later => .str name :: .colon :: later := by
  have hlist : ": ".toList ++ rest = ':' :: ' ' :: rest := rfl
  rw [lexFrom_writeString, hlist, lexFrom_cons_token rfl, lexFrom_cons rfl, Option.map_map]
  rfl

mutual

/-- **The characters of a value are read as its tokens.** -/
theorem lexFrom_writeAt (value : Json) (depth : ℕ) {rest : Text} (h : NoDigit rest) :
    lexFrom .between ((value.writeAt depth).toList ++ rest) =
      (lexFrom .between rest).map (value.tokens ++ ·) := by
  match value with
  | .null =>
    have hlist : (Json.null.writeAt depth).toList ++ rest = 'n' :: 'u' :: 'l' :: 'l' :: rest := by
      simp [writeAt]
    rw [hlist, lexFrom_cons rfl, lexFrom_cons rfl, lexFrom_cons rfl, lexFrom_cons_token rfl]
    simp [tokens]
  | .num n =>
    rw [writeAt, tokens]
    exact lexFrom_toString n h
  | .str s =>
    rw [writeAt, tokens]
    exact lexFrom_writeString s rest
  | .arr [] =>
    have hlist : ((Json.arr []).writeAt depth).toList ++ rest = '[' :: ']' :: rest := by
      simp [writeAt]
    rw [hlist, lexFrom_cons_token rfl, lexFrom_cons_token rfl]
    simp [tokens, Function.comp_def]
  | .arr (item :: items) =>
    have hend : NoDigit ((newline depth).toList ++ ']' :: rest) := noDigit_newline depth _
    have hlist : ((Json.arr (item :: items)).writeAt depth).toList ++ rest =
        '[' :: ((newline (depth + 1)).toList ++ ((item.writeAt (depth + 1)).toList ++
          ((writeItems (depth + 1) items).toList ++ ((newline depth).toList ++ ']' :: rest)))) := by
      simp only [writeAt, String.toList_append, List.append_assoc]
      rfl
    rw [hlist, lexFrom_cons_token rfl, lexFrom_newline,
      lexFrom_writeAt item _ (noDigit_writeItems _ items hend), lexFrom_writeItems items _ hend,
      lexFrom_newline, lexFrom_cons_token rfl]
    simp [tokens, Function.comp_def]
  | .obj [] =>
    have hlist : ((Json.obj []).writeAt depth).toList ++ rest = '\x7b' :: '\x7d' :: rest := by
      simp [writeAt]
    rw [hlist, lexFrom_cons_token rfl, lexFrom_cons_token rfl]
    simp [tokens, Function.comp_def]
  | .obj ((name, value) :: fields) =>
    have hend : NoDigit ((newline depth).toList ++ '\x7d' :: rest) := noDigit_newline depth _
    have hlist : ((Json.obj ((name, value) :: fields)).writeAt depth).toList ++ rest =
        '\x7b' :: ((newline (depth + 1)).toList ++ ((writeString name).toList ++ (": ".toList ++
          ((value.writeAt (depth + 1)).toList ++ ((writeFields (depth + 1) fields).toList ++
            ((newline depth).toList ++ '\x7d' :: rest)))))) := by
      simp only [writeAt, String.toList_append, List.append_assoc]
      rfl
    rw [hlist, lexFrom_cons_token rfl, lexFrom_newline, lexFrom_name,
      lexFrom_writeAt value _ (noDigit_writeFields _ fields hend),
      lexFrom_writeFields fields _ hend, lexFrom_newline, lexFrom_cons_token rfl]
    simp [tokens, Function.comp_def]

theorem lexFrom_writeItems (items : List Json) (depth : ℕ) {rest : Text} (h : NoDigit rest) :
    lexFrom .between ((writeItems depth items).toList ++ rest) =
      (lexFrom .between rest).map (itemTokens items ++ ·) := by
  match items with
  | [] => simp [writeItems, itemTokens]
  | item :: items =>
    have hlist : (writeItems depth (item :: items)).toList ++ rest =
        ',' :: ((newline depth).toList ++ ((item.writeAt depth).toList ++
          ((writeItems depth items).toList ++ rest))) := by
      simp only [writeItems, String.toList_append, List.append_assoc]
      rfl
    rw [hlist, lexFrom_cons_token rfl, lexFrom_newline,
      lexFrom_writeAt item _ (noDigit_writeItems _ items h), lexFrom_writeItems items _ h]
    simp [itemTokens, Function.comp_def]

theorem lexFrom_writeFields (fields : List (String × Json)) (depth : ℕ) {rest : Text}
    (h : NoDigit rest) :
    lexFrom .between ((writeFields depth fields).toList ++ rest) =
      (lexFrom .between rest).map (fieldTokens fields ++ ·) := by
  match fields with
  | [] => simp [writeFields, fieldTokens]
  | (name, value) :: fields =>
    have hlist : (writeFields depth ((name, value) :: fields)).toList ++ rest =
        ',' :: ((newline depth).toList ++ ((writeString name).toList ++ (": ".toList ++
          ((value.writeAt depth).toList ++ ((writeFields depth fields).toList ++ rest))))) := by
      simp only [writeFields, String.toList_append, List.append_assoc]
      rfl
    rw [hlist, lexFrom_cons_token rfl, lexFrom_newline, lexFrom_name,
      lexFrom_writeAt value _ (noDigit_writeFields _ fields h), lexFrom_writeFields fields _ h]
    simp [fieldTokens, Function.comp_def]

end

end Values

/-! ### The value of the tokens -/

namespace State

variable {state state' : State} {token : Token}

theorem run_cons (h : state.step token = some state') (tokens : List Token) :
    state.run (token :: tokens) = state'.run tokens := by
  rw [run, List.foldlM_cons, h]
  rfl

/-- The first item of an array is read as any other value, since it does not close the array. -/
theorem run_opened (value : Json) (frames : List Frame) (rest : List Token) :
    (opened frames).run (value.tokens ++ rest) =
      (awaiting (.item [] :: frames)).run (value.tokens ++ rest) := by
  cases value with
  | null => simp [tokens, run, step, begin]
  | num n => simp [tokens, run, step, begin]
  | str s => simp [tokens, run, step, begin]
  | arr items => cases items <;> simp [tokens, run, step, begin]
  | obj fields => cases fields <;> simp [tokens, run, step, begin]

end State

mutual

/-- **The tokens of a value put it in its place.** -/
theorem run_tokens (value : Json) (frames : List Frame) (rest : List Token) :
    (State.awaiting frames).run (value.tokens ++ rest) = (State.done frames value).run rest := by
  match value with
  | .null => rw [tokens, List.singleton_append, State.run_cons rfl]
  | .num n => rw [tokens, List.singleton_append, State.run_cons rfl]
  | .str s => rw [tokens, List.singleton_append, State.run_cons rfl]
  | .arr [] =>
    rw [tokens, List.cons_append, List.singleton_append, State.run_cons rfl, State.run_cons rfl]
  | .arr (item :: items) =>
    rw [tokens, List.cons_append, List.append_assoc, List.append_assoc, State.run_cons rfl,
      State.run_opened, run_tokens item, run_itemTokens items, List.nil_append]
  | .obj [] =>
    rw [tokens, List.cons_append, List.singleton_append, State.run_cons rfl, State.run_cons rfl]
  | .obj ((name, value) :: fields) =>
    rw [tokens, List.cons_append, List.cons_append, List.cons_append, List.append_assoc,
      List.append_assoc, State.run_cons rfl, State.run_cons rfl, State.run_cons rfl,
      run_tokens value, run_fieldTokens fields, List.nil_append]

theorem run_itemTokens (items : List Json) (frames : List Frame) (before : List Json)
    (item : Json) (rest : List Token) :
    (State.done (.item before :: frames) item).run
        (itemTokens items ++ ([.closeArr] ++ rest)) =
      (State.done frames (.arr (before ++ item :: items))).run rest := by
  match items with
  | [] => rw [itemTokens, List.nil_append, List.singleton_append, State.run_cons rfl]
  | next :: items =>
    rw [itemTokens, List.cons_append, List.append_assoc, State.run_cons rfl, run_tokens next,
      run_itemTokens items, List.append_assoc, List.singleton_append]

theorem run_fieldTokens (fields : List (String × Json)) (frames : List Frame)
    (before : List (String × Json)) (name : String) (value : Json) (rest : List Token) :
    (State.done (.field before name :: frames) value).run
        (fieldTokens fields ++ ([.closeObj] ++ rest)) =
      (State.done frames (.obj (before ++ (name, value) :: fields))).run rest := by
  match fields with
  | [] => rw [fieldTokens, List.nil_append, List.singleton_append, State.run_cons rfl]
  | (next, value') :: fields =>
    have hnaming : (State.naming frames (before ++ [(name, value)])).step (.str next) =
        some (.named frames (before ++ [(name, value)]) next) := by
      cases before <;> rfl
    rw [fieldTokens, List.cons_append, List.cons_append, List.cons_append, List.append_assoc,
      State.run_cons rfl, State.run_cons hnaming, State.run_cons rfl, run_tokens value',
      run_fieldTokens fields, List.append_assoc, List.singleton_append]

end

end Json

end MarkupLint
