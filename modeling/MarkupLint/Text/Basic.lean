/-!
# Texts

A source text is the list of its characters. All offsets, lengths and columns of the library count
characters, and reading a text means taking characters from the front of such a list.
-/

namespace MarkupLint

/-- A source text, as the list of its characters. Offsets and lengths count these. -/
abbrev Text := List Char

/-- A text does not get longer when characters are dropped from its front. -/
theorem length_dropWhile_le (p : Char → Bool) (text : Text) :
    (text.dropWhile p).length ≤ text.length :=
  (List.dropWhile_sublist p).length_le

section Runs

variable {p : Char → Bool} {run rest : Text}

/-- A run of characters of a sort is all that is taken from the front. -/
theorem takeWhile_run (hrun : ∀ c ∈ run, p c = true) (hrest : ∀ c ∈ rest.head?, p c = false) :
    (run ++ rest).takeWhile p = run := by
  rw [List.takeWhile_append_of_pos hrun]
  cases rest with
  | nil => exact List.append_nil run
  | cons c rest => rw [List.takeWhile_cons_of_neg (by simp [hrest c rfl]), List.append_nil]

/-- A run of characters of a sort is all that is dropped from the front. -/
theorem dropWhile_run (hrun : ∀ c ∈ run, p c = true) (hrest : ∀ c ∈ rest.head?, p c = false) :
    (run ++ rest).dropWhile p = rest := by
  rw [List.dropWhile_append_of_pos hrun]
  cases rest with
  | nil => rfl
  | cons c rest => exact List.dropWhile_cons_of_neg (by simp [hrest c rfl])

/-- Behind a run of characters of a sort comes a character of another. -/
theorem head?_dropWhile (p : Char → Bool) (text : Text) :
    ∀ c ∈ (text.dropWhile p).head?, p c = false := by
  intro c hc
  have hhead := List.head?_dropWhile_not p text
  rw [Option.mem_def.mp hc] at hhead
  exact hhead

end Runs

/-- Whether `pattern` occurs somewhere in a text. -/
def occursIn (pattern : Text) : Text → Bool
  | [] => pattern.isEmpty
  | c :: text => pattern.isPrefixOf (c :: text) || occursIn pattern text

/-- Lines as one string, each of them ended by a line feed. -/
def joinLines (lines : List String) : String := String.join (lines.map (· ++ "\n"))

end MarkupLint
