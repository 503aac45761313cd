import MarkupLint.Text.Basic
import MarkupLint.Text.CharRanges

/-!
# Command line arguments

A grammar says which switches a program knows and how many operands it takes, and `Grammar.parse`
reads a list of arguments by it. Switches come in two sorts. A flag has an effect of its own and may
have a letter, and letters can be joined, with or without an equals sign behind the first: `-vv` is
the same as `-v=v`. A choice takes one of a list of values, either in the same argument behind an
equals sign or in the next one. Two dashes behind the equals sign are no value and leave the choice
open. The long names may be shortened as long as it is clear what is meant.

An argument that begins with a dash is taken for a switch, with these exceptions: the dash alone, a
negative number, and an argument with a space in it that means no switch. Behind `--` there are
operands only. All operands stand together, not parted by switches.

Reading has three steps. `Grammar.words` sorts the arguments one by one, `Grammar.items` works out
what they ask for, and `Grammar.parse` looks at the whole. The first call for help or the first
mistake in a switch counts; unknown switches and misplaced operands are noticed in the end.
-/

namespace MarkupLint

namespace CommandLine

/-- What a flag asks for. -/
inductive Effect (σ : Type) where
  /-- An explanation of the program. -/
  | help
  /-- A change of the settings. -/
  | set (change : σ → σ)

/-- A switch without a value. -/
structure Flag (σ : Type) where
  /-- The long name, with its dashes. -/
  name : String
  /-- The letter that stands for it. -/
  letter : Option Char
  /-- What it asks for. -/
  effect : Effect σ

/-- A switch that takes one of a list of values. -/
structure Choice (σ : Type) where
  /-- The long name, with its dashes. -/
  name : String
  /-- The values and the changes they make to the settings. -/
  values : List (String × (σ → σ))
  /-- The change that two dashes in place of a value make. -/
  leaveOpen : σ → σ

/-- What a name on the command line stands for. -/
inductive Switch (σ : Type) where
  | flag (effect : Effect σ)
  | choice (choice : Choice σ)

/-- How many operands there must be. -/
inductive Arity where
  | one
  | many
deriving DecidableEq, Repr

/-- Whether the number of operands is right. -/
def Arity.admits : Arity → Nat → Bool
  | one, n => n == 1
  | many, n => 1 ≤ n

/-- What the arguments of a program look like. -/
structure Grammar (σ : Type) where
  /-- The switches without values. -/
  flags : List (Flag σ)
  /-- The switches with values. -/
  choices : List (Choice σ)
  /-- How many operands there must be. -/
  arity : Arity

/-- What an argument is, taken by itself. -/
inductive Word (σ : Type) where
  /-- An operand, or the value of the choice before it. -/
  | plain (text : String)
  /-- The argument `--`. -/
  | separator
  /-- A switch, perhaps with a value behind an equals sign. -/
  | switch (switch : Switch σ) (value : Option Text)
  /-- A flag that is named by its letter, with something joined to it. -/
  | letters (first : Effect σ) (rest : Text)
  /-- A switch that is not known. -/
  | unknown

/-- What arguments ask for. -/
inductive Item (σ : Type) where
  | operand (text : String)
  | separator
  | set (change : σ → σ)
  | help
  /-- A switch that is not known. -/
  | unknown
  /-- A known switch that is not used as it should be. -/
  | misuse

namespace Item

/-- Whether nothing behind this item matters. -/
def isFinal {σ : Type} : Item σ → Bool
  | help => true
  | misuse => true
  | _ => false

/-- Whether the item is an operand or the separator. -/
def isPositional {σ : Type} : Item σ → Bool
  | operand _ => true
  | separator => true
  | _ => false

/-- Whether the item is a switch that is not known. -/
def isUnknown {σ : Type} : Item σ → Bool
  | unknown => true
  | _ => false

/-- The operand, if the item is one. -/
def operand? {σ : Type} : Item σ → Option String
  | operand text => some text
  | _ => none

/-- The settings after an item. -/
def apply {σ : Type} (settings : σ) : Item σ → σ
  | set change => change settings
  | _ => settings

end Item

/-- What a list of arguments comes to. -/
inductive Parsed (σ : Type) where
  /-- The program should explain itself. -/
  | help
  /-- The arguments are wrong. -/
  | wrong
  /-- The program should do its work. -/
  | accepted (settings : σ) (operands : List String)

/-- Whether a text that begins with a dash is a negative number: digits, or perhaps some digits, a
point and digits. A line feed at the end does not matter. -/
def isNegativeNumber (text : Text) : Bool :=
  let body := text.drop 1
  let number := if body.getLast? = some '\n' then body.dropLast else body
  match number.dropWhile isDecimalDigit with
  | [] => !number.isEmpty
  | '.' :: rest => !rest.isEmpty && rest.all isDecimalDigit
  | _ => false

namespace Grammar

variable {σ : Type}

/-- The switches by their long names. -/
def longNames (grammar : Grammar σ) : List (String × Switch σ) :=
  grammar.flags.map (fun flag => (flag.name, .flag flag.effect)) ++
    grammar.choices.map (fun choice => (choice.name, .choice choice))

/-- The flag that a letter stands for. -/
def letter? (grammar : Grammar σ) (c : Char) : Option (Effect σ) :=
  (grammar.flags.find? (·.letter == some c)).map Flag.effect

/-- The switches that a long name can mean: the one that has this name or, if there is none, all
those whose names begin with it. -/
def meanings (grammar : Grammar σ) (name : Text) : List (Switch σ) :=
  match grammar.longNames.find? (·.1.toList == name) with
  | some (_, switch) => [switch]
  | none => (grammar.longNames.filter (name.isPrefixOf ·.1.toList)).map Prod.snd

/-- An argument that names no switch, although it begins with a dash. -/
def otherWord (text : Text) : Word σ :=
  if isNegativeNumber text || text.contains ' ' then .plain (String.ofList text) else .unknown

/-- What an argument is that begins with two dashes. It is nothing if it could mean several
switches. -/
def longWord? (grammar : Grammar σ) (text : Text) : Option (Word σ) :=
  let name := text.takeWhile (· != '=')
  let value := if text.contains '=' then some (text.drop (name.length + 1)) else none
  match grammar.meanings name with
  | [] => some (otherWord text)
  | [switch] => some (.switch switch value)
  | _ => none

/-- What an argument is that begins with a dash and the character `c`. -/
def letterWord (grammar : Grammar σ) (c : Char) (rest : Text) : Word σ :=
  match grammar.letter? c, rest with
  | none, rest => otherWord ('-' :: c :: rest)
  | some effect, [] => .switch (.flag effect) none
  | some effect, '=' :: letters => .letters effect letters
  | some effect, letters => .letters effect letters

/-- What an argument is. -/
def word? (grammar : Grammar σ) (argument : String) : Option (Word σ) :=
  match argument.toList with
  | '-' :: '-' :: rest => grammar.longWord? ('-' :: '-' :: rest)
  | '-' :: c :: rest => some (grammar.letterWord c rest)
  | _ => some (.plain argument)

/-- What the arguments are, unless one of them could mean several switches. -/
def words? (grammar : Grammar σ) : List String → Option (List (Word σ))
  | [] => some []
  | argument :: rest =>
    if argument == "--" then some (.separator :: rest.map .plain)
    else do
      let word ← grammar.word? argument
      let words ← grammar.words? rest
      return word :: words

/-- What a flag asks for. -/
def flagItem : Effect σ → Item σ
  | .help => .help
  | .set change => .set change

/-- What a choice with the given value asks for. -/
def choiceItem (choice : Choice σ) (value : String) : Item σ :=
  if value == "--" then .set choice.leaveOpen
  else match choice.values.lookup value with
    | some change => .set change
    | none => .misuse

/-- What a flag asks for that is named by its letter and has something joined to it. That has to be
more letters, all of them known and at least one; otherwise none of them counts. -/
def letterItems (grammar : Grammar σ) (first : Effect σ) (letters : Text) : List (Item σ) :=
  match letters.mapM grammar.letter? with
  | some (second :: others) => (first :: second :: others).map flagItem
  | _ => [.misuse]

/-- What the words ask for. A flag with a long name takes no value. A choice without a value takes
the next word, which has to be a plain one. -/
def items (grammar : Grammar σ) : List (Word σ) → List (Item σ)
  | [] => []
  | .plain text :: rest => .operand text :: grammar.items rest
  | .separator :: rest => .separator :: grammar.items rest
  | .unknown :: rest => .unknown :: grammar.items rest
  | .letters first letters :: rest => grammar.letterItems first letters ++ grammar.items rest
  | .switch (.flag effect) none :: rest => flagItem effect :: grammar.items rest
  | .switch (.flag _) (some _) :: rest => .misuse :: grammar.items rest
  | .switch (.choice choice) (some value) :: rest =>
    choiceItem choice (String.ofList value) :: grammar.items rest
  | .switch (.choice choice) none :: .plain value :: rest =>
    choiceItem choice value :: grammar.items rest
  | .switch (.choice _) none :: rest => .misuse :: grammar.items rest

/-- What items come to none of which is final. -/
def conclude (grammar : Grammar σ) (settings : σ) (items : List (Item σ)) : Parsed σ :=
  let fromFirst := items.dropWhile (!·.isPositional)
  let operands := (fromFirst.takeWhile (·.isPositional)).filterMap Item.operand?
  let behind := fromFirst.dropWhile (·.isPositional)
  if items.any (·.isUnknown) || behind.any (·.isPositional) ||
      !grammar.arity.admits operands.length then .wrong
  else .accepted (items.foldl Item.apply settings) operands

/-- Reads arguments, starting from the given settings. -/
def parse (grammar : Grammar σ) (settings : σ) (arguments : List String) : Parsed σ :=
  match grammar.words? arguments with
  | none => .wrong
  | some words =>
    let items := grammar.items words
    match items.find? (·.isFinal) with
    | some .help => .help
    | some _ => .wrong
    | none => grammar.conclude settings items

end Grammar

end CommandLine

end MarkupLint
