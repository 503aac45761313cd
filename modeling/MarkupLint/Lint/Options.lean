import MarkupLint.Fault

/-!
# Options of a run

Two optional features can be switched on, and a mode stands for a setting of both. A mode that is
given together with options would leave open which of them counts, so that is a fault.
-/

namespace MarkupLint

/-- A profile of the linter. -/
inductive Mode where
  /-- Columns of attributes count from their tags; values need no quotes. -/
  | compat
  /-- Attributes are placed precisely and their values need quotes. -/
  | precise
deriving DecidableEq, Repr

namespace Mode

/-- The name of a mode. -/
def name : Mode → String
  | compat => "compat"
  | precise => "precise"

/-- The mode of the given name. -/
def ofName : String → Except Fault Mode
  | "compat" => .ok compat
  | "precise" => .ok precise
  | name => .error (.unknownMode name)

end Mode

/-- What a run is asked to do. -/
structure Options where
  /-- The profile. It is a mere label here: the features below decide. -/
  mode : Mode := .compat
  /-- Whether attributes are placed by their own characters. -/
  precisePositions : Bool := false
  /-- Whether values without quotes are reported. -/
  checkUnquoted : Bool := false
deriving DecidableEq, Repr

namespace Options

/-- The options that a mode stands for. -/
def forMode (mode : Mode) : Options :=
  match mode with
  | .compat => ⟨.compat, false, false⟩
  | .precise => ⟨.precise, true, true⟩

/-- The options of a run for which options, a mode or neither were given. -/
def resolve (options : Option Options) (mode : Option Mode) : Except Fault Options :=
  match options, mode with
  | some _, some _ => .error .optionsAndMode
  | some options, none => .ok options
  | none, some mode => .ok (forMode mode)
  | none, none => .ok {}

end Options

end MarkupLint
