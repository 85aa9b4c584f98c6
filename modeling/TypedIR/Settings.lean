import TypedIR.Convention
import TypedIR.Json.Fields

/-!
Contract: the switches that govern a store, and their form as data.

Owns:
- the settings and their defaults;
- reading them from a JSON document, where absent fields take the default;
- the one rule that a read record may break: the largest width of integers lies
  between 1 and `maxWidth`.
-/

namespace TypedIR

/-- The largest width of an integer type that engines can represent. -/
def maxWidth : UInt32 := 8388607

structure Settings where
  /-- Emission verifies the module first and refuses an invalid one. -/
  verifyBeforeEmit : Bool
  /-- The convention of a newly declared function. -/
  convention : CallConvention
  maxIntegerWidth : UInt32
  /-- Blocks that no path reaches are reported as warnings. -/
  reportUnreachable : Bool
deriving DecidableEq, Repr

inductive SettingsFault where
  /-- The text is no record of settings. -/
  | malformed
  | widthOutOfRange (width : UInt32)
deriving DecidableEq, Repr

def SettingsFault.message : SettingsFault → String
  | .malformed => "failed to parse config"
  | .widthOutOfRange width =>
      "max_integer_width must be between 1 and 8388607, got " ++ toString width.toNat

def CallConvention.ofJson? (form : NameForm) (json : Json) : Option CallConvention := do
  ofTag? (← json.name? form)

namespace Settings

def standard : Settings where
  verifyBeforeEmit := true
  convention := .c
  maxIntegerWidth := maxWidth
  reportUnreachable := true

def fieldNames : List String :=
  ["verify_before_emit", "default_call_convention", "max_integer_width",
    "report_unreachable_blocks"]

/-- The settings that a document writes, whatever width they ask for. -/
def ofJson? (json : Json) : Option Settings := do
  let fields ← json.recordFields? fieldNames 0
  return {
    verifyBeforeEmit := ← fields.withDefault "verify_before_emit" true Json.bool?
    convention := ← fields.withDefault "default_call_convention" .c (CallConvention.ofJson? .direct)
    maxIntegerWidth := ← fields.withDefault "max_integer_width" maxWidth Json.uint32?
    reportUnreachable := ← fields.withDefault "report_unreachable_blocks" true Json.bool? }

def validate (settings : Settings) : Except SettingsFault Settings :=
  if settings.maxIntegerWidth = 0 ∨ maxWidth < settings.maxIntegerWidth then
    .error (.widthOutOfRange settings.maxIntegerWidth)
  else .ok settings

def read (json : Json) : Except SettingsFault Settings :=
  match ofJson? json with
  | none => .error .malformed
  | some settings => settings.validate

def toJson (settings : Settings) : Json :=
  .record [
    ("verify_before_emit", .bool settings.verifyBeforeEmit),
    ("default_call_convention", .text settings.convention.tag),
    ("max_integer_width", .natural settings.maxIntegerWidth.toNat),
    ("report_unreachable_blocks", .bool settings.reportUnreachable)]

end Settings

end TypedIR
