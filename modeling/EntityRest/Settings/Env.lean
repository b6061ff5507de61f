import EntityRest.Number.Integer
import EntityRest.Settings.Complex
import EntityRest.Settings.Duration

/-!
# Variables

Reading typed values out of the texts of variables. A text that is no such value is refused with a
reason that quotes it.
-/

namespace EntityRest

/-- Why settings are refused. -/
inductive SettingsError where
  | invalid (name reason : String)
  | missingDriver
  | unknownDriver (driver : String)
deriving DecidableEq

def SettingsError.message : SettingsError → String
  | .invalid name reason => "invalid value for " ++ name ++ ": " ++ reason
  | .missingDriver => "database driver is not configured (set DB_DRIVER)"
  | .unknownDriver driver => "unknown database driver: " ++ driver

namespace Env

/-- Reads a value of some type, or gives the reason why there is none. -/
abbrev Reader (α : Type) := String → Except String α

/-- Reads a text with its outer blanks removed; `what` names what it should have been. -/
def trimmed {α : Type} (what : String) (read : List Char → Option α) : Reader α := fun raw =>
  match read (Chars.trim raw.toList) with
  | some x => .ok x
  | none => .error ("invalid " ++ what ++ " '" ++ raw ++ "'")

/-- Any text. -/
def string : Reader String := fun raw => .ok raw

def bool : Reader Bool := trimmed "boolean" fun s => readBool? (String.ofList s)

def duration : Reader Duration := trimmed "duration" Duration.ofText?

def complex : Reader Complex := trimmed "complex number" Complex.ofText?

def bytes : Reader (List UInt8) := fun raw => .ok (Utf8.encode raw)

/-- The reason why a text is no number. -/
def numberReason (raw reason : String) : String := "'" ++ raw ++ "': " ++ reason

/-- An integer of a range. -/
def int (range : IntRange) : Reader Int := fun raw =>
  (range.read (Chars.trim raw.toList)).mapError fun e => numberReason raw e.message

/-- A natural below `2 ^ bits`. -/
def nat (bits : Nat) : Reader Nat := fun raw => (int (.unsigned bits) raw).map Int.toNat

def uint64 : Reader UInt64 := fun raw => (nat 64 raw).map UInt64.ofNat

def float (F : BinaryFormat) : Reader (Binary F) := fun raw =>
  (Binary.read (Chars.trim raw.toList)).mapError fun e => numberReason raw e.message

end Env

/-- The texts of the variables that are set. -/
abbrev Env := String → Option String

/-- The value of a variable, or `default` where it is not set. -/
def Env.get {α : Type} (env : Env) (name : String) (read : Env.Reader α) (default : α) :
    Except SettingsError α :=
  match env name with
  | none => .ok default
  | some raw => (read raw).mapError fun reason => .invalid name reason

end EntityRest
