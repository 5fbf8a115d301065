import LaunchTrace.Environment.Variables
import LaunchTrace.Text.Blank
import LaunchTrace.Text.Digits
import LaunchTrace.Text.Quoted
import LaunchTrace.Text.Split
import LaunchTrace.Time.Duration

/-! Settings of a recording, as in `filename=startup.jsonl,duration=10s`. Entries stand between commas and blank
entries do not count; of two entries with one key the later one holds. -/
namespace LaunchTrace

inductive SettingsError where
  | missingFilename
  | malformedEntry (entry : String)
  | unknownKey (key : String)
  | invalidDuration (value : String)
  | notText (name : String)
deriving DecidableEq, Repr

def SettingsError.message : SettingsError → String
  | .missingFilename => "recording settings require a filename"
  | .malformedEntry entry => "malformed recording setting: " ++ Text.quote entry
  | .unknownKey key => "unknown recording setting: " ++ Text.quote key
  | .invalidDuration value => "invalid recording duration: " ++ Text.quote value
  | .notText name => "environment variable " ++ name ++ " is not valid unicode"

structure RecordingSettings where
  filename : String
  /-- How long events are recorded. -/
  window : Option Duration
deriving DecidableEq, Repr

namespace RecordingSettings

/-- The variable that holds the settings. -/
def variableName : String := "SPROUT_STARTUP_RECORDING"

/-- An amount of the unit a text names. Minutes and hours count in seconds, which have to fit a word. -/
def amountOf? (amount : Nat) (unit : List Char) : Option Duration :=
  if unit = ['m', 's'] then some (.ofMillis amount)
  else if unit = [] ∨ unit = ['s'] then some (.ofSeconds amount)
  else if unit = ['m'] then if amount * 60 < Text.wordLimit then some (.ofSeconds (amount * 60)) else none
  else if unit = ['h'] then if amount * 3600 < Text.wordLimit then some (.ofSeconds (amount * 3600)) else none
  else none

def duration? (value : List Char) : Option Duration :=
  let digits := value.takeWhile Char.isDigit
  if digits ≠ [] ∧ Text.digitsValue digits < Text.wordLimit then
    amountOf? (Text.digitsValue digits) (value.dropWhile Char.isDigit)
  else none

/-- Digits and a unit: milliseconds, seconds, minutes or hours. Zero is no limit at all. -/
def parseDuration (value : List Char) : Except SettingsError (Option Duration) :=
  match duration? value with
  | some d => .ok (if d.nanos = 0 then none else some d)
  | none => .error (.invalidDuration (String.ofList value))

/-- The settings found so far. -/
structure Draft where
  filename : Option String
  window : Option Duration

def Draft.add (d : Draft) (entry : List Char) : Except SettingsError Draft :=
  match Text.cutAtFirst '=' entry with
  | none => .error (.malformedEntry (String.ofList entry))
  | some (key, value) =>
    let key := String.ofList (Text.trim key)
    let value := Text.trim value
    if key = "filename" then
      if value = [] then .error .missingFilename else .ok { d with filename := some (String.ofList value) }
    else if key = "duration" then (parseDuration value).map fun window => { d with window }
    else .error (.unknownKey key)

/-- The entries that count, without the blanks around them. -/
def entries (s : String) : List (List Char) :=
  ((Text.pieces ',' s.toList).map Text.trim).filter (· ≠ [])

def parse (s : String) : Except SettingsError RecordingSettings := do
  let draft ← (entries s).foldlM Draft.add ⟨none, none⟩
  match draft.filename with
  | some filename => .ok ⟨filename, draft.window⟩
  | none => .error .missingFilename

/-- The settings that the variables hold. There are none where the variable is missing or blank. -/
def ofVariables (v : Variables) : Except SettingsError (Option RecordingSettings) :=
  match v.value? variableName with
  | none => .ok none
  | some bytes =>
    match Variables.textOf? bytes with
    | none => .error (.notText variableName)
    | some s => if Text.isBlankText s.toList then .ok none else (parse s).map some

end RecordingSettings
end LaunchTrace
