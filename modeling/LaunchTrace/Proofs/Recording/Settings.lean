import LaunchTrace.Proofs.Text.Split
import LaunchTrace.Proofs.Text.Trim
import LaunchTrace.Recording.Settings

/-! What the variables ask to be recorded. -/
namespace LaunchTrace

namespace RecordingSettings

variable {v : Variables} {settings : RecordingSettings} {s : String}

theorem entries_of_blank (blank : Text.isBlankText s.toList = true) : entries s = [] := by
  have plain : ',' ∉ s.toList := Text.notMem_of_blank (by decide) blank
  rw [entries, Text.pieces_of_notMem plain, List.map_singleton, Text.trim_of_blank blank]
  rfl

/-- Blanks are no settings. -/
theorem parse_of_blank (blank : Text.isBlankText s.toList = true) : parse s = .error .missingFilename := by
  rw [parse, entries_of_blank blank]
  rfl

/-- The variable is missing, or there is nothing but blanks in it. -/
def Unasked (v : Variables) : Prop :=
  ∀ bytes, v.value? variableName = some bytes →
    ∃ s, Variables.textOf? bytes = some s ∧ Text.isBlankText s.toList = true

/-- The variable holds the settings. -/
def Asked (v : Variables) (settings : RecordingSettings) : Prop :=
  ∃ bytes s, v.value? variableName = some bytes ∧ Variables.textOf? bytes = some s ∧ parse s = .ok settings

theorem ofVariables_of_unasked (unasked : Unasked v) : ofVariables v = .ok none := by
  unfold ofVariables
  cases found : v.value? variableName with
  | none => rfl
  | some bytes =>
    obtain ⟨s, text, blank⟩ := unasked bytes found
    simp only [text, blank, if_true]

theorem ofVariables_of_asked (asked : Asked v settings) : ofVariables v = .ok (some settings) := by
  obtain ⟨bytes, s, found, text, parsed⟩ := asked
  have visible : ¬Text.isBlankText s.toList = true := by
    intro blank
    rw [parse_of_blank blank] at parsed
    contradiction
  simp only [ofVariables, found, text, if_neg visible, parsed]
  rfl

end RecordingSettings
end LaunchTrace
