import LaunchTrace.Component.Registry
import LaunchTrace.Environment.Basic

/-! Whether the conditions of a component are met. -/
namespace LaunchTrace

/-- Equality up to the case of ASCII letters. -/
def equalIgnoringCase (a b : String) : Bool :=
  a.toList.map Char.toLower = b.toList.map Char.toLower

def Question.holds (q : Question) (env : Environment) (registry : Registry) (d : ComponentDefinition) : Bool :=
  match q with
  | .property key expected ifMissing =>
    match env.get? key, expected with
    | none, _ => ifMissing
    | some value, some expected => equalIgnoringCase value expected
    | some value, none => !equalIgnoringCase value "false"
  | .profile expressions => expressions.any env.accepts
  | .component name present => registry.contains name = present
  | .custom answer => answer env registry.view d.view

namespace Condition

def holds (c : Condition) (env : Environment) (registry : Registry) (d : ComponentDefinition) : Bool :=
  c.question.holds env registry d

/-- Whether the condition counts in a phase. -/
def appliesIn (c : Condition) (phase : Phase) : Bool :=
  c.phase = none || c.phase = some phase

end Condition

/-- The phase in which components of a kind are looked at first. -/
def ComponentKind.firstPhase : ComponentKind → Phase
  | .configuration => .parse
  | .component => .register

/-- Whether a condition that counts in the phase is not met. -/
def ComponentDefinition.isSkipped (d : ComponentDefinition) (env : Environment) (registry : Registry)
    (phase : Phase) : Bool :=
  d.conditions.any fun c => c.appliesIn phase && !c.holds env registry d

end LaunchTrace
