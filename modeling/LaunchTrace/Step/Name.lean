import LaunchTrace.Text.Blank
import LaunchTrace.Text.Split

/-! Names of startup steps: segments with dots between them, none of them empty, without blank or control
characters. -/
namespace LaunchTrace

inductive StepNameFault where
  | empty
  | blankOrControl
  | emptySegment
deriving DecidableEq, Repr

namespace StepName

/-- What is wrong with a name. A blank or control character counts before an empty segment. -/
def fault? (name : List Char) : Option StepNameFault :=
  if name = [] then some .empty
  else if name.any fun c => Text.isBlank c || Text.isControl c then some .blankOrControl
  else if [] ∈ Text.pieces '.' name then some .emptySegment
  else none

end StepName

structure StepName where
  text : String
  sound : StepName.fault? text.toList = none

def StepName.check (name : String) : Except StepNameFault StepName :=
  match h : StepName.fault? name.toList with
  | some fault => .error fault
  | none => .ok ⟨name, h⟩

end LaunchTrace
