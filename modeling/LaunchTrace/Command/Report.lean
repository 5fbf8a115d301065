import LaunchTrace.Command.Arguments
import LaunchTrace.Command.Basic
import LaunchTrace.Recording.Reader
import LaunchTrace.Step.Tree

/-! Showing a recording, as a tree of steps or as one JSON array. -/
namespace LaunchTrace

namespace Report

def jsonText (events : List Event) : String :=
  String.ofList (Json.renderIndented 0 (.array (events.map (·.toJson)))) ++ "\n"

def treeText (events : List Event) : String :=
  let trees := StepTree.ofEvents events
  if trees.isEmpty then "no steps recorded\n" else StepTree.render trees

end Report

def ReportOptions.run (o : ReportOptions) (surroundings : Surroundings) : Outcome :=
  match Recording.read surroundings.files o.file with
  | .error e => .failing surroundings (.report o.file e)
  | .ok events => .printing surroundings (if o.json then Report.jsonText events else Report.treeText events)

end LaunchTrace
