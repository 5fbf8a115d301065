/-! Cutting a sequence at a separator: a text at its commas or dots, bytes at their line ends or slashes. -/
namespace LaunchTrace.Text

variable {α : Type} [DecidableEq α]

/-- The pieces between the occurrences of a separator. A sequence without one is its own single piece. -/
def pieces (separator : α) (s : List α) : List (List α) :=
  s.foldr
    (fun a found =>
      if a = separator then [] :: found
      else match found with
        | [] => [[a]]
        | piece :: rest => (a :: piece) :: rest)
    [[]]

/-- What stands before and after the first occurrence of a separator. -/
def cutAtFirst (separator : α) : List α → Option (List α × List α)
  | [] => none
  | a :: rest =>
    if a = separator then some ([], rest)
    else (cutAtFirst separator rest).map fun (before, after) => (a :: before, after)

/-- The texts one after the other with the separator between neighbours. -/
def join (separator : String) (texts : List String) : String :=
  separator.intercalate texts

end LaunchTrace.Text
