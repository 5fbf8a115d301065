/-! Sets of code points, given as closed ranges. -/
namespace LaunchTrace.Text

abbrev Ranges := List (Nat × Nat)

def Ranges.contains (ranges : Ranges) (n : Nat) : Bool :=
  ranges.any fun (low, high) => low ≤ n && n ≤ high

end LaunchTrace.Text
