import LaunchTrace.Files.Path
import LaunchTrace.Proofs.Text.Split

/-! Where paths lead, as far as their names tell: a name leads down, two dots lead up, one dot or nothing leads nowhere.
A way behind another first undoes what it leads up. -/
namespace LaunchTrace

/-- A way without detours: how many levels it leads up, and the names that it leads down by from there. -/
structure Way where
  up : Nat
  down : List FileName
deriving DecidableEq

namespace Way

variable {r s : Way} {name : FileName} {names : List FileName}

def here : Way := ⟨0, []⟩

/-- What two dots do is to take back the last name, as long as there is one. -/
def step (r : Way) (name : FileName) : Way :=
  if name = [] ∨ name = Path.current then r
  else if name = Path.parent then
    if r.down = [] then { r with up := r.up + 1 } else { r with down := r.down.dropLast }
  else { r with down := r.down ++ [name] }

def along (r : Way) (names : List FileName) : Way :=
  names.foldl step r

/-- One way and then another. -/
def andThen (r s : Way) : Way :=
  ⟨r.up + (s.up - r.down.length), r.down.take (r.down.length - s.up) ++ s.down⟩

theorem along_append (r : Way) (front back : List FileName) : r.along (front ++ back) = (r.along front).along back :=
  List.foldl_append

theorem here_andThen (r : Way) : here.andThen r = r := by
  simp [andThen, here]

theorem andThen_here (r : Way) : r.andThen here = r := by
  simp [andThen, here]

/-- A way that leads up further than its start leads down takes back more of what came before. -/
theorem andThen_parent (r s : Way) : r.andThen (s.step Path.parent) = (r.andThen s).step Path.parent := by
  have leaves : ¬ (Path.parent = [] ∨ Path.parent = Path.current) := by decide
  simp only [step, if_neg leaves, if_true]
  by_cases start : s.down = []
  · rw [if_pos start]
    by_cases above : r.down.length ≤ s.up
    · have none : (r.andThen s).down = [] := by simp [andThen, start, above]
      rw [if_pos none]
      simp only [andThen, start, Way.mk.injEq]
      refine ⟨by omega, ?_⟩
      rw [Nat.sub_eq_zero_of_le above, Nat.sub_eq_zero_of_le (by omega)]
    · have some : (r.andThen s).down ≠ [] := by
        rw [andThen, start, List.append_nil, ne_eq, List.take_eq_nil_iff, not_or]
        exact ⟨by omega, by rintro none; simp [none] at above⟩
      rw [if_neg some]
      simp only [andThen, start, List.append_nil, Way.mk.injEq]
      refine ⟨by omega, ?_⟩
      rw [List.dropLast_eq_take, List.take_take, List.length_take]
      congr 1
      omega
  · have some : (r.andThen s).down ≠ [] := List.append_ne_nil_of_right_ne_nil _ start
    rw [if_neg start, if_neg some]
    simp only [andThen, List.dropLast_append_of_ne_nil start]

theorem andThen_step (r s : Way) (name : FileName) : r.andThen (s.step name) = (r.andThen s).step name := by
  by_cases stays : name = [] ∨ name = Path.current
  · rw [step, step, if_pos stays, if_pos stays]
  · by_cases leaves : name = Path.parent
    · rw [leaves]
      exact r.andThen_parent s
    · rw [step, step, if_neg stays, if_neg stays, if_neg leaves, if_neg leaves]
      simp [andThen]

theorem andThen_along (r s : Way) (names : List FileName) :
    r.andThen (s.along names) = (r.andThen s).along names := by
  induction names generalizing s with
  | nil => rfl
  | cons name rest ih =>
    rw [along, List.foldl_cons, ← along, ih, andThen_step]
    rfl

theorem along_eq (r : Way) (names : List FileName) : r.along names = r.andThen (here.along names) := by
  rw [andThen_along, andThen_here]

/-- Without two dots there is no way up. -/
theorem up_along (plain : Path.parent ∉ names) : (r.along names).up = r.up := by
  induction names generalizing r with
  | nil => rfl
  | cons name rest ih =>
    obtain ⟨other, later⟩ := not_or.mp (List.mem_cons.not.mp plain)
    rw [along, List.foldl_cons, ← along, ih later, step, if_neg (Ne.symm other)]
    split <;> rfl

end Way

namespace Path

variable {p base : Path}

/-- The way that the names of a path lead, from wherever it starts. -/
def way (p : Path) : Way :=
  Way.here.along p.names

/-- Behind a slash a path goes on from where it is. -/
theorem way_slash (front back : Bytes) : way ⟨front ++ slash :: back⟩ = (way ⟨front⟩).andThen (way ⟨back⟩) := by
  rw [way, names, Text.pieces_parted, Way.along_append, Way.along_eq]
  rfl

/-- The way of the path from where it starts. There is nothing above the root. -/
def route (p : Path) : Way :=
  if p.isAbsolute then { p.way with up := 0 } else p.way

/-- The path leads to the other or to something inside it. -/
def Inside (p base : Path) : Prop :=
  p.isAbsolute = base.isAbsolute ∧ p.route.up = base.route.up ∧ base.route.down <+: p.route.down

instance : Decidable (p.Inside base) :=
  inferInstanceAs (Decidable (_ ∧ _))

/-- A path that goes on from another stays inside if it leads up to nowhere, or comes back by the names that it has
left by. Above the root there is only the root. -/
theorem inside_iff {more : Way} (start : p.isAbsolute = base.isAbsolute) (plain : parent ∉ base.names)
    (joined : p.way = base.way.andThen more) : p.Inside base ↔
      (base.isAbsolute = true ∨ more.up ≤ base.way.down.length) ∧
        base.way.down.drop (base.way.down.length - more.up) <+: more.down := by
  have level : base.way.up = 0 := Way.up_along plain
  have same : base.way.down <+: p.way.down ↔
      base.way.down.drop (base.way.down.length - more.up) <+: more.down := by
    have split := List.take_append_drop (base.way.down.length - more.up) base.way.down
    conv => lhs; rw [← split]
    rw [joined, Way.andThen, List.prefix_append_right_inj]
  rw [Inside, and_iff_right start, route, route, start]
  by_cases rooted : base.isAbsolute = true
  · rw [if_pos rooted, if_pos rooted, and_iff_right rfl, same, and_iff_right (.inl rooted)]
  · rw [if_neg rooted, if_neg rooted, same, level, joined, Way.andThen, level]
    simp only [rooted, Bool.false_eq_true, false_or, Nat.zero_add, Nat.sub_eq_zero_iff_le]

end Path
end LaunchTrace
