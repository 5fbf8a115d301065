import LaunchTrace.Files.System
import Mathlib.Data.List.Basic

/-! Regular files: a path keeps naming the same place while files are written, and a file that is written at its end
grows by what is written. -/
namespace LaunchTrace.FileSystem

variable {fs after : FileSystem} {place start target : Place} {node : FileNode} {names : List FileName} {path : Path}
  {handle : FileHandle} {content bytes : Bytes}

theorem node?_put (inner : place ≠ []) : (fs.put place node).node? place = some node := by
  rw [node?, if_neg inner, put, List.lookup_cons_self]

theorem node?_put_of_ne (other : target ≠ place) : (fs.put place node).node? target = fs.node? target := by
  have lookup (nodes : List (Place × FileNode)) :
      (nodes.filter (·.1 ≠ place)).lookup target = nodes.lookup target := by
    induction nodes with
    | nil => rfl
    | cons entry rest ih =>
      by_cases gone : entry.1 = place
      · have passed : (target == entry.1) = false := by simpa [gone] using other
        rw [List.filter_cons_of_neg (by simpa using gone), List.lookup_cons, passed, ih]
      · rw [List.filter_cons_of_pos (by simpa using gone), List.lookup_cons, List.lookup_cons, ih]
  have passed : (target == place) = false := by simpa using other
  rw [node?, node?, put, List.lookup_cons, passed, lookup]

/-- What is no directory is on the way to nothing. -/
theorem walk_put (file : fs.node? place ≠ some .directory) (walked : fs.walk start names = .ok target) :
    (fs.put place node).walk start names = .ok target := by
  induction names generalizing start with
  | nil => exact walked
  | cons name rest ih =>
    have way : fs.node? start = some .directory := by
      unfold walk at walked
      split at walked
      · contradiction
      · assumption
      · contradiction
    have still : (fs.put place node).node? start = some .directory := by
      rw [node?_put_of_ne, way]
      rintro rfl
      exact file way
    rw [walk, way] at walked
    rw [walk, still]
    dsimp only at walked ⊢
    split at walked
    · rename_i stay
      rw [if_pos stay]
      exact ih walked
    · rename_i leave
      rw [if_neg leave]
      split at walked
      · rename_i up
        rw [if_pos up]
        exact ih walked
      · rename_i down
        rw [if_neg down]
        split at walked
        · contradiction
        · rename_i fits
          rw [if_neg fits]
          exact ih walked

theorem locate_put (file : fs.node? place ≠ some .directory) (located : fs.locate path = .ok target) :
    (fs.put place node).locate path = .ok target := by
  unfold locate follow at located ⊢
  split at located
  · contradiction
  · rename_i fit
    rw [if_neg fit]
    split at located
    · contradiction
    · rename_i some
      rw [if_neg some]
      split at located
      · contradiction
      · rename_i short
        rw [if_neg short]
        exact walk_put file located

theorem locate_of_target (found : fs.target path = .ok place) : fs.locate path = .ok place := by
  unfold target at found
  split at found
  · split at found <;> contradiction
  · exact found

/-- A path that leads to no device, no pipe and no directory. -/
def Regular (fs : FileSystem) (path : Path) : Prop :=
  ∀ node, fs.find path = .ok node → ∃ content, node = .file content

/-- A file that was created is found empty under its path. -/
theorem create_ok (regular : fs.Regular path) (created : fs.create path = .ok (handle, after)) :
    after.locate path = .ok handle.place ∧ after.node? handle.place = some (.file []) ∧ handle.offset = 0 := by
  unfold create at created
  cases found : fs.target path with
  | error e =>
    rw [found] at created
    contradiction
  | ok place =>
    rw [found] at created
    have located := locate_of_target found
    have file (node : FileNode) (there : fs.node? place = some node) : ∃ content, node = .file content := by
      apply regular
      rw [find, located]
      dsimp only
      rw [there]
    have empty (there : fs.node? place ≠ some .directory)
        (created : (⟨⟨place, 0⟩, fs.put place (.file [])⟩ : FileHandle × FileSystem) = (handle, after)) :
        after.locate path = .ok handle.place ∧ after.node? handle.place = some (.file []) ∧ handle.offset = 0 := by
      obtain ⟨rfl, rfl⟩ := Prod.mk.inj created
      refine ⟨locate_put there located, node?_put ?_, rfl⟩
      rintro rfl
      exact there rfl
    dsimp only at created
    split at created
    · contradiction
    · rename_i device
      obtain ⟨_, same⟩ := file _ device
      contradiction
    · rename_i device
      obtain ⟨_, same⟩ := file _ device
      contradiction
    · rename_i there
      exact empty (by simp [there]) (Except.ok.inj created)
    · rename_i none
      exact empty (by simp [none]) (Except.ok.inj created)

theorem overwrite_end (content bytes : Bytes) : overwrite content content.length bytes = content ++ bytes := by
  simp [overwrite]

/-- Writing at the end of a file appends to it. -/
theorem write_end (there : fs.node? handle.place = some (.file content)) (last : handle.offset = content.length) :
    fs.write handle bytes = .ok (⟨handle.place, (content ++ bytes).length⟩,
      fs.put handle.place (.file (content ++ bytes))) := by
  rw [write, there]
  dsimp only
  rw [last, overwrite_end, List.length_append]

theorem read_of_node (located : fs.locate path = .ok place) (there : fs.node? place = some (.file content)) :
    fs.read path = .ok content := by
  rw [read, find, located]
  dsimp only
  rw [there]

end LaunchTrace.FileSystem
