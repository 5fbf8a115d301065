import LaunchTrace.Proofs.Step.Name
import LaunchTrace.Proofs.Text.Digits
import LaunchTrace.Proofs.Text.Split
import LaunchTrace.Proofs.Time.Millis
import LaunchTrace.Proofs.Tree.Listing

/-! The text of trees: what is read back from it, and how well it shows durations. -/
namespace LaunchTrace.StepTree

/-- What a line shows of a step. -/
structure Shown where
  depth : Nat
  name : List Char
  id : StepId
  duration : List Char
  tags : String
deriving DecidableEq

namespace Shown

variable {s : Shown}

def ofNode (node : Nat × Event) : Shown :=
  ⟨node.1, node.2.name.toList, node.2.id, Millis.text node.2.micros.toNat ++ ['m', 's'], node.2.tags⟩

/-- The line without its end. -/
def line (s : Shown) : List Char :=
  List.replicate (2 * s.depth) ' ' ++ (s.name ++ ' ' :: ('#' :: Nat.toDigits 10 s.id.toNat ++
    ' ' :: (s.duration ++ if s.tags = "[]" then [] else ' ' :: s.tags.toList)))

theorem lineOf_eq (depth : Nat) (e : Event) : lineOf depth e = (ofNode (depth, e)).line ++ ['\n'] := by
  simp only [lineOf, line, ofNode, List.append_assoc, List.cons_append, List.nil_append]
  rfl

/-- A line read from its front. The name, the id and the duration each go up to the next space. What is left behind the
last of these spaces is tags, however it looks. -/
def ofLine? (line : List Char) : Option Shown := do
  let (name, rest) ← Text.cutAtFirst ' ' (line.dropWhile (· = ' '))
  let (id, rest) ← Text.cutAtFirst ' ' rest
  let (duration, tags) := (Text.cutAtFirst ' ' rest).getD (rest, ['[', ']'])
  return {
    depth := (line.takeWhile (· = ' ')).length / 2
    name
    id := UInt64.ofNat (Text.digitsValue id.tail)
    duration
    tags := String.ofList tags }

/-- Nothing in the line but its tags has a space in it, and the name is not empty. -/
structure Spaced (s : Shown) : Prop where
  some : s.name ≠ []
  name : ' ' ∉ s.name
  duration : ' ' ∉ s.duration

theorem ofLine?_line (spaced : s.Spaced) : ofLine? s.line = some s := by
  obtain ⟨some, solid, time⟩ := spaced
  have figures : ' ' ∉ '#' :: Nat.toDigits 10 s.id.toNat := by
    rw [List.mem_cons, not_or]
    exact ⟨by decide, fun member => absurd (Text.isDigit_of_mem member) (by decide)⟩
  have indent : ∀ c ∈ List.replicate (2 * s.depth) ' ', decide (c = ' ') = true :=
    fun c member => decide_eq_true (List.eq_of_mem_replicate member)
  -- The name starts with no space, so the spaces before it are the indentation.
  have start (rest : List Char) : (s.name ++ rest).takeWhile (· = ' ') = [] ∧
      (s.name ++ rest).dropWhile (· = ' ') = s.name ++ rest := by
    obtain ⟨c, tail, name⟩ := List.exists_cons_of_ne_nil some
    have other : c ≠ ' ' := by
      rintro rfl
      exact solid (name ▸ List.mem_cons_self)
    simp [name, other]
  have half : 2 * s.depth / 2 = s.depth := by omega
  rw [line, ofLine?]
  simp only [List.takeWhile_append_of_pos indent, List.dropWhile_append_of_pos indent, start,
    Text.cutAtFirst_append solid, Text.cutAtFirst_append figures, Option.bind_eq_bind, Option.bind_some,
    List.append_nil, List.length_replicate, half, List.tail_cons, Text.digitsValue_toDigits, UInt64.ofNat_toNat]
  split
  · rename_i none
    rw [List.append_nil, Text.cutAtFirst_of_notMem time, Option.getD_none]
    exact congrArg (fun tags => Option.some (Shown.mk s.depth s.name s.id s.duration tags)) none.symm
  · rw [Text.cutAtFirst_append time, Option.getD_some, String.ofList_toList]
    rfl

theorem notMem_duration {c : Char} {node : Nat × Event} (figure : c.isDigit = false) (point : c ≠ '.')
    (unit : c ∉ ['m', 's']) : c ∉ (ofNode node).duration := by
  rw [ofNode, List.mem_append, not_or]
  refine ⟨fun member => ?_, unit⟩
  rcases Millis.figure_of_mem_text member with digit | rfl
  · exact Bool.false_ne_true (figure.symm.trans digit)
  · exact point rfl

theorem lineFeed_notMem (name : '\n' ∉ s.name) (duration : '\n' ∉ s.duration) (tags : '\n' ∉ s.tags.toList) :
    '\n' ∉ s.line := by
  have id : '\n' ∉ Nat.toDigits 10 s.id.toNat := fun member => absurd (Text.isDigit_of_mem member) (by decide)
  have shown : '\n' ∉ if s.tags = "[]" then [] else ' ' :: s.tags.toList := by
    split
    · exact List.not_mem_nil
    · simp [tags]
  simp [line, List.mem_replicate, name, duration, id, shown]

end Shown

/-- What the line of a step can show: a name that is a step's, and tags on one line. -/
structure Printable (e : Event) : Prop where
  named : StepName.fault? e.name.toList = none
  tags : '\n' ∉ e.tags.toList

instance (e : Event) : Decidable (Printable e) :=
  decidable_of_iff (StepName.fault? e.name.toList = none ∧ '\n' ∉ e.tags.toList)
    ⟨fun ⟨named, tags⟩ => ⟨named, tags⟩, fun ⟨named, tags⟩ => ⟨named, tags⟩⟩

variable {e : Event} {trees others : List StepTree}

theorem Printable.spaced (printable : Printable e) (depth : Nat) : (Shown.ofNode (depth, e)).Spaced := by
  obtain ⟨some, plain, -⟩ := StepName.fault?_eq_none.mp printable.named
  have solid : ' ' ∉ e.name.toList := fun member => absurd (plain ' ' member).1 (by decide)
  exact ⟨some, solid, Shown.notMem_duration (by decide) (by decide) (by decide)⟩

theorem Printable.lineFeed_notMem (printable : Printable e) (depth : Nat) : '\n' ∉ (Shown.ofNode (depth, e)).line := by
  obtain ⟨-, plain, -⟩ := StepName.fault?_eq_none.mp printable.named
  apply Shown.lineFeed_notMem
  · exact fun member => absurd (plain '\n' member).1 (by decide)
  · exact Shown.notMem_duration (by decide) (by decide) (by decide)
  · exact printable.tags

/-- What the text shows, from its first to its last line. -/
def shown (trees : List StepTree) : List Shown :=
  (preorder trees).map Shown.ofNode

theorem render_eq (trees : List StepTree) :
    (render trees).toList = ((shown trees).map Shown.line).flatMap (· ++ ['\n']) := by
  simp only [render, shown, String.toList_ofList, List.map_map, List.flatMap_map, Function.comp_def, Shown.lineOf_eq]

theorem length_shown (trees : List StepTree) : (shown trees).length = sizeEach trees := by
  rw [shown, List.length_map, preorder_eq, List.length_map, sizeEach_eq]

theorem lines_printable (printable : ∀ node ∈ preorder trees, Printable node.2) :
    ∀ line ∈ (shown trees).map Shown.line, '\n' ∉ line := by
  simp only [shown, List.map_map, List.mem_map, forall_exists_index, and_imp]
  rintro _ ⟨depth, e⟩ member rfl
  exact (printable _ member).lineFeed_notMem depth

theorem ofLine?_lines (printable : ∀ node ∈ preorder trees, Printable node.2) :
    ((shown trees).map Shown.line).map Shown.ofLine? = (shown trees).map some := by
  rw [List.map_map]
  apply List.map_congr_left
  simp only [shown, List.mem_map, forall_exists_index, and_imp]
  rintro _ ⟨depth, e⟩ member rfl
  exact Shown.ofLine?_line ((printable _ member).spaced depth)

theorem shown_eq_of_render (printable : ∀ node ∈ preorder trees, Printable node.2)
    (readable : ∀ node ∈ preorder others, Printable node.2) (same : render trees = render others) :
    shown trees = shown others := by
  have text := congrArg String.toList same
  rw [render_eq, render_eq] at text
  have pieces := congrArg (Text.pieces '\n') text
  rw [Text.pieces_ended (lines_printable printable), Text.pieces_ended (lines_printable readable)] at pieces
  have read := congrArg (List.map Shown.ofLine?) (List.append_cancel_right pieces)
  rw [ofLine?_lines printable, ofLine?_lines readable] at read
  exact List.map_injective_iff.mpr (Option.some_injective _) read

/-! ## Trees with one text -/

/-- The event without its duration and without what no line shows. -/
def bare (e : Event) : Event :=
  { e with eventName := "", parentId := rootId, startTime := ⟨⟨1970, 1, 1⟩, 0, 0, 0, 0⟩, micros := 0 }

/-- The step of a line, as far as the line shows it. -/
def Shown.node (s : Shown) : Nat × Event :=
  (s.depth, bare ⟨"", s.id, rootId, String.ofList s.name, s.tags, ⟨⟨1970, 1, 1⟩, 0, 0, 0, 0⟩, 0⟩)

theorem preorder_bare (trees : List StepTree) : preorder (mapEach bare trees) = (shown trees).map Shown.node := by
  rw [preorder, preorderEach_mapEach, shown, List.map_map]
  apply List.map_congr_left
  intro node _
  simp only [Function.comp_apply, Shown.ofNode, Shown.node, bare, String.ofList_toList]

/-- Trees whose lines show the same have the same shape and the same steps in the same places. -/
theorem bare_eq_of_shown (same : shown trees = shown others) : mapEach bare trees = mapEach bare others := by
  have listed := congrArg (List.map Shown.node) same
  rw [← preorder_bare, ← preorder_bare] at listed
  exact preorderEach_injective listed

def label (node : Nat × Event) : Nat × String × StepId × String :=
  (node.1, node.2.name, node.2.id, node.2.tags)

theorem labels_eq_of_shown (same : shown trees = shown others) :
    (preorder trees).map label = (preorder others).map label := by
  have labels (trees : List StepTree) : (preorder trees).map label =
      (shown trees).map fun s => (s.depth, String.ofList s.name, s.id, s.tags) := by
    simp only [shown, List.map_map, Function.comp_def, Shown.ofNode, String.ofList_toList]
    rfl
  rw [labels, labels, same]

/-- The text has a line for each step, from which everything that it shows of the step is read back. So texts are equal
only where the trees have the same shape and the same steps, down to what is shown of the durations. -/
theorem render_readable (printable : ∀ node ∈ preorder trees, Printable node.2)
    (readable : ∀ node ∈ preorder others, Printable node.2) :
    (∃ lines : List (List Char), (render trees).toList = lines.flatMap (· ++ ['\n']) ∧ (∀ line ∈ lines, '\n' ∉ line) ∧
      lines.length = sizeEach trees ∧ lines.map Shown.ofLine? = (shown trees).map some) ∧
    (render trees = render others ↔ shown trees = shown others) ∧
    (render trees = render others →
      (preorder trees).map label = (preorder others).map label ∧ mapEach bare trees = mapEach bare others) := by
  refine ⟨⟨(shown trees).map Shown.line, render_eq trees, lines_printable printable, ?_, ofLine?_lines printable⟩,
    ⟨?_, ?_⟩, ?_⟩
  · rw [List.length_map, length_shown]
  · exact shown_eq_of_render printable readable
  · intro same
    rw [← String.toList_inj, render_eq, render_eq, same]
  · intro same
    have shown := shown_eq_of_render printable readable same
    exact ⟨labels_eq_of_shown shown, bare_eq_of_shown shown⟩

/-- A step whose tags look like other parts of a line, above one with empty tags and beside one without tags. -/
def lookalikes (micros : UInt64) : List StepTree :=
  let step (id : StepId) (tags : String) : Event :=
    ⟨Event.stepEventName, id, rootId, "boot.scan", tags, ⟨⟨2024, 1, 1⟩, 0, 0, 0, 0⟩, micros⟩
  [.node (step 1 "  boot.scan #2 3.000ms []") [.node (step 2 "") []], .node (step 3 "[]") []]

theorem render_lookalikes :
    let early := lookalikes 0x8000000000000000
    let late := lookalikes 0x8000000000000001
    (∀ node ∈ preorder early, Printable node.2) ∧ (∀ node ∈ preorder late, Printable node.2) ∧
      render early = render late ∧ (preorder early).map label = (preorder late).map label ∧
      mapEach bare early = mapEach bare late := by
  intro early late
  have printable : ∀ node ∈ preorder early, Printable node.2 := by decide
  have readable : ∀ node ∈ preorder late, Printable node.2 := by decide
  obtain ⟨-, shown, alike⟩ := render_readable printable readable
  have same := shown.mpr (by decide)
  exact ⟨printable, readable, same, alike same⟩

/-! ## Durations -/

/-- A duration under `2 ^ 43` milliseconds is shown to the microsecond, and a longer one is never shown as less than a
shorter one. -/
theorem lineOf_duration (depth : Nat) (e longer : Event) :
    (e.micros.toNat < 2 ^ 43 * 1000 →
      lineOf depth e = List.replicate (2 * depth) ' ' ++ e.name.toList ++ [' ', '#'] ++ Nat.toDigits 10 e.id.toNat ++
        ' ' :: (Nat.toDigits 10 (e.micros.toNat / 1000) ++ '.' :: Timestamp.padded 3 (e.micros.toNat % 1000)) ++
        ['m', 's'] ++ (if e.tags = "[]" then [] else ' ' :: e.tags.toList) ++ ['\n']) ∧
    (e.micros ≤ longer.micros →
      Millis.decimal (Millis.text e.micros.toNat) ≤ Millis.decimal (Millis.text longer.micros.toNat)) := by
  constructor
  · intro short
    rw [lineOf, Millis.text_eq short]
  · intro le
    exact Millis.decimal_text_mono (UInt64.le_iff_toNat_le.mp le)

/-- The longest duration that is sure to be shown to the microsecond. -/
def longest : Event :=
  ⟨Event.stepEventName, 7, rootId, "boot", "[]", ⟨⟨2024, 1, 1⟩, 0, 0, 0, 0⟩, 8796093022207999⟩

theorem lineOf_longest :
    longest.micros.toNat < 2 ^ 43 * 1000 ∧ longest.micros ≤ 0xffffffffffffffff ∧
      String.ofList (lineOf 1 longest) = "  boot #7 8796093022207.999ms\n" ∧
      Millis.decimal (Millis.text longest.micros.toNat) ≤ Millis.decimal (Millis.text 0xffffffffffffffff) := by
  have short : longest.micros.toNat < 2 ^ 43 * 1000 := by decide
  have le : longest.micros ≤ 0xffffffffffffffff := by decide
  obtain ⟨line, longer⟩ := lineOf_duration 1 longest { longest with micros := 0xffffffffffffffff }
  refine ⟨short, le, ?_, longer le⟩
  rw [line short]
  decide

end LaunchTrace.StepTree
