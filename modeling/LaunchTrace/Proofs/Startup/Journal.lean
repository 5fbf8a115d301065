import LaunchTrace.Proofs.Startup.Deeds
import Mathlib.Logic.Function.Basic

/-! The deeds of a program, read off its operations alone. -/
namespace LaunchTrace

variable {σ : Type}

/-- What a program knows of its steps. -/
structure Journal (σ : Type) where
  /-- The number of the step under a label, and whether there is no wrapper around it. -/
  steps : String → Option (Nat × Bool)
  deeds : List (Deed σ)

namespace Journal

def blank : Journal σ :=
  ⟨fun _ => none, []⟩

def note (j : Journal σ) (deed : Deed σ) : Journal σ :=
  { j with deeds := deed :: j.deeds }

def assign (j : Journal σ) (label : String) (step : Option (Nat × Bool)) : Journal σ :=
  { j with steps := Function.update j.steps label step }

variable {j : Journal σ} {label other : String} {held : Option (Nat × Bool)} {step : Nat × Bool}

@[simp] theorem note_deeds (deed : Deed σ) : (j.note deed).deeds = deed :: j.deeds := rfl

@[simp] theorem assign_deeds : (j.assign label held).deeds = j.deeds := rfl

@[simp] theorem assign_self : (j.assign label held).steps label = held :=
  Function.update_self ..

theorem assign_other (different : other ≠ label) : (j.assign label held).steps other = j.steps other :=
  Function.update_of_ne different ..

theorem assign_none : (j.assign label none).steps other = some step ↔ other ≠ label ∧ j.steps other = some step := by
  by_cases same : other = label
  · simp [same]
  · simp [same, assign_other same]

def release (j : Journal σ) (on : Bool) (label : String) : Journal σ :=
  match j.steps label with
  | none => j
  | some (n, _) => (j.note (.finish n on)).assign label none

def finish (j : Journal σ) (on : Bool) (label : String) : Journal σ :=
  match j.steps label with
  | some (n, true) => j.note (.finish n on)
  | _ => j.release on label

def start (j : Journal σ) (on : Bool) (label : String) (route : Route) (name : String) : Journal σ :=
  match StepName.validate name with
  | .error _ => j
  | .ok _ => ((j.note .start).release on label).assign label (some (Deed.starts j.deeds, route.isDirect))

def tag (j : Journal σ) (on : Bool) (label : String) (tag : Tag σ) : Journal σ :=
  match j.steps label with
  | none => j
  | some (n, direct) => j.note (.tag n direct on tag)

def apply (j : Journal σ) (on : Bool) : Operation σ → Journal σ
  | .start label route name => j.start on label route name
  | .tag label tag => j.tag on label tag
  | .finish label => j.finish on label
  | .release label => j.release on label
  | .unwind labels => labels.foldl (release · on) j
  | .change change => j.note (.change change)
  | .surround _ => j

/-- The journal of a program, whose operations come with whether events are kept at the time. -/
def ofProgram (program : List (Bool × Operation σ)) : Journal σ :=
  program.foldl (fun j (on, op) => j.apply on op) blank

theorem release_cases (j : Journal σ) (on : Bool) (label : String) :
    j.steps label = none ∧ j.release on label = j ∨ ∃ n direct, j.steps label = some (n, direct) ∧
      j.release on label = (j.note (.finish n on)).assign label none := by
  unfold release
  cases found : j.steps label with
  | none => exact .inl ⟨rfl, rfl⟩
  | some step => exact .inr ⟨step.1, step.2, rfl, rfl⟩

theorem release_self (on : Bool) : (j.release on label).steps label = none := by
  rcases j.release_cases on label with ⟨missing, same⟩ | ⟨n, direct, _, same⟩
  · rw [same, missing]
  · rw [same, assign_self]

theorem steps_of_release {on : Bool} (found : (j.release on label).steps other = some step) :
    j.steps other = some step := by
  rcases j.release_cases on label with ⟨_, same⟩ | ⟨n, direct, _, same⟩
  · rwa [same] at found
  · rw [same] at found
    exact (assign_none.mp found).2

theorem release_starts (on : Bool) : Deed.starts (j.release on label).deeds = Deed.starts j.deeds := by
  rcases j.release_cases on label with ⟨_, same⟩ | ⟨n, direct, _, same⟩
  · rw [same]
  · rw [same, assign_deeds, note_deeds]
    rfl

theorem release_deeds (j : Journal σ) (on : Bool) (label : String) :
    ∃ new, (j.release on label).deeds = new ++ j.deeds ∧ ∀ deed ∈ new, ∃ n, deed = .finish n on := by
  rcases j.release_cases on label with ⟨_, same⟩ | ⟨n, direct, _, same⟩
  · exact ⟨[], by rw [same]; rfl, by simp⟩
  · exact ⟨[.finish n on], by rw [same]; rfl, by simp⟩

theorem unwind_deeds (j : Journal σ) (on : Bool) (labels : List String) :
    ∃ new, (labels.foldl (release · on) j).deeds = new ++ j.deeds ∧ ∀ deed ∈ new, ∃ n, deed = .finish n on := by
  induction labels generalizing j with
  | nil => exact ⟨[], rfl, by simp⟩
  | cons label labels ih =>
    obtain ⟨first, before, ends⟩ := release_deeds j on label
    obtain ⟨second, after, others⟩ := ih (j.release on label)
    refine ⟨second ++ first, ?_, ?_⟩
    · rw [List.foldl_cons, after, before, List.append_assoc]
    · intro deed member
      rcases List.mem_append.mp member with member | member
      · exact others deed member
      · exact ends deed member

/-- An operation adds to the deeds before it. -/
theorem apply_deeds (j : Journal σ) (on : Bool) (op : Operation σ) :
    ∃ new, (j.apply on op).deeds = new ++ j.deeds ∧ ∀ deed ∈ new, deed.Of on op := by
  have ending (new : List (Deed σ)) (ends : ∀ deed ∈ new, ∃ n, deed = .finish n on) :
      ∀ deed ∈ new, deed.Of on op := by
    intro deed member
    obtain ⟨n, rfl⟩ := ends deed member
    rfl
  cases op with
  | start label route name =>
    simp only [apply, start]
    split
    · exact ⟨[], rfl, by simp⟩
    · obtain ⟨new, same, ends⟩ := release_deeds (j.note .start) on label
      refine ⟨new ++ [.start], ?_, ?_⟩
      · rw [assign_deeds, same, note_deeds, List.append_assoc, List.singleton_append]
      · intro deed member
        rcases List.mem_append.mp member with member | last
        · exact ending new ends deed member
        · obtain rfl := List.mem_singleton.mp last
          trivial
  | tag label t =>
    simp only [apply, tag]
    split
    · exact ⟨[], rfl, by simp⟩
    · rename_i n direct _
      exact ⟨[.tag n direct on t], rfl, by simp [Deed.Of]⟩
  | finish label =>
    simp only [apply, finish]
    split
    · rename_i n _
      exact ⟨[.finish n on], rfl, by simp [Deed.Of]⟩
    · obtain ⟨new, same, ends⟩ := release_deeds j on label
      exact ⟨new, same, ending new ends⟩
  | release label =>
    obtain ⟨new, same, ends⟩ := release_deeds j on label
    exact ⟨new, same, ending new ends⟩
  | unwind labels =>
    obtain ⟨new, same, ends⟩ := unwind_deeds j on labels
    exact ⟨new, same, ending new ends⟩
  | change f => exact ⟨[.change f], rfl, by simp [Deed.Of]⟩
  | surround f => exact ⟨[], rfl, by simp⟩

/-- What is done under a program is done by one of its operations. -/
theorem program_deeds (j : Journal σ) (program : List (Bool × Operation σ)) :
    ∃ new, (program.foldl (fun j (on, op) => j.apply on op) j).deeds = new ++ j.deeds ∧
      ∀ deed ∈ new, ∃ on op, (on, op) ∈ program ∧ deed.Of on op := by
  induction program generalizing j with
  | nil => exact ⟨[], rfl, by simp⟩
  | cons entry program ih =>
    obtain ⟨on, op⟩ := entry
    obtain ⟨first, before, done⟩ := apply_deeds j on op
    obtain ⟨second, after, others⟩ := ih (j.apply on op)
    refine ⟨second ++ first, ?_, ?_⟩
    · rw [List.foldl_cons, after, before, List.append_assoc]
    · intro deed member
      rcases List.mem_append.mp member with member | member
      · obtain ⟨on, op, inside, done⟩ := others deed member
        exact ⟨on, op, List.mem_cons_of_mem _ inside, done⟩
      · exact ⟨on, op, List.mem_cons_self, done deed member⟩

theorem of_program {program : List (Bool × Operation σ)} {deed : Deed σ}
    (member : deed ∈ (ofProgram program).deeds) : ∃ on op, (on, op) ∈ program ∧ deed.Of on op := by
  obtain ⟨new, same, done⟩ := program_deeds blank program
  rw [ofProgram, same] at member
  exact done deed (by simpa [blank] using member)

/-- The first steps have ended or are at hand. -/
def Covers (j : Journal σ) (count : Nat) : Prop :=
  ∀ n < count, Deed.hasEnded n j.deeds = true ∨ ∃ label direct, j.steps label = some (n, direct)

variable {count : Nat} {on : Bool}

theorem Covers.note (covers : j.Covers count) (deed : Deed σ) : (j.note deed).Covers count := by
  intro n below
  rcases covers n below with ended | known
  · exact .inl (Deed.hasEnded_later ended)
  · exact .inr known

theorem Covers.release (covers : j.Covers count) : (j.release on label).Covers count := by
  rcases j.release_cases on label with ⟨_, same⟩ | ⟨m, direct, found, same⟩
  · rwa [same]
  · rw [same]
    intro n below
    rcases covers n below with ended | ⟨other, direct, known⟩
    · exact .inl (Deed.hasEnded_later ended)
    · by_cases taken : other = label
      · rw [taken, found] at known
        obtain ⟨rfl, _⟩ := Prod.mk.inj (Option.some.inj known)
        exact .inl (by simp [Deed.hasEnded])
      · exact .inr ⟨other, direct, assign_none.mpr ⟨taken, known⟩⟩

theorem Covers.assign (covers : j.Covers count) (missing : j.steps label = none) (direct : Bool) :
    (j.assign label (some (count, direct))).Covers (count + 1) := by
  intro n below
  by_cases last : n = count
  · exact .inr ⟨label, direct, by rw [last, assign_self]⟩
  · rcases covers n (by omega) with ended | ⟨other, direct, known⟩
    · exact .inl ended
    · have different : other ≠ label := by
        rintro rfl
        rw [missing] at known
        contradiction
      exact .inr ⟨other, direct, (assign_other different).trans known⟩

/-- No step gets lost before its end. -/
theorem apply_covers (covers : j.Covers (Deed.starts j.deeds)) (op : Operation σ) :
    (j.apply on op).Covers (Deed.starts (j.apply on op).deeds) := by
  cases op with
  | start label route name =>
    simp only [apply, start]
    split
    · exact covers
    · rw [assign_deeds, release_starts]
      exact (covers.note .start).release.assign (release_self on) route.isDirect
  | tag label t =>
    simp only [apply, tag]
    split
    · exact covers
    · exact covers.note _
  | finish label =>
    simp only [apply, finish]
    split
    · exact covers.note _
    · rw [release_starts]
      exact covers.release
  | release label =>
    simp only [apply]
    rw [release_starts]
    exact covers.release
  | unwind labels =>
    simp only [apply]
    induction labels generalizing j with
    | nil => exact covers
    | cons label labels ih =>
      apply ih
      rw [release_starts]
      exact covers.release
  | change f => exact covers.note _
  | surround f => exact covers

theorem ofProgram_covers (program : List (Bool × Operation σ)) :
    (ofProgram program).Covers (Deed.starts (ofProgram program).deeds) := by
  have launched : (blank : Journal σ).Covers (Deed.starts (blank : Journal σ).deeds) :=
    fun _ below => absurd below (Nat.not_lt_zero _)
  simp only [ofProgram]
  generalize (blank : Journal σ) = j at launched ⊢
  induction program generalizing j with
  | nil => exact launched
  | cons entry program ih => exact ih _ (apply_covers launched entry.2)

end Journal
end LaunchTrace
