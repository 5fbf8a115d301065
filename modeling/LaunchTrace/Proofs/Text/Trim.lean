import LaunchTrace.Text.Blank
import Mathlib.Data.List.TakeWhile

/-! Blanks at the ends of a text make no difference to what is left when it is trimmed. -/
namespace LaunchTrace.Text

variable {s front back : List Char} {c : Char}

theorem trim_of_blank (blank : isBlankText s = true) : trim s = [] := by
  have none : trimStart s = [] := List.dropWhile_eq_nil_iff.mpr (List.all_eq_true.mp blank)
  rw [trim, none]
  rfl

theorem notMem_of_blank (visible : isBlank c = false) (blank : isBlankText s = true) : c ∉ s := by
  intro member
  rw [List.all_eq_true.mp blank c member] at visible
  contradiction

theorem isBlankText_append :
    isBlankText (front ++ back) = true ↔ isBlankText front = true ∧ isBlankText back = true := by
  rw [isBlankText, List.all_append, Bool.and_eq_true, isBlankText, isBlankText]

/-! ## Blanks at one end -/

theorem trimStart_pad (blank : isBlankText front = true) (s : List Char) : trimStart (front ++ s) = trimStart s :=
  List.dropWhile_append_of_pos (List.all_eq_true.mp blank)

theorem trimEnd_pad (blank : isBlankText back = true) (s : List Char) : trimEnd (s ++ back) = trimEnd s := by
  have reversed : ∀ c ∈ back.reverse, isBlank c = true :=
    fun c member => List.all_eq_true.mp blank c (List.mem_reverse.mp member)
  rw [trimEnd, List.reverse_append, List.dropWhile_append_of_pos reversed, trimEnd]

theorem trimStart_spec (s : List Char) : ∃ front, isBlankText front = true ∧ s = front ++ trimStart s :=
  ⟨s.takeWhile isBlank, List.all_eq_true.mpr fun _ => List.mem_takeWhile_imp, List.takeWhile_append_dropWhile.symm⟩

theorem trimEnd_spec (s : List Char) : ∃ back, isBlankText back = true ∧ s = trimEnd s ++ back := by
  obtain ⟨front, blank, split⟩ := trimStart_spec s.reverse
  refine ⟨front.reverse, ?_, ?_⟩
  · rwa [isBlankText, List.all_reverse]
  · rw [trimEnd, ← List.reverse_append, ← trimStart, ← split, List.reverse_reverse]

/-! ## A character that stays -/

theorem trimStart_around (visible : isBlank c = false) (front back : List Char) :
    trimStart (front ++ c :: back) = trimStart front ++ c :: back := by
  induction front with
  | nil => exact List.dropWhile_cons_of_neg (by simp [visible])
  | cons d front ih =>
    by_cases blank : isBlank d = true
    · rw [trimStart, List.cons_append, List.dropWhile_cons_of_pos blank, ← trimStart, ih, trimStart, trimStart,
        List.dropWhile_cons_of_pos blank]
    · rw [trimStart, List.cons_append, List.dropWhile_cons_of_neg blank, trimStart, List.dropWhile_cons_of_neg blank,
        List.cons_append]

theorem trimEnd_around (visible : isBlank c = false) (front back : List Char) :
    trimEnd (front ++ c :: back) = front ++ c :: trimEnd back := by
  have reversed := trimStart_around visible back.reverse front.reverse
  rw [trimEnd, List.reverse_append, List.reverse_cons, List.append_assoc, List.singleton_append, ← trimStart, reversed]
  simp [trimEnd, trimStart]

theorem trim_around (visible : isBlank c = false) (front back : List Char) :
    trim (front ++ c :: back) = trimStart front ++ c :: trimEnd back := by
  rw [trim, trimStart_around visible, trimEnd_around visible]

/-! ## Blanks at both ends -/

theorem trim_pad (before : isBlankText front = true) (behind : isBlankText back = true) (s : List Char) :
    trim (front ++ s ++ back) = trim s := by
  by_cases blank : isBlankText s = true
  · have all : isBlankText (front ++ s ++ back) = true :=
      isBlankText_append.mpr ⟨isBlankText_append.mpr ⟨before, blank⟩, behind⟩
    rw [trim_of_blank all, trim_of_blank blank]
  · obtain ⟨c, member, visible⟩ : ∃ c ∈ s, isBlank c = false := by simpa [isBlankText] using blank
    obtain ⟨first, last, rfl⟩ := List.append_of_mem member
    have regroup : front ++ (first ++ c :: last) ++ back = (front ++ first) ++ c :: (last ++ back) := by simp
    rw [regroup, trim_around visible, trim_around visible, trimStart_pad before, trimEnd_pad behind]

theorem trim_trimStart (s : List Char) : trim (trimStart s) = trim s := by
  obtain ⟨front, blank, split⟩ := trimStart_spec s
  have same : trim (front ++ trimStart s ++ []) = trim (trimStart s) := trim_pad blank rfl _
  rw [List.append_nil, ← split] at same
  exact same.symm

theorem trim_trimEnd (s : List Char) : trim (trimEnd s) = trim s := by
  obtain ⟨back, blank, split⟩ := trimEnd_spec s
  have same : trim ([] ++ trimEnd s ++ back) = trim (trimEnd s) := trim_pad rfl blank _
  rw [List.nil_append, ← split] at same
  exact same.symm

end LaunchTrace.Text
