import Mathlib.Data.List.Basic

/-! Stable sorting: what an order does not tell apart stays in its order, and a sorted list is known from what it
makes of these parts. -/
namespace LaunchTrace.Sorting

variable {α : Type} {le : α → α → Bool} {xs ys : List α} {a b : α}

/-- The order does not tell the two apart. -/
def level (le : α → α → Bool) (a b : α) : Bool :=
  le a b && le b a

theorem level_iff : level le a b = true ↔ le a b = true ∧ le b a = true :=
  Bool.and_eq_true_iff

/-- Sorted lists with the same elements on every level, in the same order, are the same. -/
theorem eq_of_levels (refl : ∀ a, le a a = true) (first : xs.Pairwise fun a b => le a b = true)
    (second : ys.Pairwise fun a b => le a b = true)
    (same : ∀ a, xs.filter (level le a) = ys.filter (level le a)) : xs = ys := by
  have self (a : α) : level le a a = true := level_iff.mpr ⟨refl a, refl a⟩
  induction xs generalizing ys with
  | nil =>
    cases ys with
    | nil => rfl
    | cons b ys =>
      have missing := same b
      rw [List.filter_cons_of_pos (self b)] at missing
      contradiction
  | cons a xs ih =>
    cases ys with
    | nil =>
      have missing := same a
      rw [List.filter_cons_of_pos (self a)] at missing
      contradiction
    | cons b ys =>
      obtain ⟨lowest, upper⟩ := List.pairwise_cons.mp first
      obtain ⟨bottom, above⟩ := List.pairwise_cons.mp second
      -- Each head is found in the other list, so it is not below the other head.
      have forward : le a b = true := by
        have member : b ∈ (a :: xs).filter (level le b) := by
          rw [same b, List.filter_cons_of_pos (self b)]
          exact List.mem_cons_self
        rcases List.mem_cons.mp (List.mem_filter.mp member).1 with rfl | later
        · exact refl b
        · exact lowest b later
      have backward : le b a = true := by
        have member : a ∈ (b :: ys).filter (level le a) := by
          rw [← same a, List.filter_cons_of_pos (self a)]
          exact List.mem_cons_self
        rcases List.mem_cons.mp (List.mem_filter.mp member).1 with rfl | later
        · exact refl a
        · exact bottom a later
      have heads := same a
      rw [List.filter_cons_of_pos (self a), List.filter_cons_of_pos (level_iff.mpr ⟨forward, backward⟩)] at heads
      obtain rfl := (List.cons.inj heads).1
      refine congrArg (a :: ·) (ih upper above fun c => ?_)
      have tails := same c
      simp only [List.filter_cons] at tails
      split at tails
      · exact (List.cons.inj tails).2
      · exact tails

section Order

variable (trans : ∀ a b c, le a b = true → le b c = true → le a c = true)
  (total : ∀ a b, (le a b || le b a) = true)
include trans total

theorem filter_mergeSort (a : α) (xs : List α) :
    (xs.mergeSort le).filter (level le a) = xs.filter (level le a) := by
  have flat : (xs.filter (level le a)).Pairwise fun b c => le b c = true := by
    refine List.pairwise_of_forall_mem_list fun b first c second => ?_
    have low := (level_iff.mp (List.mem_filter.mp first).2).2
    have high := (level_iff.mp (List.mem_filter.mp second).2).1
    exact trans b a c low high
  have kept := (List.sublist_mergeSort trans total flat List.filter_sublist).filter (level le a)
  simp only [List.filter_filter, Bool.and_self] at kept
  exact (kept.eq_of_length (((List.mergeSort_perm xs le).filter _).length_eq).symm).symm

/-- What is sorted and has the elements of each level in their order is what sorting gives. -/
theorem eq_mergeSort (ordered : ys.Pairwise fun a b => le a b = true)
    (same : ∀ a, ys.filter (level le a) = xs.filter (level le a)) : ys = xs.mergeSort le := by
  have refl (a : α) : le a a = true := Bool.or_self (le a a) ▸ total a a
  refine eq_of_levels refl ordered (List.pairwise_mergeSort trans total xs) fun a => ?_
  rw [filter_mergeSort trans total, same]

/-- It makes no difference whether a part is taken before or after sorting. -/
theorem filter_sorted (keep : α → Bool) (xs : List α) :
    (xs.mergeSort le).filter keep = (xs.filter keep).mergeSort le := by
  refine eq_mergeSort trans total ((List.pairwise_mergeSort trans total xs).filter keep) fun a => ?_
  rw [List.filter_comm, filter_mergeSort trans total, List.filter_comm]

end Order

end LaunchTrace.Sorting
