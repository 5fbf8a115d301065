import LaunchTrace.Proofs.Keyed

/-! Lists that are completed by inherited ones: what is inherited goes behind what is there, and of each key only the
first entry stays. So it makes no difference in which order lists are put together, and once is enough. -/
namespace LaunchTrace.Keyed

variable {α κ : Type} [DecidableEq κ] {key : α → κ} {own inherited l : List α}

/-- The first entry of each key. -/
def firsts (key : α → κ) : List α → List α
  | [] => []
  | a :: rest => a :: (firsts key rest).filter (key · ≠ key a)

/-- What is there, and behind it the first inherited entry of each key that is missing. -/
def overlay (key : α → κ) (own inherited : List α) : List α :=
  own ++ (firsts key inherited).filter (key · ∉ own.map key)

theorem firsts_filter (p : κ → Bool) (l : List α) :
    firsts key (l.filter fun a => p (key a)) = (firsts key l).filter fun a => p (key a) := by
  induction l with
  | nil => rfl
  | cons a rest ih =>
    rw [List.filter_cons, firsts, List.filter_cons]
    split
    · rw [firsts, ih, List.filter_filter, List.filter_filter]
      simp only [Bool.and_comm]
    · rename_i dropped
      rw [ih, List.filter_filter]
      -- What is kept has another key anyway.
      refine List.filter_congr fun b _ => ?_
      by_cases same : key b = key a
      · simpa [same] using dropped
      · simp [same]

/-- An entry counts if none before it has its key. -/
theorem firsts_append (first second : List α) :
    firsts key (first ++ second) = firsts key first ++ (firsts key second).filter (key · ∉ first.map key) := by
  induction first with
  | nil => simp [firsts]
  | cons a rest ih =>
    rw [List.cons_append, firsts, ih, firsts, List.cons_append, List.filter_append, List.filter_filter]
    congr 2
    refine List.filter_congr fun b _ => ?_
    simp

theorem mem_map_firsts {k : κ} : k ∈ (firsts key l).map key ↔ k ∈ l.map key := by
  induction l with
  | nil => rfl
  | cons a rest ih =>
    by_cases same : k = key a
    · simp [firsts, same]
    · have later : k ∈ ((firsts key rest).filter (key · ≠ key a)).map key ↔ k ∈ (firsts key rest).map key := by
        simp only [List.mem_map, List.mem_filter, decide_eq_true_eq]
        grind
      rw [firsts, List.map_cons, List.map_cons, List.mem_cons, List.mem_cons, later, ih]

theorem firsts_distinct (l : List α) : ((firsts key l).map key).Nodup := by
  induction l with
  | nil => exact List.nodup_nil
  | cons a rest ih =>
    rw [firsts, List.map_cons, List.nodup_cons]
    refine ⟨?_, ih.sublist (List.filter_sublist.map _)⟩
    simp

theorem firsts_of_distinct (distinct : (l.map key).Nodup) : firsts key l = l := by
  induction l with
  | nil => rfl
  | cons a rest ih =>
    obtain ⟨first, distinct⟩ := List.nodup_cons.mp distinct
    rw [firsts, ih distinct, filter_absent first]

theorem firsts_firsts (l : List α) : firsts key (firsts key l) = firsts key l :=
  firsts_of_distinct (firsts_distinct l)

/-! ## Completing -/

theorem overlay_nil (own : List α) : overlay key own [] = own :=
  List.append_nil own

theorem overlay_eq_firsts (distinct : (own.map key).Nodup) (inherited : List α) :
    overlay key own inherited = firsts key (own ++ inherited) := by
  rw [overlay, firsts_append, firsts_of_distinct distinct]

theorem mem_map_overlay {k : κ} :
    k ∈ (overlay key own inherited).map key ↔ k ∈ own.map key ∨ k ∈ inherited.map key := by
  rw [overlay, List.map_append, List.mem_append, ← mem_map_firsts (l := inherited)]
  by_cases known : k ∈ own.map key
  · simp only [known, true_or]
  · simp only [List.mem_map, List.mem_filter, decide_eq_true_eq]
    grind

/-- Appending what is missing, one after the other, completes a list. -/
theorem foldl_eq_overlay (inherited own : List α) :
    inherited.foldl (fun own a => if key a ∈ own.map key then own else own ++ [a]) own = overlay key own inherited := by
  induction inherited generalizing own with
  | nil => simp [overlay, firsts]
  | cons a rest ih =>
    rw [List.foldl_cons, ih]
    by_cases known : key a ∈ own.map key
    · rw [if_pos known, overlay, overlay, firsts, List.filter_cons_of_neg (by simpa using known), List.filter_filter]
      refine congrArg (own ++ ·) (List.filter_congr fun b _ => ?_)
      have apart : key b ∉ own.map key → key b ≠ key a := fun free same => free (same ▸ known)
      simpa using apart
    · rw [if_neg known, overlay, overlay, firsts, List.filter_cons_of_pos (by simpa using known), List.filter_filter,
        List.append_assoc, List.singleton_append]
      refine congrArg (own ++ a :: ·) (List.filter_congr fun b _ => ?_)
      simp

/-- What has been completed is inherited as if its parts stood one behind the other. -/
theorem overlay_overlay (own first second : List α) :
    overlay key own (overlay key first second) = overlay key own (first ++ second) := by
  have same : firsts key (overlay key first second) = firsts key (first ++ second) := by
    rw [overlay, firsts_append, firsts_append, firsts_filter (fun k => decide (k ∉ first.map key)), firsts_firsts,
      List.filter_filter]
    simp only [Bool.and_self]
  rw [overlay, same, overlay]

/-- Inheriting the same once more adds nothing. -/
theorem overlay_again (own inherited : List α) :
    overlay key (overlay key own inherited) inherited = overlay key own inherited := by
  conv => lhs; rw [overlay]
  rw [List.filter_eq_nil_iff.mpr, List.append_nil]
  intro a member
  rw [decide_eq_true_eq, not_not, mem_map_overlay]
  exact .inr (mem_map_firsts.mp (List.mem_map_of_mem member))

theorem overlay_filter (p : κ → Bool) (own inherited : List α) :
    (overlay key own inherited).filter (fun a => p (key a)) =
      overlay key (own.filter fun a => p (key a)) (inherited.filter fun a => p (key a)) := by
  rw [overlay, overlay, List.filter_append, firsts_filter, List.filter_filter, List.filter_filter]
  refine congrArg (_ ++ ·) (List.filter_congr fun b _ => ?_)
  cases kept : p (key b) with
  | false => simp
  | true =>
    have known : key b ∈ (own.filter fun a => p (key a)).map key ↔ key b ∈ own.map key := by
      simp only [List.mem_map, List.mem_filter]
      constructor
      · rintro ⟨a, ⟨member, _⟩, same⟩
        exact ⟨a, member, same⟩
      · rintro ⟨a, member, same⟩
        exact ⟨a, ⟨member, same ▸ kept⟩, same⟩
    simp [known]

/-- Entries with a key that is there already do not count. -/
theorem overlay_known {k : κ} (known : k ∈ own.map key) (inherited : List α) :
    overlay key own (inherited.filter (key · ≠ k)) = overlay key own inherited := by
  rw [overlay, firsts_filter (fun other => decide (other ≠ k)), List.filter_filter, overlay]
  refine congrArg (own ++ ·) (List.filter_congr fun b _ => ?_)
  have apart : key b ∉ own.map key → key b ≠ k := fun free same => free (same ▸ known)
  simpa using apart

end LaunchTrace.Keyed
