import Mathlib.Data.List.Nodup

/-! Lists in which every entry has a key of its own: an entry is found, replaced and taken out by its key, and the
others stay where they are. -/
namespace LaunchTrace.Keyed

variable {α κ : Type} {key : α → κ} {k : κ} {l : List α} {a : α}

/-- The entry of a key stands between entries with other keys. -/
theorem split (known : k ∈ l.map key) (distinct : (l.map key).Nodup) :
    ∃ before found after, l = before ++ found :: after ∧ key found = k ∧ k ∉ before.map key ∧ k ∉ after.map key := by
  obtain ⟨found, member, same⟩ := List.mem_map.mp known
  obtain ⟨before, after, rfl⟩ := List.append_of_mem member
  rw [List.map_append, List.map_cons, same] at distinct
  obtain ⟨_, later, apart⟩ := List.nodup_append.mp distinct
  exact ⟨before, found, after, rfl, same, fun early => apart k early k List.mem_cons_self rfl,
    (List.nodup_cons.mp later).1⟩

variable [DecidableEq κ]

theorem eraseP_absent (absent : k ∉ l.map key) : l.eraseP (key · = k) = l := by
  apply List.eraseP_of_forall_not
  intro e member
  rw [decide_eq_true_eq]
  rintro rfl
  exact absent (List.mem_map_of_mem member)

theorem filter_absent (absent : k ∉ l.map key) : l.filter (key · ≠ k) = l := by
  rw [List.filter_eq_self]
  intro e member
  rw [decide_eq_true_eq]
  rintro rfl
  exact absent (List.mem_map_of_mem member)

theorem map_absent (absent : key a ∉ l.map key) : (l.map fun e => if key e = key a then a else e) = l := by
  conv => rhs; rw [← List.map_id l]
  apply List.map_congr_left
  intro e member
  rw [if_neg, id]
  intro same
  exact absent (List.mem_map.mpr ⟨e, member, same⟩)

/-- An entry that takes the place of those with its key brings no other key. -/
theorem keys_replace : (l.map fun e => if key e = key a then a else e).map key = l.map key := by
  rw [List.map_map]
  apply List.map_congr_left
  intro e _
  rw [Function.comp_apply]
  split
  · rename_i same
    exact same.symm
  · rfl

/-- Where keys are distinct, taking out the first entry of a key takes out all of them. -/
theorem eraseP_eq_filter (distinct : (l.map key).Nodup) : l.eraseP (key · = k) = l.filter (key · ≠ k) := by
  induction l with
  | nil => rfl
  | cons e rest ih =>
    obtain ⟨first, distinct⟩ := List.nodup_cons.mp distinct
    by_cases found : key e = k
    · rw [List.eraseP_cons_of_pos (by simpa using found), List.filter_cons_of_neg (by simpa using found),
        filter_absent (found ▸ first)]
    · rw [List.eraseP_cons_of_neg (by simpa using found), List.filter_cons_of_pos (by simpa using found), ih distinct]

theorem find?_eq_some (distinct : (l.map key).Nodup) : l.find? (key · = k) = some a ↔ a ∈ l ∧ key a = k := by
  constructor
  · intro found
    exact ⟨List.mem_of_find?_eq_some found, by simpa using List.find?_some found⟩
  · rintro ⟨member, rfl⟩
    obtain ⟨found, there⟩ : ∃ found, l.find? (key · = key a) = some found :=
      Option.isSome_iff_exists.mp (List.find?_isSome.mpr ⟨a, member, by simp⟩)
    have same : key found = key a := by simpa using List.find?_some there
    rw [there, List.inj_on_of_nodup_map distinct (List.mem_of_find?_eq_some there) member same]

theorem find?_replace (known : key a ∈ l.map key) :
    (l.map fun e => if key e = key a then a else e).find? (key · = key a) = some a := by
  induction l with
  | nil => contradiction
  | cons e rest ih =>
    by_cases replaced : key e = key a
    · simp [replaced]
    · have later : key a ∈ rest.map key := (List.mem_cons.mp known).resolve_left (Ne.symm replaced)
      rw [List.map_cons, if_neg replaced, List.find?_cons_of_neg (by simpa using replaced), ih later]

theorem find?_replace_of_ne (apart : key a ≠ k) :
    (l.map fun e => if key e = key a then a else e).find? (key · = k) = l.find? (key · = k) := by
  induction l with
  | nil => rfl
  | cons e rest ih =>
    by_cases replaced : key e = key a
    · have passed : ¬ key e = k := fun same => apart (replaced.symm.trans same)
      rw [List.map_cons, if_pos replaced, List.find?_cons_of_neg (by simpa using apart),
        List.find?_cons_of_neg (by simpa using passed), ih]
    · rw [List.map_cons, if_neg replaced, List.find?_cons, List.find?_cons, ih]

theorem find?_eraseP_of_ne {other : κ} (apart : k ≠ other) :
    (l.eraseP (key · = other)).find? (key · = k) = l.find? (key · = k) := by
  induction l with
  | nil => rfl
  | cons e rest ih =>
    by_cases gone : key e = other
    · have passed : ¬ key e = k := fun same => apart (same.symm.trans gone)
      rw [List.eraseP_cons_of_pos (by simpa using gone), List.find?_cons_of_neg (by simpa using passed)]
    · rw [List.eraseP_cons_of_neg (by simpa using gone), List.find?_cons, List.find?_cons, ih]

end LaunchTrace.Keyed
