import LaunchTrace.Component.Condition
import LaunchTrace.Proofs.Keyed

/-! What registering and removing do to the definitions of a registry, as lists in the order of registration. -/
namespace LaunchTrace.Registry

variable {r after : Registry} {d : ComponentDefinition} {name : String} {gone : List String}

theorem registerScope_definitions (r : Registry) (scope : String) :
    (r.registerScope scope).definitions = r.definitions := by
  unfold registerScope
  split <;> rfl

theorem registerSingleton_definitions (r : Registry) (name description : String) :
    (r.registerSingleton name description).definitions = r.definitions := by
  unfold registerSingleton
  split <;> rfl

theorem get?_eq_none : r.get? name = none ↔ name ∉ r.names := by
  simp [get?, names, List.find?_eq_none]

/-- A name that is free goes behind all others. -/
theorem put_of_fresh (fresh : d.name ∉ r.names) : r.put d = { r with definitions := r.definitions ++ [d] } := by
  rw [put, get?_eq_none.mpr fresh]
  rfl

/-- A definition takes the place of the one with its name, or a place of its own. -/
theorem names_put (r : Registry) (d : ComponentDefinition) :
    (r.put d).names = if d.name ∈ r.names then r.names else r.names ++ [d.name] := by
  by_cases known : d.name ∈ r.names
  · have found : (r.get? d.name).isSome = true := Option.isSome_iff_ne_none.mpr (get?_eq_none.not_left.mpr known)
    rw [put, if_pos found, if_pos known]
    exact Keyed.keys_replace
  · rw [put, get?_eq_none.mpr known, if_neg known]
    simp [names]

theorem register_ok (registered : r.register d = .ok after) : after = r.put d := by
  unfold register at registered
  split at registered
  · split at registered
    · contradiction
    · exact (Except.ok.inj registered).symm
  · exact (Except.ok.inj registered).symm

/-- A registration brings in no definition but its own. -/
theorem mem_of_register {e : ComponentDefinition} (registered : r.register d = .ok after)
    (member : e ∈ after.definitions) : e ∈ r.definitions ∨ e = d := by
  rw [register_ok registered, put] at member
  split at member
  · obtain ⟨old, there, rfl⟩ := List.mem_map.mp member
    split
    · exact .inr rfl
    · exact .inl there
  · simpa using member

/-- Names that are distinct stay so when a definition is registered. -/
theorem register_distinct (registered : r.register d = .ok after) (distinct : r.names.Nodup) : after.names.Nodup := by
  rw [register_ok registered, names_put]
  split
  · exact distinct
  · rename_i fresh
    rw [← List.concat_eq_append]
    exact distinct.concat fresh

/-- Only a definition of another type keeps a name from being registered, and only where overriding is off. -/
theorem register_eq_error {e : ContextError} : r.register d = .error e ↔
    ∃ existing, r.get? d.name = some existing ∧ existing.typeName ≠ d.typeName ∧ r.overriding = false ∧
      e = .duplicateComponent d.name d.typeName existing.typeName := by
  unfold register
  cases found : r.get? d.name with
  | none => simp
  | some existing =>
    simp only [Option.some.injEq, exists_eq_left', Bool.not_eq_true]
    split
    · rename_i clash
      simp [clash, eq_comm]
    · rename_i fits
      simp only [reduceCtorEq, false_iff]
      exact fun ⟨other, off, _⟩ => fits ⟨other, off⟩

theorem isSome_get? : (r.get? name).isSome = true ↔ name ∈ r.names := by
  rw [Option.isSome_iff_ne_none, ne_eq, get?_eq_none, not_not]

/-- What is looked up once a definition has its place. -/
theorem get?_put (r : Registry) (d : ComponentDefinition) (name : String) :
    (r.put d).get? name = if d.name = name then some d else r.get? name := by
  unfold put
  split
  · rename_i known
    split
    · rename_i own
      subst own
      exact Keyed.find?_replace (isSome_get?.mp known)
    · rename_i other
      exact Keyed.find?_replace_of_ne other
  · rename_i fresh
    rw [get?, List.find?_append, ← get?]
    split
    · rename_i own
      subst own
      have absent : r.get? d.name = none := by simpa using fresh
      simp [absent]
    · rename_i other
      simp [other]

theorem names_remove_sublist (r : Registry) (name : String) : (r.remove name).names.Sublist r.names :=
  (List.eraseP_sublist).map _

theorem names_removeAll_sublist (r : Registry) (gone : List String) : (gone.foldl remove r).names.Sublist r.names := by
  induction gone generalizing r with
  | nil => exact .refl _
  | cons name rest ih => exact (ih (r.remove name)).trans (r.names_remove_sublist name)

/-- No second definition is left under a name that has been removed. -/
theorem remove_eq (distinct : r.names.Nodup) :
    r.remove name = { r with definitions := r.definitions.filter (·.name ≠ name) } := by
  rw [remove, Keyed.eraseP_eq_filter distinct]

theorem names_remove (distinct : r.names.Nodup) (name : String) :
    (r.remove name).names = r.names.filter (· ≠ name) := by
  rw [remove_eq distinct, names, names, List.filter_map]
  rfl

theorem removeAll_eq (distinct : r.names.Nodup) :
    gone.foldl remove r = { r with definitions := r.definitions.filter (·.name ∉ gone) } := by
  induction gone generalizing r with
  | nil => simp
  | cons name rest ih =>
    rw [List.foldl_cons, ih (distinct.sublist (r.names_remove_sublist name)), remove_eq distinct, List.filter_filter]
    congr 1
    apply List.filter_congr
    intro d _
    simp [Bool.and_comm]

end LaunchTrace.Registry
