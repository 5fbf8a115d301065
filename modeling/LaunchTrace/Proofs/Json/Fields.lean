import LaunchTrace.Json.Record
import LaunchTrace.Proofs.Json.RoundTrip
import Mathlib.Data.List.Nodup

/-! Objects in which fields without a value are left out. Under the key of each field there is what it has. -/
namespace LaunchTrace

namespace Json

/-- The keys of an object in their order. -/
def keys : Json → List (Option String)
  | .object members => members.map (·.1)
  | _ => []

/-- Items that are read one by one are read together. -/
theorem mapM_map_of_reads {α β : Type} {write : α → β} {read : β → Option α}
    (reads : ∀ a, read (write a) = some a) (items : List α) : (items.map write).mapM read = some items := by
  simp only [List.mapM_map, Function.comp_def, reads]
  exact (List.mapM_pure (m := Option)).trans (congrArg some items.map_id)

theorem texts?_ofStrings (texts : List String) : (ofStrings texts).texts? = some texts := by
  have each (s : String) : text? (ofString s) = some s := rfl
  exact mapM_map_of_reads each texts

theorem Plain.ofStrings (texts : List String) : (Json.ofStrings texts).Plain := by
  apply Plain.array
  intro item member
  obtain ⟨s, -, rfl⟩ := List.mem_map.mp member
  exact .string s

namespace Record

variable {fields rest : List (String × Option Json)} {key : String} {value : Option Json}

/-- The members that are left of some fields when those without a value are left out. -/
def present (fields : List (String × Option Json)) : List (String × Json) :=
  fields.filterMap fun (key, value) => value.map (key, ·)

theorem present_nil : present [] = [] := rfl

theorem present_cons (key : String) (value : Option Json) (rest : List (String × Option Json)) :
    present ((key, value) :: rest) = (value.map (key, ·)).toList ++ present rest := by
  cases value <;> rfl

theorem mem_present {v : Json} : (key, v) ∈ present fields ↔ (key, some v) ∈ fields := by
  simp only [present, List.mem_filterMap, Prod.exists]
  constructor
  · rintro ⟨other, value, member, same⟩
    obtain ⟨v, rfl, pair⟩ := Option.map_eq_some_iff.mp same
    obtain ⟨rfl, rfl⟩ := Prod.mk.inj pair
    exact member
  · intro member
    exact ⟨key, some v, member, rfl⟩

theorem valuesOf_absent (unknown : key ∉ rest.map (·.1)) : valuesOf ⟨present rest⟩ key = [] := by
  apply List.map_eq_nil_iff.mpr
  apply List.filter_eq_nil_iff.mpr
  rintro ⟨other, v⟩ member same
  obtain rfl := of_decide_eq_true same
  exact unknown (List.mem_map_of_mem (mem_present.mp member))

/-- Under the key of a field there is its value, if it has one. -/
theorem valuesOf_present (distinct : (fields.map (·.1)).Nodup) (member : (key, value) ∈ fields) :
    valuesOf ⟨present fields⟩ key = value.toList := by
  induction fields with
  | nil => contradiction
  | cons field rest ih =>
    obtain ⟨first, v⟩ := field
    obtain ⟨fresh, distinct⟩ := List.nodup_cons.mp distinct
    have parted (key : String) : valuesOf ⟨present ((first, v) :: rest)⟩ key =
        valuesOf ⟨(v.map (first, ·)).toList⟩ key ++ valuesOf ⟨present rest⟩ key := by
      simp only [present_cons, valuesOf, List.filter_append, List.map_append]
    rw [parted]
    rcases List.mem_cons.mp member with same | later
    · obtain ⟨rfl, rfl⟩ := Prod.mk.inj same
      rw [valuesOf_absent fresh, List.append_nil]
      cases value <;> simp [valuesOf]
    · have different : first ≠ key := by
        rintro rfl
        exact fresh (List.mem_map.mpr ⟨_, later, rfl⟩)
      rw [ih distinct later]
      cases v <;> simp [valuesOf, different]

theorem optional?_present (distinct : (fields.map (·.1)).Nodup) (member : (key, value) ∈ fields) :
    optional? ⟨present fields⟩ key = some value := by
  rw [optional?, valuesOf_present distinct member]
  cases value <;> rfl

theorem required?_present {v : Json} (distinct : (fields.map (·.1)).Nodup) (member : (key, some v) ∈ fields) :
    required? ⟨present fields⟩ key = some v := by
  rw [required?, valuesOf_present distinct member]
  rfl

/-- A key is written exactly if its field has a value. -/
theorem mem_keys_present (distinct : (fields.map (·.1)).Nodup) (member : (key, value) ∈ fields) :
    some key ∈ (ofMembers (present fields)).keys ↔ value ≠ none := by
  have written : some key ∈ (ofMembers (present fields)).keys ↔ valuesOf ⟨present fields⟩ key ≠ [] := by
    simp [ofMembers, keys, valuesOf]
  rw [written, valuesOf_present distinct member]
  cases value <;> simp

end Record
end Json
end LaunchTrace
