import LaunchTrace.Component.Catalog
import LaunchTrace.Component.Condition
import Mathlib.Data.List.Basic

/-! What the entries of a catalog ask of an environment, and which of them lie below a package. What lies below a
package lies below every wider one. -/
namespace LaunchTrace

namespace CatalogEntry

/-- What an entry asks for: that a property has a value other than `false`, and that one of its profiles is accepted. -/
structure Matches (e : CatalogEntry) (env : Environment) : Prop where
  property : ∀ key ∈ e.onProperty, ∃ value ∈ env.get? key, equalIgnoringCase value "false" = false
  profile : e.profiles ≠ [] → ∃ expression ∈ e.profiles, env.accepts expression = true

variable {e : CatalogEntry} {env : Environment} {inner outer : String}

/-- The conditions of an entry ask for nothing else, whatever there is in the registry. -/
theorem conditions_hold (e : CatalogEntry) (env : Environment) (registry : Registry) (d : ComponentDefinition) :
    (∀ c ∈ e.conditions, c.holds env registry d = true) ↔ e.Matches env := by
  have property (key : String) : Question.holds (.property key none false) env registry d = true ↔
      ∃ value ∈ env.get? key, equalIgnoringCase value "false" = false := by
    cases found : env.get? key <;> simp [Question.holds, found]
  have profile : Question.holds (.profile e.profiles) env registry d = true ↔
      ∃ expression ∈ e.profiles, env.accepts expression = true := by
    simp [Question.holds]
  constructor
  · intro all
    refine ⟨fun key asked => (property key).mp (all ⟨none, .property key none false⟩ ?_),
      fun some => profile.mp (all ⟨none, .profile e.profiles⟩ ?_)⟩
    · simp [conditions, Option.mem_def.mp asked]
    · simp [conditions, some]
  · rintro ⟨asked, some⟩ c member
    rcases List.mem_append.mp member with first | second
    · obtain ⟨key, set, rfl⟩ := Option.map_eq_some_iff.mp (Option.mem_toList.mp first)
      exact (property key).mpr (asked key set)
    · split at second
      · contradiction
      · rename_i given
        obtain rfl := List.mem_singleton.mp second
        exact profile.mpr (some given)

instance : Decidable (e.Matches env) :=
  decidable_of_iff _ (e.conditions_hold env .empty ((e.toClass).define ""))

/-- They count in every phase. -/
theorem conditions_phase {c : Condition} (member : c ∈ e.conditions) : c.phase = none := by
  rcases List.mem_append.mp member with first | second
  · obtain ⟨key, _, rfl⟩ := Option.map_eq_some_iff.mp (Option.mem_toList.mp first)
    rfl
  · split at second
    · contradiction
    · obtain rfl := List.mem_singleton.mp second
      rfl

/-! ## Packages -/

theorem isUnder_iff : e.isUnder outer = true ↔ packageStem outer = [] ∨
    ∃ rest, e.typeName.toList = packageStem outer ++ rest ∧ startsBelow rest = true := by
  rw [isUnder, Bool.or_eq_true, decide_eq_true_eq, Bool.and_eq_true, List.isPrefixOf_iff_prefix]
  refine or_congr_right ?_
  constructor
  · rintro ⟨⟨rest, same⟩, below⟩
    rw [← same, List.drop_left] at below
    exact ⟨rest, same.symm, below⟩
  · rintro ⟨rest, same, below⟩
    rw [same, List.drop_left]
    exact ⟨List.prefix_append _ _, below⟩

end CatalogEntry

/-- One package is another, or its name goes on behind that of the other with a dot or two colons. -/
def SubPackage (inner outer : String) : Prop :=
  inner = outer ∨ outer.toList.getLast? ≠ some '.' ∧ outer.toList.getLast? ≠ some ':' ∧
    ∃ text, inner = outer ++ "." ++ text ∨ inner = outer ++ "::" ++ text

namespace CatalogEntry

variable {e : CatalogEntry} {inner outer : String}

/-- A stem ends where the last separators begin, wherever the name is cut in two. -/
theorem packageStem_append (front back : String) : packageStem (front ++ back) =
    if packageStem back = [] then packageStem front else front.toList ++ packageStem back := by
  simp only [packageStem, String.toList_append, List.reverse_append, List.dropWhile_append, List.isEmpty_iff,
    List.reverse_eq_nil_iff]
  split
  · rfl
  · rw [List.reverse_append, List.reverse_reverse]

theorem packageStem_of_last (dot : outer.toList.getLast? ≠ some '.') (colon : outer.toList.getLast? ≠ some ':') :
    packageStem outer = outer.toList := by
  rw [← List.head?_reverse] at dot colon
  have stays : outer.toList.reverse.dropWhile (fun c => c = '.' || c = ':') = outer.toList.reverse := by
    cases letters : outer.toList.reverse with
    | nil => rfl
    | cons c rest =>
      rw [letters] at dot colon
      have other : ¬ ((c = '.' || c = ':') = true) := by simpa using And.intro dot colon
      exact List.dropWhile_cons_of_neg other
  rw [packageStem, stays, List.reverse_reverse]

/-- What lies below a package lies below every package that this one is part of. -/
theorem isUnder_of_subPackage (sub : SubPackage inner outer) (under : e.isUnder inner = true) :
    e.isUnder outer = true := by
  rcases sub with rfl | ⟨dot, colon, text, longer⟩
  · exact under
  · have whole := packageStem_of_last dot colon
    obtain ⟨separator, bare, separated, rfl⟩ : ∃ separator : String, packageStem separator = [] ∧
        (∀ rest, startsBelow (separator.toList ++ rest) = true) ∧ inner = outer ++ (separator ++ text) := by
      rcases longer with rfl | rfl
      · exact ⟨".", by decide, fun _ => rfl, String.append_assoc ..⟩
      · exact ⟨"::", by decide, fun _ => rfl, String.append_assoc ..⟩
    rw [isUnder_iff, packageStem_append] at under
    split at under
    · exact isUnder_iff.mpr under
    · -- Behind the wider package the type name goes on with the separator.
      rename_i longer
      have behind : packageStem (separator ++ text) = separator.toList ++ packageStem text := by
        rw [packageStem_append] at longer ⊢
        split at longer
        · exact absurd bare longer
        · rename_i named
          exact if_neg named
      rcases under with none | ⟨rest, same, _⟩
      · exact absurd (List.append_eq_nil_iff.mp none).2 longer
      · refine isUnder_iff.mpr (.inr ⟨separator.toList ++ (packageStem text ++ rest), ?_, separated _⟩)
        rw [same, behind, whole, List.append_assoc, List.append_assoc]

end CatalogEntry

/-- The entries below the packages, package by package. -/
def Catalog.below (c : Catalog) (packages : List String) : List CatalogEntry :=
  packages.flatMap fun package => c.components.filter (·.isUnder package)

namespace Catalog

theorem flatMap_candidates (c : Catalog) (packages : List String) :
    packages.flatMap c.candidates = (c.below packages).map (·.toClass) := by
  rw [below, List.map_flatMap]
  rfl

theorem mem_below {c : Catalog} {packages : List String} {e : CatalogEntry} :
    e ∈ c.below packages ↔ ∃ package ∈ packages, e ∈ c.components ∧ e.isUnder package = true := by
  simp [below]

end Catalog
end LaunchTrace
