import LaunchTrace.Component.Operation
import LaunchTrace.Proofs.Component.Registry
import Mathlib.Data.List.Induction
import Mathlib.Data.Nat.Find

/-! The order of the names in a registry, told from what was asked of it and what it answered. A name has the place of
the first registration that no removal has followed; what is registered again keeps its place, and what is refused
leaves no trace. -/
namespace LaunchTrace

/-- An operation with its reply. -/
abbrev RegistryEntry := RegistryOperation × RegistryReply

namespace RegistryEntry

/-- A definition with the name was registered. -/
def Accepts (entry : RegistryEntry) (name : String) : Prop :=
  ∃ d, entry = (.register d, .registered (.ok ())) ∧ d.name = name

/-- The definition with the name, if there was one, was removed. -/
def Removes (entry : RegistryEntry) (name : String) : Prop :=
  entry.1 = .remove name

variable {entry : RegistryEntry} {d : ComponentDefinition} {outcome : Except ContextError Unit} {reply : RegistryReply}
  {name other : String}

theorem accepts_register : Accepts (.register d, .registered outcome) name ↔ outcome = .ok () ∧ d.name = name := by
  constructor
  · rintro ⟨_, same, named⟩
    cases same
    exact ⟨rfl, named⟩
  · rintro ⟨rfl, named⟩
    exact ⟨d, rfl, named⟩

theorem not_accepts_remove : ¬ Accepts (.remove other, reply) name := by
  rintro ⟨_, same, _⟩
  cases same

theorem not_accepts_done (op : RegistryOperation) (name : String) : ¬ Accepts (op, .done) name := by
  rintro ⟨_, same, _⟩
  cases same

theorem removes_remove : Removes (.remove other, reply) name ↔ other = name := by
  rw [Removes, RegistryOperation.remove.injEq]

theorem not_removes_register : ¬ Removes (.register d, reply) name :=
  RegistryOperation.noConfusion

theorem Accepts.not_removes (accepts : entry.Accepts name) (other : String) : ¬ entry.Removes other := by
  obtain ⟨d, rfl, _⟩ := accepts
  exact not_removes_register

end RegistryEntry

/-- A registration of the name that stands: it was accepted, and nothing has removed the name since. -/
def Stands (journal : List RegistryEntry) (name : String) (i : Nat) : Prop :=
  (∃ entry, journal[i]? = some entry ∧ entry.Accepts name) ∧
    ∀ k > i, ∀ entry, journal[k]? = some entry → ¬ entry.Removes name

/-- The first registration of the name since it was last removed. -/
def Entered (journal : List RegistryEntry) (name : String) (i : Nat) : Prop :=
  Stands journal name i ∧ ∀ j, Stands journal name j → i ≤ j

section Journal

variable {journal : List RegistryEntry} {entry : RegistryEntry} {name : String} {i j : Nat}

theorem getElem?_concat {found : RegistryEntry} : (journal ++ [entry])[i]? = some found ↔
    journal[i]? = some found ∨ i = journal.length ∧ entry = found := by
  rw [List.getElem?_append]
  split
  · rename_i inside
    simp [Nat.ne_of_lt inside]
  · rename_i outside
    rw [List.getElem?_singleton, List.getElem?_eq_none (Nat.le_of_not_lt outside)]
    split
    · rename_i last
      have same : i = journal.length := by omega
      simp [same]
    · rename_i beyond
      have other : i ≠ journal.length := by omega
      simp [other]

theorem Stands.lt (stands : Stands journal name i) : i < journal.length := by
  obtain ⟨⟨entry, there, _⟩, _⟩ := stands
  exact (List.getElem?_eq_some_iff.mp there).1

theorem Stands.entered (stands : Stands journal name i) : ∃ first, Entered journal name first := by
  classical
  have some : ∃ i, Stands journal name i := ⟨i, stands⟩
  exact ⟨Nat.find some, Nat.find_spec some, fun j other => Nat.find_min' some other⟩

/-- One more entry takes a registration away, adds one, or leaves them all standing. -/
theorem stands_concat : Stands (journal ++ [entry]) name i ↔
    Stands journal name i ∧ ¬ entry.Removes name ∨ i = journal.length ∧ entry.Accepts name := by
  constructor
  · rintro ⟨⟨found, there, accepts⟩, kept⟩
    rcases getElem?_concat.mp there with early | ⟨rfl, rfl⟩
    · have inside := (List.getElem?_eq_some_iff.mp early).1
      have stays := kept _ inside entry (getElem?_concat.mpr (.inr ⟨rfl, rfl⟩))
      exact .inl ⟨⟨⟨found, early, accepts⟩, fun k behind other at_ =>
        kept k behind other (getElem?_concat.mpr (.inl at_))⟩, stays⟩
    · exact .inr ⟨rfl, accepts⟩
  · rintro (⟨⟨⟨found, there, accepts⟩, kept⟩, stays⟩ | ⟨rfl, accepts⟩)
    · refine ⟨⟨found, getElem?_concat.mpr (.inl there), accepts⟩, fun k behind other at_ => ?_⟩
      rcases getElem?_concat.mp at_ with early | ⟨_, rfl⟩
      · exact kept k behind other early
      · exact stays
    · refine ⟨⟨entry, getElem?_concat.mpr (.inr ⟨rfl, rfl⟩), accepts⟩, fun k behind other at_ => ?_⟩
      have bound := (List.getElem?_eq_some_iff.mp at_).1
      rw [List.length_append, List.length_singleton] at bound
      omega

/-- A registration that stood before keeps its number. -/
theorem Entered.earlier (stood : Stands journal name j) (entered : Entered (journal ++ [entry]) name i) :
    Entered journal name i := by
  obtain ⟨stands, first⟩ := entered
  -- The entry is no removal, since some registration still stands.
  have stays : ¬ entry.Removes name := by
    rcases stands_concat.mp stands with ⟨_, stays⟩ | ⟨_, accepts⟩
    · exact stays
    · exact accepts.not_removes name
  have before := first j (stands_concat.mpr (.inl ⟨stood, stays⟩))
  have inside := stood.lt
  refine ⟨?_, fun k other => first k (stands_concat.mpr (.inl ⟨other, stays⟩))⟩
  rcases stands_concat.mp stands with ⟨early, _⟩ | ⟨rfl, _⟩
  · exact early
  · omega

end Journal

namespace Registry

variable {r after : Registry} {op : RegistryOperation} {ops : List RegistryOperation} {journal : List RegistryEntry}
  {d : ComponentDefinition} {name : String}

/-! ## What an operation does to the names -/

/-- The names are in the order in which they came in. -/
structure Ordered (r : Registry) (journal : List RegistryEntry) : Prop where
  distinct : r.names.Nodup
  known : ∀ name, name ∈ r.names ↔ ∃ i, Stands journal name i
  ordered : r.names.Pairwise fun a b => ∀ i j, Entered journal a i → Entered journal b j → i < j

/-- Names that stay keep their order. -/
theorem Ordered.kept {entry : RegistryEntry} {names : List String} (ordered : r.Ordered journal)
    (some : names.Sublist r.names) :
    names.Pairwise fun a b => ∀ i j, Entered (journal ++ [entry]) a i → Entered (journal ++ [entry]) b j → i < j := by
  refine (ordered.ordered.sublist some).imp_of_mem fun {a b} first second apart i j enters later => ?_
  obtain ⟨_, stood⟩ := (ordered.known a).mp (some.subset first)
  obtain ⟨_, other⟩ := (ordered.known b).mp (some.subset second)
  exact apart i j (enters.earlier stood) (later.earlier other)

theorem Ordered.aside {entry : RegistryEntry} (ordered : r.Ordered journal) (same : after.names = r.names)
    (accepts : ∀ name, ¬ entry.Accepts name) (removes : ∀ name, ¬ entry.Removes name) :
    after.Ordered (journal ++ [entry]) where
  distinct := by
    rw [same]
    exact ordered.distinct
  known := by
    intro name
    simp only [same, ordered.known, stands_concat, accepts, removes, not_false_eq_true, and_true, and_false, or_false]
  ordered := by
    rw [same]
    exact ordered.kept (.refl _)

theorem Ordered.put (ordered : r.Ordered journal) (d : ComponentDefinition) :
    (r.put d).Ordered (journal ++ [(.register d, .registered (.ok ()))]) where
  distinct := by
    rw [names_put]
    split
    · exact ordered.distinct
    · rename_i fresh
      rw [← List.concat_eq_append]
      exact ordered.distinct.concat fresh
  known := by
    intro name
    simp only [stands_concat, RegistryEntry.not_removes_register, RegistryEntry.accepts_register, not_false_eq_true,
      and_true, true_and, exists_or, ← ordered.known, exists_eq_left, names_put]
    split
    · rename_i there
      constructor
      · exact .inl
      · rintro (other | rfl)
        · exact other
        · exact there
    · rw [List.mem_append, List.mem_singleton, eq_comm]
  ordered := by
    rw [names_put]
    split
    · exact ordered.kept (.refl _)
    · -- The new name comes in last.
      rename_i fresh
      refine List.pairwise_append.mpr ⟨ordered.kept (.refl _), List.pairwise_singleton _ _, ?_⟩
      intro a there b last i j enters later
      obtain rfl := List.mem_singleton.mp last
      obtain ⟨_, stood⟩ := (ordered.known a).mp there
      have inside := (enters.earlier stood).1.lt
      rcases stands_concat.mp later.1 with ⟨stands, _⟩ | ⟨rfl, _⟩
      · exact absurd ((ordered.known d.name).mpr ⟨j, stands⟩) fresh
      · exact inside

theorem Ordered.remove (ordered : r.Ordered journal) (name : String) (reply : RegistryReply) :
    (r.remove name).Ordered (journal ++ [(.remove name, reply)]) where
  distinct := by
    rw [names_remove ordered.distinct]
    exact ordered.distinct.filter _
  known := by
    intro other
    simp only [names_remove ordered.distinct, List.mem_filter, decide_eq_true_eq, stands_concat,
      RegistryEntry.not_accepts_remove, RegistryEntry.removes_remove, and_false, or_false, exists_and_right,
      ordered.known, ne_comm]
  ordered := ordered.kept (r.names_remove_sublist name)

/-- The name belongs to a definition of another type, and overriding is off. -/
def Refuses (r : Registry) (d : ComponentDefinition) : Prop :=
  ∃ existing, r.get? d.name = some existing ∧ existing.typeName ≠ d.typeName ∧ r.overriding = false

theorem apply_refused (refuses : r.Refuses d) : ∃ e, r.apply (.register d) = (.registered (.error e), r) := by
  obtain ⟨existing, there, other, off⟩ := refuses
  have refused := register_eq_error.mpr ⟨existing, there, other, off, rfl⟩
  exact ⟨_, by rw [Registry.apply, refused]⟩

theorem apply_accepted (accepts : ¬ r.Refuses d) : r.apply (.register d) = (.registered (.ok ()), r.put d) := by
  cases registered : r.register d with
  | error e =>
    obtain ⟨existing, there, other, off, _⟩ := register_eq_error.mp registered
    exact absurd ⟨existing, there, other, off⟩ accepts
  | ok after => simp only [Registry.apply, registered, register_ok registered]

theorem Ordered.apply (ordered : r.Ordered journal) (op : RegistryOperation) :
    (r.apply op).2.Ordered (journal ++ [(op, (r.apply op).1)]) := by
  cases op with
  | register d =>
    by_cases refuses : r.Refuses d
    · obtain ⟨e, refused⟩ := apply_refused refuses
      rw [refused]
      refine ordered.aside rfl (fun name accepts => ?_) fun _ => RegistryEntry.not_removes_register
      cases (RegistryEntry.accepts_register.mp accepts).1
    · rw [apply_accepted refuses]
      exact ordered.put d
  | remove name => exact ordered.remove name _
  | setOverriding allowed =>
    exact ordered.aside rfl (RegistryEntry.not_accepts_done _) fun _ => RegistryOperation.noConfusion
  | registerSingleton name description =>
    have same : (r.registerSingleton name description).names = r.names := by
      rw [names, registerSingleton_definitions, names]
    exact ordered.aside same (RegistryEntry.not_accepts_done _) fun _ => RegistryOperation.noConfusion
  | registerScope scope =>
    have same : (r.registerScope scope).names = r.names := by
      rw [names, registerScope_definitions, names]
    exact ordered.aside same (RegistryEntry.not_accepts_done _) fun _ => RegistryOperation.noConfusion

/-! ## Runs -/

theorem run_concat (r : Registry) (ops : List RegistryOperation) (op : RegistryOperation) :
    r.run (ops ++ [op]) =
      ((r.run ops).1 ++ [((r.run ops).2.apply op).1], ((r.run ops).2.apply op).2) := by
  induction ops generalizing r with
  | nil => rfl
  | cons first ops ih =>
    rw [List.cons_append, run]
    simp only [ih]
    rfl

theorem run_length (r : Registry) (ops : List RegistryOperation) : (r.run ops).1.length = ops.length := by
  induction ops generalizing r with
  | nil => rfl
  | cons op ops ih => exact congrArg (· + 1) (ih _)

/-- The operations on a new registry with their replies. -/
def transcript (ops : List RegistryOperation) : List RegistryEntry :=
  ops.zip (empty.run ops).1

theorem run_ordered (ops : List RegistryOperation) : (empty.run ops).2.Ordered (transcript ops) := by
  induction ops using List.reverseRecOn with
  | nil =>
    refine ⟨List.nodup_nil, fun name => ?_, .nil⟩
    simp [empty, run, names, transcript, Stands]
  | append_singleton ops op ih =>
    have grown : transcript (ops ++ [op]) = transcript ops ++ [(op, ((empty.run ops).2.apply op).1)] := by
      rw [transcript, run_concat, List.zip_append (run_length empty ops).symm]
      rfl
    rw [grown, run_concat]
    exact ih.apply op

/-! ## Types -/

theorem get?_remove_of_ne {other : String} (apart : name ≠ other) : (r.remove other).get? name = r.get? name :=
  Keyed.find?_eraseP_of_ne apart

theorem put_overriding (r : Registry) (d : ComponentDefinition) : (r.put d).overriding = r.overriding := by
  unfold put
  split <;> rfl

/-- While overriding is off, an operation keeps the type of a name that it does not remove. -/
theorem apply_keepsType (off : r.overriding = false) (still : op ≠ .setOverriding true) (kept : op ≠ .remove name)
    (there : r.get? name = some d) :
    (r.apply op).2.overriding = false ∧ ∃ e, (r.apply op).2.get? name = some e ∧ e.typeName = d.typeName := by
  cases op with
  | register new =>
    by_cases refuses : r.Refuses new
    · obtain ⟨e, refused⟩ := apply_refused refuses
      rw [refused]
      exact ⟨off, d, there, rfl⟩
    · rw [apply_accepted refuses]
      refine ⟨(r.put_overriding new).trans off, ?_⟩
      dsimp only
      rw [get?_put]
      split
      · rename_i same
        refine ⟨new, rfl, ?_⟩
        by_contra clash
        exact refuses ⟨d, same ▸ there, Ne.symm clash, off⟩
      · exact ⟨d, there, rfl⟩
  | remove other =>
    have apart : name ≠ other := fun same => kept (congrArg _ same.symm)
    exact ⟨off, d, (get?_remove_of_ne apart).trans there, rfl⟩
  | setOverriding allowed =>
    cases allowed with
    | true => exact absurd rfl still
    | false => exact ⟨rfl, d, there, rfl⟩
  | registerSingleton other description =>
    refine ⟨?_, d, ?_, rfl⟩
    · simp only [Registry.apply, registerSingleton]
      split <;> exact off
    · rw [Registry.apply, get?, registerSingleton_definitions]
      exact there
  | registerScope scope =>
    refine ⟨?_, d, ?_, rfl⟩
    · simp only [Registry.apply, registerScope]
      split <;> exact off
    · rw [Registry.apply, get?, registerScope_definitions]
      exact there

theorem run_keepsType (off : r.overriding = false) (still : .setOverriding true ∉ ops) (kept : .remove name ∉ ops)
    (there : r.get? name = some d) : ∃ e, (r.run ops).2.get? name = some e ∧ e.typeName = d.typeName := by
  induction ops generalizing r d with
  | nil => exact ⟨d, there, rfl⟩
  | cons op ops ih =>
    rw [List.mem_cons, not_or] at still kept
    obtain ⟨off, e, found, same⟩ := apply_keepsType off (Ne.symm still.1) (Ne.symm kept.1) there
    obtain ⟨last, held, type⟩ := ih off still.2 kept.2 found
    exact ⟨last, held, type.trans same⟩

/-- After any operations each definition is found under its name, which no other has. The names are in the order in
which they came in and were not removed again. A registration is refused for a clash of types only, and then changes
nothing. While overriding is off, only a removal makes a name free for another type. -/
theorem run_registry (ops : List RegistryOperation) :
    let r := (empty.run ops).2
    r.names.Nodup ∧ (∀ name d, r.get? name = some d ↔ d ∈ r.definitions ∧ d.name = name) ∧
      (∀ name, name ∈ r.names ↔ ∃ i, Entered (transcript ops) name i) ∧
      (r.names.Pairwise fun a b => ∀ i j, Entered (transcript ops) a i → Entered (transcript ops) b j → i < j) ∧
      (∀ d, (∃ e, (r.apply (.register d)).1 = .registered (.error e)) ↔
        ∃ existing, r.get? d.name = some existing ∧ existing.typeName ≠ d.typeName ∧ r.overriding = false) ∧
      (∀ d e, (r.apply (.register d)).1 = .registered (.error e) → (r.apply (.register d)).2 = r) ∧
      ∀ later name d, r.overriding = false → .setOverriding true ∉ later → .remove name ∉ later →
        r.get? name = some d → ∃ e, (r.run later).2.get? name = some e ∧ e.typeName = d.typeName := by
  intro r
  have ordered : r.Ordered (transcript ops) := run_ordered ops
  refine ⟨ordered.distinct, fun name d => Keyed.find?_eq_some ordered.distinct, fun name => ?_, ordered.ordered, ?_, ?_,
    fun later name d => run_keepsType⟩
  · rw [ordered.known]
    constructor
    · rintro ⟨i, stands⟩
      exact stands.entered
    · rintro ⟨i, entered⟩
      exact ⟨i, entered.1⟩
  · intro d
    by_cases refuses : r.Refuses d
    · obtain ⟨e, refused⟩ := apply_refused refuses
      exact iff_of_true ⟨e, by rw [refused]⟩ refuses
    · exact iff_of_false (by simp [apply_accepted refuses]) refuses
  · intro d e failed
    by_cases refuses : r.Refuses d
    · obtain ⟨e, refused⟩ := apply_refused refuses
      rw [refused]
    · rw [apply_accepted refuses] at failed
      cases failed

end Registry
end LaunchTrace
