/-! Outcomes of work that may fail: what a success or a failure has come from, and pairs of outcomes that go alike. -/
namespace LaunchTrace

variable {ε α β γ δ : Type} {x : Except ε α} {y : Except ε β}

theorem ok_of_map {f : α → γ} {c : γ} (done : x.map f = .ok c) : ∃ a, x = .ok a ∧ f a = c := by
  cases x with
  | error e => cases done
  | ok a => exact ⟨a, rfl, Except.ok.inj done⟩

theorem error_of_map {f : α → γ} {e : ε} (failed : x.map f = .error e) : x = .error e := by
  cases x with
  | error fault => exact congrArg Except.error (Except.error.inj failed)
  | ok a => cases failed

theorem ok_of_bind {f : α → Except ε γ} {c : γ} (done : x.bind f = .ok c) : ∃ a, x = .ok a ∧ f a = .ok c := by
  cases x with
  | error e => cases done
  | ok a => exact ⟨a, rfl, done⟩

/-- Both fail with the same error, or both succeed and what they come to is related. -/
def Concur (R : α → β → Prop) (x : Except ε α) (y : Except ε β) : Prop :=
  (∃ e, x = .error e ∧ y = .error e) ∨ ∃ a b, x = .ok a ∧ y = .ok b ∧ R a b

namespace Concur

variable {R : α → β → Prop} {S : γ → δ → Prop}

theorem error (e : ε) : Concur R (.error e) (.error e) :=
  .inl ⟨e, rfl, rfl⟩

theorem ok {a : α} {b : β} (related : R a b) : Concur R (.ok a : Except ε α) (.ok b) :=
  .inr ⟨a, b, rfl, rfl, related⟩

theorem bind {f : α → Except ε γ} {g : β → Except ε δ} (first : Concur R x y)
    (next : ∀ a b, x = .ok a → y = .ok b → R a b → Concur S (f a) (g b)) : Concur S (x.bind f) (y.bind g) := by
  rcases first with ⟨e, rfl, rfl⟩ | ⟨a, b, rfl, rfl, related⟩
  · exact .error e
  · exact next a b rfl rfl related

theorem map {f : α → γ} {g : β → δ} (first : Concur R x y)
    (next : ∀ a b, x = .ok a → y = .ok b → R a b → S (f a) (g b)) : Concur S (x.map f) (y.map g) := by
  rcases first with ⟨e, rfl, rfl⟩ | ⟨a, b, rfl, rfl, related⟩
  · exact .error e
  · exact .ok (next a b rfl rfl related)

end Concur
end LaunchTrace
