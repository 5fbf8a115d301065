import LaunchTrace.Startup.Session
import Mathlib.Data.List.Nodup

/-! What has been done to the steps of a program, the last deed first: which tags a step keeps, which ends commit an
event, and what the suppliers have made of the state. The steps are numbered by their starts, from zero on, so that no
step is taken for another even where ids are used again. -/
namespace LaunchTrace

variable {σ : Type}

/-- `on` is whether events are kept at the time. -/
inductive Deed (σ : Type) where
  | start
  | tag (step : Nat) (direct on : Bool) (tag : Tag σ)
  /-- The end of a step is called, for the first time or again. -/
  | finish (step : Nat) (on : Bool)
  | change (change : σ → σ)

/-- The keys and texts of tags whose suppliers are called one after the other. A supplier that fails gives none. -/
def Tag.texts : List (Tag σ) → σ → List (String × String) × σ
  | [], state => ([], state)
  | ⟨key, .ready text⟩ :: rest, state =>
    let (others, state) := texts rest state
    ((key, text) :: others, state)
  | ⟨key, .deferred supplier⟩ :: rest, state =>
    match supplier state with
    | (none, state) => texts rest state
    | (some text, state) =>
      let (others, state) := texts rest state
      ((key, text) :: others, state)

def Tag.listing (texts : List (String × String)) : String :=
  "[" ++ ", ".intercalate (texts.map fun (key, text) => key ++ "=" ++ text) ++ "]"

namespace Deed

def starts : List (Deed σ) → Nat
  | [] => 0
  | .start :: earlier => starts earlier + 1
  | _ :: earlier => starts earlier

def hasEnded (n : Nat) : List (Deed σ) → Bool
  | [] => false
  | .finish m _ :: earlier => m = n || hasEnded n earlier
  | _ :: earlier => hasEnded n earlier

/-- The steps that have ended, in the order of their first ends. -/
def ended : List (Deed σ) → List Nat
  | [] => []
  | .finish n _ :: earlier => if hasEnded n earlier then ended earlier else ended earlier ++ [n]
  | _ :: earlier => ended earlier

/-- The tags that a step has kept, in the order of their attachment: all that are put on it before its end, or those
of them that came while events were kept if there is a wrapper around it. -/
def kept (n : Nat) : List (Deed σ) → List (Tag σ)
  | [] => []
  | .tag m direct on t :: earlier =>
    if m = n ∧ (direct || on) ∧ hasEnded n earlier = false then kept n earlier ++ [t] else kept n earlier
  | _ :: earlier => kept n earlier

/-- The first ends that came while events were kept, in their order, each with what had been done before it. -/
def commits : List (Deed σ) → List (Nat × List (Deed σ))
  | [] => []
  | .finish n on :: earlier =>
    if on ∧ hasEnded n earlier = false then commits earlier ++ [(n, earlier)] else commits earlier
  | _ :: earlier => commits earlier

/-- Suppliers are called by commits only, those of the tags that the step has kept, each once. -/
def stateAfter (state : σ) : List (Deed σ) → σ
  | [] => state
  | .change f :: earlier => f (stateAfter state earlier)
  | .finish n on :: earlier =>
    if on ∧ hasEnded n earlier = false then (Tag.texts (kept n earlier) (stateAfter state earlier)).2
    else stateAfter state earlier
  | _ :: earlier => stateAfter state earlier

/-- The id of a step that commits, and the text of its tags. -/
def entry (state : σ) (commit : Nat × List (Deed σ)) : StepId × String :=
  (UInt64.ofNat (commit.1 + 1), Tag.listing (Tag.texts (kept commit.1 commit.2) (stateAfter state commit.2)).1)

/-- The deeds that matter to a step after its start. -/
def Concerns (n : Nat) : Deed σ → Prop
  | .tag m _ _ _ | .finish m _ => m = n
  | _ => False

/-- What an operation may do while events are kept or not. -/
def Of (on : Bool) (op : Operation σ) : Deed σ → Prop
  | .start => True
  | .tag _ _ now t => now = on ∧ ∃ label, op = .tag label t
  | .finish _ now => now = on
  | .change f => op = .change f

variable {n m : Nat} {deed : Deed σ} {deeds earlier later : List (Deed σ)} {state : σ} {on : Bool}

theorem hasEnded_cons (unconcerned : ¬deed.Concerns n) : hasEnded n (deed :: deeds) = hasEnded n deeds := by
  cases deed with
  | finish m on =>
    have other : m ≠ n := unconcerned
    simp [hasEnded, other]
  | _ => rfl

theorem kept_cons (unconcerned : ¬deed.Concerns n) : kept n (deed :: deeds) = kept n deeds := by
  cases deed with
  | tag m direct on tag =>
    have other : m ≠ n := unconcerned
    simp [kept, other]
  | _ => rfl

theorem starts_cons (deed : Deed σ) (deeds : List (Deed σ)) : starts deeds ≤ starts (deed :: deeds) := by
  cases deed with
  | start => exact Nat.le_succ _
  | _ => exact Nat.le_refl _

theorem hasEnded_iff : hasEnded n deeds = true ↔ ∃ on, .finish n on ∈ deeds := by
  induction deeds with
  | nil => simp [hasEnded]
  | cons deed deeds ih =>
    cases deed with
    | finish m on => by_cases same : m = n <;> simp [hasEnded, ih, same, Ne.symm]
    | _ => simp [hasEnded, ih]

theorem hasEnded_later (ended : hasEnded n deeds = true) : hasEnded n (deed :: deeds) = true := by
  obtain ⟨on, member⟩ := hasEnded_iff.mp ended
  exact hasEnded_iff.mpr ⟨on, List.mem_cons_of_mem _ member⟩

theorem commits_finish_again (again : hasEnded n deeds = true) : commits (.finish n on :: deeds) = commits deeds := by
  simp [commits, again]

theorem commits_finish_off : commits (.finish n false :: deeds) = commits deeds := by
  simp [commits]

theorem commits_finish_first (first : hasEnded n deeds = false) :
    commits (.finish n true :: deeds) = commits deeds ++ [(n, deeds)] := by
  simp [commits, first]

theorem mem_commits_cons : n ∈ (commits (deed :: deeds)).map Prod.fst ↔
    n ∈ (commits deeds).map Prod.fst ∨ deed = .finish n true ∧ hasEnded n deeds = false := by
  cases deed with
  | finish m on =>
    cases on with
    | false => simp [commits_finish_off]
    | true =>
      cases ended : hasEnded m deeds with
      | true =>
        rw [commits_finish_again ended]
        constructor
        · exact .inl
        · rintro (member | ⟨same, first⟩)
          · exact member
          · obtain ⟨rfl, _⟩ := Deed.finish.inj same
            simp [ended] at first
      | false =>
        rw [commits_finish_first ended, List.map_append, List.mem_append]
        simp only [List.map_cons, List.map_nil, List.mem_singleton, Deed.finish.injEq, and_true]
        constructor
        · rintro (member | rfl)
          · exact .inl member
          · exact .inr ⟨rfl, ended⟩
        · rintro (member | ⟨rfl, _⟩)
          · exact .inl member
          · exact .inr rfl
  | _ => simp [commits]

/-- The steps that commit are those that first end while events are kept. -/
theorem mem_commits : n ∈ (commits deeds).map Prod.fst ↔
    ∃ later earlier, deeds = later ++ .finish n true :: earlier ∧ hasEnded n earlier = false := by
  induction deeds with
  | nil => simp [commits]
  | cons deed deeds ih =>
    rw [mem_commits_cons, ih]
    constructor
    · rintro (⟨later, earlier, rfl, first⟩ | ⟨rfl, first⟩)
      · exact ⟨deed :: later, earlier, rfl, first⟩
      · exact ⟨[], deeds, rfl, first⟩
    · rintro ⟨later, earlier, split, first⟩
      cases later with
      | nil =>
        obtain ⟨rfl, rfl⟩ := List.cons.inj split
        exact .inr ⟨rfl, first⟩
      | cons _ later => exact .inl ⟨later, earlier, (List.cons.inj split).2, first⟩

theorem mem_ended : n ∈ ended deeds ↔ hasEnded n deeds = true := by
  induction deeds with
  | nil => simp [ended, hasEnded]
  | cons deed deeds ih =>
    cases deed with
    | finish m on =>
      simp only [ended, hasEnded]
      split
      · rename_i again
        rw [ih, Bool.or_eq_true, decide_eq_true_eq]
        constructor
        · exact .inr
        · rintro (rfl | before)
          · exact again
          · exact before
      · rw [List.mem_append, List.mem_singleton, ih, Bool.or_eq_true, decide_eq_true_eq]
        constructor
        · rintro (before | rfl)
          · exact .inr before
          · exact .inl rfl
        · rintro (rfl | before)
          · exact .inr rfl
          · exact .inl before
    | _ => exact ih

theorem ended_nodup (deeds : List (Deed σ)) : (ended deeds).Nodup := by
  induction deeds with
  | nil => exact List.nodup_nil
  | cons deed deeds ih =>
    cases deed with
    | finish m on =>
      simp only [ended]
      split
      · exact ih
      · rename_i first
        rw [List.nodup_append]
        refine ⟨ih, List.nodup_singleton m, ?_⟩
        rintro n member _ last rfl
        obtain rfl := List.mem_singleton.mp last
        exact first (mem_ended.mp member)
    | _ => exact ih

theorem commits_sublist (deeds : List (Deed σ)) : ((commits deeds).map Prod.fst).Sublist (ended deeds) := by
  induction deeds with
  | nil => exact List.Sublist.refl _
  | cons deed deeds ih =>
    cases deed with
    | finish m on =>
      cases before : hasEnded m deeds with
      | true => simpa only [ended, before, if_true, commits_finish_again before] using ih
      | false =>
        simp only [ended, before, Bool.false_eq_true, if_false]
        cases on with
        | false =>
          rw [commits_finish_off]
          exact ih.trans (List.sublist_append_left _ _)
        | true =>
          rw [commits_finish_first before, List.map_append]
          exact ih.append (List.Sublist.refl _)
    | _ => exact ih

theorem commits_nodup (deeds : List (Deed σ)) : ((commits deeds).map Prod.fst).Nodup :=
  (ended_nodup deeds).sublist (commits_sublist deeds)

theorem hasEnded_of_commits (member : n ∈ (commits deeds).map Prod.fst) : hasEnded n deeds = true :=
  mem_ended.mp ((commits_sublist deeds).subset member)

theorem not_mem_commits (running : hasEnded n deeds = false) : n ∉ (commits deeds).map Prod.fst := by
  intro member
  rw [hasEnded_of_commits member] at running
  contradiction

/-- All steps commit if events are kept all the time. -/
theorem commits_always (always : ∀ n on, .finish n on ∈ deeds → on = true) :
    (commits deeds).map Prod.fst = ended deeds := by
  induction deeds with
  | nil => rfl
  | cons deed deeds ih =>
    have before := ih fun n on member => always n on (List.mem_cons_of_mem _ member)
    cases deed with
    | finish m on =>
      obtain rfl := always m on List.mem_cons_self
      cases again : hasEnded m deeds with
      | true => rw [commits_finish_again again, before, ended, if_pos again]
      | false => simp [commits_finish_first again, before, ended, again]
    | _ => exact before

end Deed
end LaunchTrace
