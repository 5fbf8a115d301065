import LaunchTrace.Proofs.Startup.Commits

/-! Sessions whose recorder has a switch. The journal says which steps commit and with which tags, wherever the switch
is set. Suppliers are counted by what they do to the state: one of them is called once, when its step commits with the
tag, or not at all. -/
namespace LaunchTrace

variable {σ : Type} {calls : σ → Nat} {tags front back : List (Tag σ)} {t : Tag σ} {supplier : Supplier σ}
  {state : σ}

/-- The supplier does not touch the count. -/
def Tag.Quiet (calls : σ → Nat) (t : Tag σ) : Prop :=
  ∀ supplier, t.value = .deferred supplier → ∀ state, calls (supplier state).2 = calls state

def Operation.Quiet (calls : σ → Nat) : Operation σ → Prop
  | .tag _ t => t.Quiet calls
  | .change f => ∀ state, calls (f state) = calls state
  | _ => True

/-- The supplier is what is counted. -/
def Tag.Counted (calls : σ → Nat) (t : Tag σ) : Prop :=
  ∃ supplier, t.value = .deferred supplier ∧ ∀ state, calls (supplier state).2 = calls state + 1

namespace Tag

theorem texts_quiet (quiet : ∀ t ∈ tags, t.Quiet calls) (state : σ) : calls (texts tags state).2 = calls state := by
  induction tags generalizing state with
  | nil => rfl
  | cons t rest ih =>
    have others := ih fun u member => quiet u (List.mem_cons_of_mem _ member)
    obtain ⟨key, value⟩ := t
    cases value with
    | ready text => exact others state
    | deferred supplier =>
      have first := quiet _ List.mem_cons_self supplier rfl state
      cases called : supplier state with
      | mk text? after =>
        rw [called] at first
        cases text? <;> simp [texts, called, others, first]

theorem texts_cons (state : σ) : (texts (t :: tags) state).2 = (texts tags (texts [t] state).2).2 := by
  obtain ⟨key, value⟩ := t
  cases value with
  | ready text => rfl
  | deferred supplier =>
    cases called : supplier state with
    | mk text? after => cases text? <;> simp [texts, called]

theorem texts_append (state : σ) : (texts (front ++ back) state).2 = (texts back (texts front state).2).2 := by
  induction front generalizing state with
  | nil => rfl
  | cons t front ih => rw [List.cons_append, texts_cons, ih, ← texts_cons]

theorem texts_counted (counted : t.Counted calls) (state : σ) : calls (texts [t] state).2 = calls state + 1 := by
  obtain ⟨key, value⟩ := t
  obtain ⟨supplier, rfl, raises⟩ := counted
  rw [← raises state]
  cases called : supplier state with
  | mk text? after => cases text? <;> simp [texts, called]

theorem texts_once (counted : t.Counted calls) (before : ∀ u ∈ front, u.Quiet calls)
    (behind : ∀ u ∈ back, u.Quiet calls) (state : σ) :
    calls (texts (front ++ t :: back) state).2 = calls state + 1 := by
  rw [texts_append, texts_cons, texts_quiet behind, texts_counted counted, texts_quiet before]

end Tag

namespace Deed

def Quiet (calls : σ → Nat) : Deed σ → Prop
  | .tag _ _ _ t => t.Quiet calls
  | .change f => ∀ state, calls (f state) = calls state
  | _ => True

variable {n m : Nat} {direct on : Bool} {deeds earlier later : List (Deed σ)}

theorem of_quiet {deed : Deed σ} {op : Operation σ} (done : deed.Of on op) (quiet : op.Quiet calls) :
    deed.Quiet calls := by
  cases deed with
  | start => trivial
  | finish => trivial
  | tag n direct now t =>
    obtain ⟨_, label, rfl⟩ := done
    exact quiet
  | change f =>
    obtain rfl : op = .change f := done
    exact quiet

theorem mem_kept (member : t ∈ kept n deeds) : ∃ direct on, .tag n direct on t ∈ deeds := by
  induction deeds with
  | nil => simp [kept] at member
  | cons deed deeds ih =>
    have others (member : t ∈ kept n deeds) : ∃ direct on, .tag n direct on t ∈ deed :: deeds := by
      obtain ⟨direct, on, inside⟩ := ih member
      exact ⟨direct, on, List.mem_cons_of_mem _ inside⟩
    cases deed with
    | tag m direct on u =>
      simp only [kept] at member
      split at member
      · rename_i taken
        obtain ⟨rfl, _⟩ := taken
        rcases List.mem_append.mp member with member | last
        · exact others member
        · obtain rfl := List.mem_singleton.mp last
          exact ⟨direct, on, List.mem_cons_self⟩
      · exact others member
    | _ => exact others member

theorem kept_quiet (quiet : ∀ direct on t, .tag n direct on t ∈ deeds → t.Quiet calls) :
    ∀ t ∈ kept n deeds, t.Quiet calls := by
  intro t member
  obtain ⟨direct, on, inside⟩ := mem_kept member
  exact quiet direct on t inside

theorem stateAfter_quiet (quiet : ∀ deed ∈ deeds, deed.Quiet calls) (initial : σ) :
    calls (stateAfter initial deeds) = calls initial := by
  induction deeds with
  | nil => rfl
  | cons deed deeds ih =>
    have before := ih fun deed member => quiet deed (List.mem_cons_of_mem _ member)
    cases deed with
    | finish n on =>
      have tags : ∀ t ∈ kept n deeds, t.Quiet calls :=
        kept_quiet fun direct on t member => quiet _ (List.mem_cons_of_mem _ member)
      simp only [stateAfter]
      split
      · rw [Tag.texts_quiet tags, before]
      · exact before
    | change f => exact (quiet _ List.mem_cons_self _).trans before
    | _ => exact before

/-- Attaching a tag ends nothing. -/
theorem hasEnded_tag : hasEnded m (later ++ .tag n direct on t :: earlier) = hasEnded m (later ++ earlier) := by
  induction later with
  | nil => rfl
  | cons deed later ih =>
    cases deed with
    | finish k now => simp only [List.cons_append, hasEnded, ih]
    | _ => exact ih

/-- A tag that is not kept is as good as none. -/
theorem kept_ignored (ignored : ¬((direct || on) ∧ hasEnded n earlier = false)) :
    kept m (later ++ .tag n direct on t :: earlier) = kept m (later ++ earlier) := by
  induction later with
  | nil =>
    simp only [List.nil_append, kept]
    rw [if_neg]
    rintro ⟨rfl, taken⟩
    exact ignored taken
  | cons deed later ih =>
    cases deed with
    | tag k direct now u => simp only [List.cons_append, kept, ih, hasEnded_tag]
    | _ => exact ih

theorem stateAfter_ignored (ignored : ¬((direct || on) ∧ hasEnded n earlier = false)) (initial : σ) :
    stateAfter initial (later ++ .tag n direct on t :: earlier) = stateAfter initial (later ++ earlier) := by
  induction later with
  | nil => rfl
  | cons deed later ih =>
    cases deed with
    | finish k now => simp only [List.cons_append, stateAfter, ih, hasEnded_tag, kept_ignored ignored]
    | change f => exact congrArg f ih
    | _ => exact ih

/-- A tag that is kept lies between those that were kept before and after it. -/
theorem kept_split (wanted : (direct || on) = true) (running : hasEnded n earlier = false)
    (before : ∀ deed ∈ earlier, deed.Quiet calls) (after : ∀ deed ∈ later, deed.Quiet calls) :
    ∃ front back, kept n (later ++ .tag n direct on t :: earlier) = front ++ t :: back ∧
      (∀ u ∈ front, u.Quiet calls) ∧ ∀ u ∈ back, u.Quiet calls := by
  induction later with
  | nil =>
    refine ⟨kept n earlier, [], ?_, kept_quiet fun direct on u member => before _ member, by simp⟩
    simp [kept, wanted, running]
  | cons deed later ih =>
    obtain ⟨front, back, same, ahead, behind⟩ := ih fun deed member => after deed (List.mem_cons_of_mem _ member)
    cases deed with
    | tag m direct now u =>
      simp only [List.cons_append, kept]
      split
      · refine ⟨front, back ++ [u], by rw [same, List.append_assoc, List.cons_append], ahead, ?_⟩
        intro v member
        rcases List.mem_append.mp member with member | last
        · exact behind v member
        · obtain rfl := List.mem_singleton.mp last
          exact after (.tag m direct now v) List.mem_cons_self
      · exact ⟨front, back, same, ahead, behind⟩
    | _ => exact ⟨front, back, same, ahead, behind⟩

theorem kept_apart (different : m ≠ n) (before : ∀ deed ∈ earlier, deed.Quiet calls)
    (after : ∀ deed ∈ later, deed.Quiet calls) :
    ∀ u ∈ kept m (later ++ .tag n direct on t :: earlier), u.Quiet calls := by
  refine kept_quiet fun first second u member => ?_
  rcases List.mem_append.mp member with member | member
  · exact after _ member
  · rcases List.mem_cons.mp member with same | member
    · exact absurd (Deed.tag.inj same).1 different
    · exact before _ member

/-- The supplier of a kept tag is called when its step commits, and then once. -/
theorem stateAfter_counted (counted : t.Counted calls) (wanted : (direct || on) = true)
    (running : hasEnded n earlier = false) (before : ∀ deed ∈ earlier, deed.Quiet calls)
    (after : ∀ deed ∈ later, deed.Quiet calls) (initial : σ) :
    calls (stateAfter initial (later ++ .tag n direct on t :: earlier)) = calls initial +
      if n ∈ (commits (later ++ .tag n direct on t :: earlier)).map Prod.fst then 1 else 0 := by
  induction later with
  | nil => exact (stateAfter_quiet before initial).trans (if_neg (not_mem_commits running) ▸ rfl)
  | cons deed later ih =>
    have others : ∀ deed ∈ later, deed.Quiet calls := fun deed member => after deed (List.mem_cons_of_mem _ member)
    have ih := ih others
    cases deed with
    | finish m now =>
      rw [List.cons_append]
      generalize whole : later ++ .tag n direct on t :: earlier = deeds at ih ⊢
      -- Only a first end with the switch on calls suppliers, those of its own step.
      by_cases first : now = true ∧ hasEnded m deeds = false
      · obtain ⟨rfl, fresh⟩ := first
        have called : stateAfter initial (.finish m true :: deeds) =
            (Tag.texts (kept m deeds) (stateAfter initial deeds)).2 := by simp [stateAfter, fresh]
        by_cases same : m = n
        · subst same
          have committed : m ∈ (commits (.finish m true :: deeds)).map Prod.fst :=
            mem_commits_cons.mpr (.inr ⟨rfl, fresh⟩)
          obtain ⟨front, back, split, ahead, behind⟩ := kept_split wanted running before others
          rw [if_neg (not_mem_commits fresh)] at ih
          rw [if_pos committed, called, ← whole, split, whole, Tag.texts_once counted ahead behind, ih]
        · have quiet : ∀ u ∈ kept m deeds, u.Quiet calls := whole ▸ kept_apart same before others
          have unmoved : n ∈ (commits (.finish m true :: deeds)).map Prod.fst ↔ n ∈ (commits deeds).map Prod.fst := by
            simp only [mem_commits_cons, Deed.finish.injEq, same, false_and, or_false]
          simp only [called, Tag.texts_quiet quiet, ih, unmoved]
      · simpa only [stateAfter, commits, if_neg first] using ih
    | change f => exact (after _ List.mem_cons_self _).trans ih
    | _ => exact ih

end Deed

open Deed

/-- A tag that comes now stays on a step. -/
def Journal.Takes (j : Journal σ) (on : Bool) (label : String) (n : Nat) : Prop :=
  ∃ direct, j.steps label = some (n, direct) ∧ (direct || on) = true ∧ hasEnded n j.deeds = false

theorem Journal.program_counted {before after : List (Bool × Operation σ)} {on : Bool} {label : String}
    (counted : t.Counted calls) (quiet : ∀ entry ∈ before ++ after, entry.2.Quiet calls) (initial : σ) :
    let deeds := (ofProgram (before ++ (on, .tag label t) :: after)).deeds
    (∀ n, (ofProgram before).Takes on label n → calls (stateAfter initial deeds) =
        calls initial + if n ∈ (commits deeds).map Prod.fst then 1 else 0) ∧
      ((∀ n, ¬(ofProgram before).Takes on label n) → calls (stateAfter initial deeds) = calls initial) := by
  intro deeds
  have early : ∀ deed ∈ (ofProgram before).deeds, deed.Quiet calls := by
    intro deed member
    obtain ⟨now, op, inside, done⟩ := of_program member
    exact of_quiet done (quiet _ (List.mem_append_left _ inside))
  obtain ⟨later, rest, others⟩ := program_deeds ((ofProgram before).tag on label t) after
  have late : ∀ deed ∈ later, deed.Quiet calls := by
    intro deed member
    obtain ⟨now, op, inside, done⟩ := others deed member
    exact of_quiet done (quiet _ (List.mem_append_right _ inside))
  have whole : deeds = later ++ ((ofProgram before).tag on label t).deeds := by
    simp only [deeds, ofProgram, List.foldl_append, List.foldl_cons]
    exact rest
  have untagged : ∀ deed ∈ later ++ (ofProgram before).deeds, deed.Quiet calls := by
    intro deed member
    exact (List.mem_append.mp member).elim (late deed) (early deed)
  rw [whole]
  cases found : (ofProgram before).steps label with
  | none =>
    have missing : (ofProgram before).tag on label t = ofProgram before := by simp only [Journal.tag, found]
    rw [missing, stateAfter_quiet untagged]
    refine ⟨?_, fun _ => rfl⟩
    rintro n ⟨direct, known, _⟩
    rw [found] at known
    contradiction
  | some step =>
    obtain ⟨n, direct⟩ := step
    have tagged : ((ofProgram before).tag on label t).deeds = .tag n direct on t :: (ofProgram before).deeds := by
      simp only [Journal.tag, found, note_deeds]
    rw [tagged]
    constructor
    · rintro m ⟨other, known, wanted, running⟩
      obtain ⟨rfl, rfl⟩ := Prod.mk.inj (Option.some.inj (found.symm.trans known))
      exact stateAfter_counted counted wanted running early late initial
    · intro untaken
      have ignored : ¬((direct || on) = true ∧ hasEnded n (ofProgram before).deeds = false) := by
        rintro ⟨wanted, running⟩
        exact untaken n ⟨direct, found, wanted, running⟩
      rw [stateAfter_ignored ignored, stateAfter_quiet untagged]

namespace Session

/-- Sets the switch before each operation. -/
def switching (program : List (Bool × Operation σ)) : List (Operation σ) :=
  program.flatMap fun (on, op) => [.surround fun recorder host => (recorder, { host with switchOn := on }), op]

variable {initial : σ} {s : Session σ} {j : Journal σ}

theorem Told.flip {before : Bool} (told : Told .switched initial before s j) (on : Bool) :
    Told .switched initial on
      (s.apply (.surround fun recorder host => (recorder, { host with switchOn := on }))).2 j where
  flight := by
    obtain ⟨f, events, recording, current, keeps, committed⟩ := told.flight
    refine ⟨{ f with host := { f.host with switchOn := on } }, events, ?_, current, ⟨keeps.recorder, rfl⟩, committed⟩
    simp only [Session.apply, recording, Startup.surround]
  state := told.state
  counted := told.counted
  listed := told.listed

theorem Told.switching {before : Bool} (told : Told .switched initial before s j)
    {program : List (Bool × Operation σ)} (internal : ∀ entry ∈ program, entry.2.Internal) :
    ∃ on, Told .switched initial on (s.run (switching program))
      (program.foldl (fun j (on, op) => j.apply on op) j) := by
  induction program generalizing s j before with
  | nil => exact ⟨before, told⟩
  | cons entry program ih =>
    obtain ⟨on, op⟩ := entry
    have first := (told.flip on).apply switched_keeping (internal _ List.mem_cons_self)
    exact ih first fun entry member => internal entry (List.mem_cons_of_mem _ member)

/-- A step commits one event if the switch is on at its first end, and none otherwise, with the tags that it has kept
and the values that their suppliers give at that end. A supplier is called once if its tag is kept and the step
commits, and never otherwise. -/
theorem run_switched (host : Host) (clock : Clock) (initial : σ) (program : List (Bool × Operation σ)) {s : Session σ}
    (ran : (ofRecorder (.sink (.switched [])) host clock initial).run (switching program) = s)
    (internal : ∀ entry ∈ program, entry.2.Internal) :
    let deeds := (Journal.ofProgram program).deeds
    s.recorded.map (fun e => (e.id, e.tags)) = (commits deeds).map (entry initial) ∧
      ((commits deeds).map Prod.fst).Nodup ∧
      (∀ n, n ∈ (commits deeds).map Prod.fst ↔
        ∃ later earlier, deeds = later ++ .finish n true :: earlier ∧ hasEnded n earlier = false) ∧
      s.state = stateAfter initial deeds ∧
      ∀ (calls : σ → Nat) before on label t after, program = before ++ (on, .tag label t) :: after →
        t.Counted calls → (∀ entry ∈ before ++ after, entry.2.Quiet calls) →
        (∀ n, (Journal.ofProgram before).Takes on label n →
          calls s.state = calls initial + if n ∈ (commits deeds).map Prod.fst then 1 else 0) ∧
        ((∀ n, ¬(Journal.ofProgram before).Takes on label n) → calls s.state = calls initial) := by
  intro deeds
  have launched := told_launch (.sink (.switched [])) host clock initial rfl rfl
  obtain ⟨on, told⟩ := launched.switching internal
  rw [ran] at told
  have state : s.state = stateAfter initial deeds := told.state
  refine ⟨(told.recorded switched_keeping).entries, commits_nodup deeds, fun n => mem_commits, state, ?_⟩
  rintro calls before on label t after rfl counted quiet
  rw [state]
  exact Journal.program_counted counted quiet initial

/-- Counts the calls of a supplier. -/
def flipped : List (Bool × Operation Nat) :=
  [(false, .start "load" (.start .own) "app.load"),
    (true, .tag "load" ⟨"files", .deferred fun calls => (some "3", calls + 1)⟩),
    (false, .tag "load" ⟨"late", .ready "yes"⟩), (true, .start "bind" .direct "app.bind"),
    (false, .tag "bind" ⟨"port", .ready "80"⟩), (false, .tag "bind" ⟨"host", .deferred fun calls => (none, calls)⟩),
    (true, .finish "bind"), (true, .start "idle" (.start .own) "app.idle"), (false, .finish "idle"),
    (true, .finish "load"), (true, .release "bind")]

theorem flipped_switched :
    let s := (ofRecorder (.sink (.switched [])) bareHost (.still newYear) 0).run (switching flipped)
    s.recorded.map (fun e => (e.id, e.tags)) = [(2, "[port=80]"), (1, "[files=3]")] ∧ s.state = 1 := by
  have internal : ∀ entry ∈ flipped, entry.2.Internal := by simp [flipped, Operation.Internal]
  obtain ⟨events, _, _, _, suppliers⟩ := run_switched bareHost (.still newYear) 0 flipped rfl internal
  have counted : Tag.Counted id ⟨"files", .deferred fun calls => (some "3", calls + 1)⟩ := ⟨_, rfl, fun _ => rfl⟩
  obtain ⟨called, _⟩ := suppliers id [_] true "load" _ _ rfl counted (by
    simp [Operation.Quiet, Tag.Quiet])
  have state := called 0 ⟨false, by decide +kernel, rfl, by decide +kernel⟩
  exact ⟨events.trans (by decide +kernel), state.trans (by decide +kernel)⟩

end Session
end LaunchTrace
