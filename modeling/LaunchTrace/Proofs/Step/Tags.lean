import LaunchTrace.Step.Operation
import Mathlib.Data.List.Forall2

/-! Tags that are attached and resolved again and again, while what their suppliers read changes. A supplier waits for
the next resolve and is called there once; the tag keeps what it returned, or goes if it failed. The calls are seen by
suppliers that note them. -/
namespace LaunchTrace

variable {σ : Type}

/-- A call of a supplier. Suppliers are numbered from zero on, in the order in which their tags are attached. -/
structure Call (σ : Type) where
  number : Nat
  seen : σ
  /-- What was returned, unless the supplier failed. -/
  text? : Option String

/-- The supplier is called in the state that the call has seen, and returns what the call says. -/
def Call.Of (call : Call σ) (supplier : Supplier σ) : Prop :=
  (supplier call.seen).1 = call.text?

namespace Tag

def supplier? (tag : Tag σ) : Option (Supplier σ) :=
  match tag.value with
  | .ready _ => none
  | .deferred supplier => some supplier

/-- The suppliers of the deferred tags. -/
def suppliers (tags : List (Tag σ)) : List (Supplier σ) :=
  tags.filterMap supplier?

/-- What calls make of tags. Deferred tags take a call each, in turn; those for which none is left stay deferred. -/
def settle : List (Tag σ) → List (Call σ) → List (Tag σ)
  | [], _ => []
  | ⟨key, .ready text⟩ :: rest, calls => ⟨key, .ready text⟩ :: settle rest calls
  | ⟨key, .deferred supplier⟩ :: rest, [] => ⟨key, .deferred supplier⟩ :: settle rest []
  | ⟨key, .deferred _⟩ :: rest, call :: calls =>
    (call.text?.map fun text => ⟨key, .ready text⟩).toList ++ settle rest calls

/-- The tag, with a supplier that notes its calls. -/
def noting (number : Nat) (tag : Tag σ) : Tag (σ × List (Call σ)) :=
  ⟨tag.key, match tag.value with
    | .ready text => .ready text
    | .deferred supplier => .deferred fun (s, log) =>
      ((supplier s).1, (supplier s).2, log ++ [⟨number, s, (supplier s).1⟩])⟩

end Tag

/-- Calls suppliers one after the other. -/
def callEach (number : Nat) : List (Supplier σ) → σ → List (Call σ) × σ
  | [], s => ([], s)
  | supplier :: rest, s =>
    let (calls, after) := callEach (number + 1) rest (supplier s).2
    (⟨number, s, (supplier s).1⟩ :: calls, after)

namespace TagOperation

def isResolve : TagOperation σ → Bool
  | .resolve => true
  | _ => false

/-- The tags in the order of their attachment. -/
def pushed : List (TagOperation σ) → List (Tag σ)
  | [] => []
  | .push tag :: later => tag :: pushed later
  | _ :: later => pushed later

/-- The suppliers that have a resolve behind their attachment. -/
def called : List (TagOperation σ) → List (Supplier σ)
  | [] => []
  | .push tag :: later => (if later.any isResolve then tag.supplier?.toList else []) ++ called later
  | _ :: later => called later

/-- The calls of a program with the state at its end, where suppliers wait for the next resolve. The first of those that
are waiting has the number. -/
def calls (waiting : List (Supplier σ)) (number : Nat) : List (TagOperation σ) → σ → List (Call σ) × σ
  | [], s => ([], s)
  | .push tag :: later, s => calls (waiting ++ tag.supplier?.toList) number later s
  | .resolve :: later, s =>
    let (now, s) := callEach number waiting s
    let (others, s) := calls [] (number + waiting.length) later s
    (now ++ others, s)
  | .change f :: later, s => calls waiting number later (f s)

/-- The program, with suppliers that note their calls. -/
def noting (number : Nat) : List (TagOperation σ) → List (TagOperation (σ × List (Call σ)))
  | [] => []
  | .push tag :: later => .push (tag.noting number) :: noting (number + tag.supplier?.toList.length) later
  | .resolve :: later => .resolve :: noting number later
  | .change f :: later => .change (fun (s, log) => (f s, log)) :: noting number later

end TagOperation

/-- The calls that suppliers note while a program runs. -/
def Tags.callLog (initial : σ) (ops : List (TagOperation σ)) : List (Call σ) :=
  (Tags.empty.run (initial, []) (TagOperation.noting 0 ops)).2.2

/-! ## Calls one after the other -/

section Calls

variable {waiting : List (Supplier σ)} {number : Nat} {s : σ}

theorem callEach_length : (callEach number waiting s).1.length = waiting.length := by
  induction waiting generalizing number s with
  | nil => rfl
  | cons supplier rest ih => simp only [callEach, List.length_cons, ih]

theorem callEach_numbers : (callEach number waiting s).1.map Call.number = List.range' number waiting.length := by
  induction waiting generalizing number s with
  | nil => rfl
  | cons supplier rest ih => simp only [callEach, List.map_cons, ih, List.length_cons, List.range'_succ]

theorem callEach_of : List.Forall₂ Call.Of (callEach number waiting s).1 waiting := by
  induction waiting generalizing number s with
  | nil => exact .nil
  | cons supplier rest ih => exact .cons rfl ih

end Calls

namespace Tag

variable {tags front back : List (Tag σ)} {now later : List (Call σ)} {tag : Tag σ}

theorem suppliers_cons (tag : Tag σ) (tags : List (Tag σ)) :
    suppliers (tag :: tags) = tag.supplier?.toList ++ suppliers tags := by
  cases supplied : tag.supplier? <;> simp [suppliers, supplied]

theorem suppliers_concat (tags : List (Tag σ)) (tag : Tag σ) :
    suppliers (tags ++ [tag]) = suppliers tags ++ tag.supplier?.toList := by
  rw [suppliers, List.filterMap_append, ← suppliers, ← suppliers, suppliers_cons]
  simp [suppliers]

theorem settle_nil (tags : List (Tag σ)) : settle tags [] = tags := by
  induction tags with
  | nil => rfl
  | cons tag rest ih =>
    obtain ⟨key, value⟩ := tag
    cases value <;> simp only [settle, ih]

/-- Where there is a call for each deferred tag, the first of them takes the first call. -/
theorem exists_call {key : String} {supplier : Supplier σ}
    (enough : now.length = (suppliers (⟨key, .deferred supplier⟩ :: tags)).length) :
    ∃ call others, now = call :: others ∧ others.length = (suppliers tags).length := by
  rw [suppliers_cons, List.length_append, Nat.add_comm] at enough
  obtain ⟨call, others, rfl, fewer⟩ := List.length_eq_succ_iff.mp enough
  exact ⟨call, others, rfl, fewer⟩

/-- Tags that are behind others take the calls behind theirs. -/
theorem settle_append (enough : now.length = (suppliers front).length) :
    settle (front ++ back) (now ++ later) = settle front now ++ settle back later := by
  induction front generalizing now with
  | nil =>
    obtain rfl := List.eq_nil_of_length_eq_zero enough
    rfl
  | cons tag rest ih =>
    obtain ⟨key, value⟩ := tag
    cases value with
    | ready text => simp only [List.cons_append, settle, ih enough]
    | deferred supplier =>
      obtain ⟨call, others, rfl, fewer⟩ := exists_call enough
      simp only [List.cons_append, settle, ih fewer, List.append_assoc]

/-- No tag stays deferred if there is a call for each. -/
theorem suppliers_settle (enough : now.length = (suppliers tags).length) : suppliers (settle tags now) = [] := by
  induction tags generalizing now with
  | nil => rfl
  | cons tag rest ih =>
    obtain ⟨key, value⟩ := tag
    cases value with
    | ready text => exact ih enough
    | deferred supplier =>
      obtain ⟨call, others, rfl, fewer⟩ := exists_call enough
      cases text : call.text? <;> simp [settle, text, suppliers_cons, supplier?, ih fewer]

theorem settled_append (settled : suppliers front = []) (calls : List (Call σ)) :
    settle (front ++ back) calls = front ++ settle back calls := by
  have apart : settle (front ++ back) ([] ++ calls) = settle front [] ++ settle back calls :=
    settle_append (by rw [settled]; rfl)
  rwa [settle_nil] at apart

theorem text_of_settled (settled : suppliers tags = []) (member : tag ∈ tags) : tag.value.text?.isSome = true := by
  have unsupplied : tag.supplier? = none := List.filterMap_eq_nil_iff.mp settled tag member
  obtain ⟨key, value⟩ := tag
  cases value with
  | ready text => rfl
  | deferred supplier => cases unsupplied

end Tag

namespace Tags
open Tag TagOperation

theorem resolveEntries_calls (number : Nat) (entries : List (Tag σ)) (s : σ) :
    resolveEntries entries s =
      (settle entries (callEach number (suppliers entries) s).1, (callEach number (suppliers entries) s).2) := by
  induction entries generalizing number s with
  | nil => rfl
  | cons tag rest ih =>
    obtain ⟨key, value⟩ := tag
    cases value with
    | ready text =>
      simp only [resolveEntries, Tag.resolve, ih number, settle, suppliers_cons, supplier?]
      rfl
    | deferred supplier =>
      simp only [resolveEntries, Tag.resolve, ih (number + 1), suppliers_cons, supplier?]
      rfl

/-- A program calls the suppliers that wait for a resolve, and its tags are what these calls make of all that have been
attached. -/
theorem run_calls (entries : List (Tag σ)) (number : Nat) (ops : List (TagOperation σ)) (s : σ) :
    (⟨entries⟩ : Tags σ).run s ops =
      (⟨settle (entries ++ pushed ops) (calls (suppliers entries) number ops s).1⟩,
        (calls (suppliers entries) number ops s).2) := by
  induction ops generalizing entries number s with
  | nil => simp [run, pushed, calls, settle_nil]
  | cons op later ih =>
    cases op with
    | push tag =>
      simp only [run, apply, push, ih _ number, pushed, calls, suppliers_concat, List.append_assoc,
        List.singleton_append]
    | resolve =>
      have made : (callEach number (suppliers entries) s).1.length = (suppliers entries).length := callEach_length
      have settled := suppliers_settle made
      simp only [run, apply, resolve, resolveEntries_calls number, ih _ (number + (suppliers entries).length), settled,
        pushed, calls, settle_append made, settled_append settled]
    | change f => simp only [run, apply, ih _ number, pushed, calls]

/-- What comes behind a program finds the suppliers waiting that are not yet called. -/
theorem calls_append (entries : List (Tag σ)) (number : Nat) (ops more : List (TagOperation σ)) (s : σ) :
    (calls (suppliers entries) number (ops ++ more) s).1 =
      (calls (suppliers entries) number ops s).1 ++
        (calls (suppliers ((⟨entries⟩ : Tags σ).run s ops).1.entries)
          (number + (calls (suppliers entries) number ops s).1.length) more ((⟨entries⟩ : Tags σ).run s ops).2).1 := by
  induction ops generalizing entries number s with
  | nil => rfl
  | cons op later ih =>
    cases op with
    | push tag =>
      have next := ih (entries ++ [tag]) number s
      rw [suppliers_concat] at next
      exact next
    | resolve =>
      have made : (callEach number (suppliers entries) s).1.length = (suppliers entries).length := callEach_length
      have next := ih (settle entries (callEach number (suppliers entries) s).1) (number + (suppliers entries).length)
        (callEach number (suppliers entries) s).2
      rw [suppliers_settle made] at next
      simp only [List.cons_append, calls, next, run, apply, resolve, resolveEntries_calls number, List.append_assoc,
        List.length_append, made, Nat.add_assoc]
    | change f => exact ih entries number (f s)

end Tags

namespace TagOperation
open Tag

variable {ops : List (TagOperation σ)}

theorem called_of_unresolved (unresolved : ops.any isResolve = false) : called ops = [] := by
  induction ops with
  | nil => rfl
  | cons op later ih =>
    rw [List.any_cons, Bool.or_eq_false_iff] at unresolved
    cases op with
    | push tag => simp [called, unresolved.2, ih unresolved.2]
    | resolve => cases unresolved.1
    | change f => exact ih unresolved.2

theorem called_eq (ops : List (TagOperation σ)) :
    (if ops.any isResolve then [] ++ called ops else []) = called ops := by
  split
  · rfl
  · rename_i unresolved
    exact (called_of_unresolved (by simpa using unresolved)).symm

/-- Those that are called are the first that have been attached. -/
theorem called_prefix (ops : List (TagOperation σ)) : called ops <+: suppliers (pushed ops) := by
  induction ops with
  | nil => exact List.prefix_rfl
  | cons op later ih =>
    cases op with
    | push tag =>
      rw [called, pushed, suppliers_cons]
      split
      · exact (List.prefix_append_right_inj _).mpr ih
      · rename_i unresolved
        rw [called_of_unresolved (by simpa using unresolved)]
        exact List.nil_prefix
    | resolve => exact ih
    | change f => exact ih

/-- If a resolve comes, the waiting suppliers are called, and after them those that have a resolve behind them. -/
theorem calls_of (waiting : List (Supplier σ)) (number : Nat) (ops : List (TagOperation σ)) (s : σ) :
    List.Forall₂ Call.Of (calls waiting number ops s).1 (if ops.any isResolve then waiting ++ called ops else []) := by
  induction ops generalizing waiting number s with
  | nil => exact .nil
  | cons op later ih =>
    cases op with
    | push tag =>
      have next := ih (waiting ++ tag.supplier?.toList) number s
      cases resolved : later.any isResolve with
      | true => simpa [calls, called, resolved, isResolve] using next
      | false => simpa [calls, resolved, isResolve] using next
    | resolve =>
      have next := ih [] (number + waiting.length) (callEach number waiting s).2
      rw [called_eq] at next
      exact List.rel_append callEach_of next
    | change f => exact ih waiting number (f s)

theorem calls_numbers (waiting : List (Supplier σ)) (number : Nat) (ops : List (TagOperation σ)) (s : σ) :
    (calls waiting number ops s).1.map Call.number = List.range' number (calls waiting number ops s).1.length := by
  induction ops generalizing waiting number s with
  | nil => rfl
  | cons op later ih =>
    cases op with
    | push tag => exact ih _ number s
    | resolve =>
      simp only [calls, List.map_append, callEach_numbers, ih, List.length_append, callEach_length]
      exact List.range'_append_1 ..
    | change f => exact ih waiting number (f s)

/-! ## Suppliers that note their calls -/

/-- Suppliers that note their calls under consecutive numbers. -/
def notingEach (number : Nat) : List (Supplier σ) → List (Supplier (σ × List (Call σ)))
  | [] => []
  | supplier :: rest =>
    (fun (s, log) => ((supplier s).1, (supplier s).2, log ++ [⟨number, s, (supplier s).1⟩])) ::
      notingEach (number + 1) rest

theorem notingEach_concat (waiting : List (Supplier σ)) (number : Nat) (tag : Tag σ) :
    notingEach number waiting ++ (tag.noting (number + waiting.length)).supplier?.toList =
      notingEach number (waiting ++ tag.supplier?.toList) := by
  induction waiting generalizing number with
  | nil =>
    obtain ⟨key, value⟩ := tag
    cases value <;> rfl
  | cons supplier rest ih =>
    have next := ih (number + 1)
    rw [Nat.add_assoc, Nat.add_comm 1] at next
    simp only [notingEach, List.cons_append, List.length_cons, next]

theorem callEach_noting (waiting : List (Supplier σ)) (number any : Nat) (s : σ) (log : List (Call σ)) :
    (callEach any (notingEach number waiting) (s, log)).2 =
      ((callEach number waiting s).2, log ++ (callEach number waiting s).1) := by
  induction waiting generalizing number any s log with
  | nil => simp [callEach, notingEach]
  | cons supplier rest ih => simp [callEach, notingEach, ih (number + 1)]

/-- To note the calls changes nothing else. -/
theorem calls_noting (waiting : List (Supplier σ)) (number any : Nat) (ops : List (TagOperation σ)) (s : σ)
    (log : List (Call σ)) :
    (calls (notingEach number waiting) any (noting (number + waiting.length) ops) (s, log)).2 =
      ((calls waiting number ops s).2, log ++ (calls waiting number ops s).1) := by
  induction ops generalizing waiting number any s log with
  | nil => simp [calls, noting]
  | cons op later ih =>
    cases op with
    | push tag =>
      have next := ih (waiting ++ tag.supplier?.toList) number any s log
      rw [List.length_append, ← Nat.add_assoc] at next
      simp only [noting, calls, notingEach_concat, next]
    | resolve =>
      have next := ih [] (number + waiting.length) (any + (notingEach number waiting).length)
        (callEach number waiting s).2 (log ++ (callEach number waiting s).1)
      simp only [noting, calls, callEach_noting, ← List.append_assoc]
      exact next
    | change f => exact ih waiting number any (f s) log

end TagOperation

namespace Tags
open Tag TagOperation

variable {tags : Tags σ} {ops : List (TagOperation σ)} {initial state : σ} {key : String} {tag : Tag σ}
  {front back : List (Tag σ)}

theorem run_empty (ops : List (TagOperation σ)) (initial : σ) :
    empty.run initial ops = (⟨settle (pushed ops) (calls [] 0 ops initial).1⟩, (calls [] 0 ops initial).2) :=
  run_calls [] 0 ops initial

theorem run_noting (ops : List (TagOperation σ)) (initial : σ) :
    (empty.run (initial, []) (noting 0 ops)).2 = ((calls [] 0 ops initial).2, (calls [] 0 ops initial).1) := by
  rw [run_empty]
  exact calls_noting [] 0 0 ops initial []

theorem callLog_eq (initial : σ) (ops : List (TagOperation σ)) : callLog initial ops = (calls [] 0 ops initial).1 :=
  congrArg Prod.snd (run_noting ops initial)

theorem callLog_of (initial : σ) (ops : List (TagOperation σ)) :
    List.Forall₂ Call.Of (callLog initial ops) (called ops) := by
  have made := calls_of [] 0 ops initial
  rwa [called_eq, ← callLog_eq] at made

theorem callLog_numbers (initial : σ) (ops : List (TagOperation σ)) :
    (callLog initial ops).map Call.number = List.range (called ops).length := by
  rw [← (callLog_of initial ops).length_eq, List.range_eq_range', callLog_eq]
  exact calls_numbers [] 0 ops initial

theorem callLog_append (ran : empty.run initial ops = (tags, state)) (more : List (TagOperation σ)) :
    callLog initial (ops ++ more) =
      callLog initial ops ++ (calls (suppliers tags.entries) (callLog initial ops).length more state).1 := by
  have parted := calls_append [] 0 ops more initial
  rw [show (⟨[]⟩ : Tags σ).run initial ops = (tags, state) from ran, Nat.zero_add] at parted
  rw [callLog_eq, callLog_eq]
  exact parted

/-! ## Resolved tags -/

theorem resolve_calls (number : Nat) (tags : Tags σ) (s : σ) :
    tags.resolve s = (⟨settle tags.entries (callEach number (suppliers tags.entries) s).1⟩,
      (callEach number (suppliers tags.entries) s).2) := by
  simp only [resolve, resolveEntries_calls number]

theorem resolve_settled (tags : Tags σ) (s : σ) : suppliers (tags.resolve s).1.entries = [] := by
  rw [resolve_calls 0]
  exact suppliers_settle callEach_length

theorem resolve_of_settled (settled : suppliers tags.entries = []) (s : σ) : tags.resolve s = (tags, s) := by
  rw [resolve_calls 0, settled, callEach, settle_nil]

/-- Tags without suppliers stay as they are, in front of those that are attached later. -/
theorem run_of_settled (settled : suppliers tags.entries = []) (s : σ) (more : List (TagOperation σ)) :
    ∃ newer, (tags.run s more).1.entries = tags.entries ++ newer := by
  have later := run_calls tags.entries 0 more s
  rw [settled_append settled] at later
  exact ⟨_, congrArg (·.1.entries) later⟩

theorem get?_first (split : tags.entries = front ++ tag :: back) (first : ∀ other ∈ front, other.key ≠ tag.key) :
    tags.get? tag.key = tag.value.text? := by
  have passed : front.find? (·.key = tag.key) = none := by simpa [List.find?_eq_none] using first
  simp [get?, split, List.find?_append, passed]

theorem get?_unknown (unknown : ∀ tag ∈ tags.entries, tag.key ≠ key) : tags.get? key = none := by
  have missing : tags.entries.find? (·.key = key) = none := by simpa [List.find?_eq_none] using unknown
  rw [get?, missing, Option.bind_none]

theorem display_eq (tags : Tags σ) : tags.display =
    "[" ++ ", ".intercalate
      (tags.entries.map fun tag => tag.key ++ "=" ++ tag.value.text?.getD "<deferred>") ++ "]" := by
  have shown (tag : Tag σ) : tag.display = tag.key ++ "=" ++ tag.value.text?.getD "<deferred>" := by
    obtain ⟨key, value⟩ := tag
    cases value <;> rfl
  rw [display, List.map_congr_left fun tag _ => shown tag]

/-- The calls are those of a program: the suppliers are called that have a resolve behind them, each once, in the order
of attachment, and in the state of that moment. -/
structure Timely (ops : List (TagOperation σ)) (initial state : σ) (log : List (Call σ)) : Prop where
  noted : (empty.run (initial, []) (noting 0 ops)).2 = (state, log)
  timed : calls [] 0 ops initial = (log, state)
  numbered : log.map Call.number = List.range (called ops).length
  answered : List.Forall₂ Call.Of log (called ops)
  ahead : called ops <+: suppliers (pushed ops)

/-- The tags are what a resolve has made of others. None is deferred any more, and nothing changes them again. -/
structure Resolved (tags resolved : Tags σ) (now : List (Call σ)) : Prop where
  answered : List.Forall₂ Call.Of now (suppliers tags.entries)
  entries : resolved.entries = settle tags.entries now
  ready : ∀ tag ∈ resolved.entries, tag.value.text?.isSome = true
  again : ∀ s, resolved.resolve s = (resolved, s)
  stays : ∀ s more, ∃ newer, (resolved.run s more).1.entries = resolved.entries ++ newer

theorem callLog_timely (ran : empty.run initial ops = (tags, state)) :
    Timely ops initial state (callLog initial ops) := by
  have whole := run_empty ops initial
  rw [ran, ← callLog_eq, Prod.mk.injEq] at whole
  have timed : calls [] 0 ops initial = (callLog initial ops, state) := by
    rw [callLog_eq, whole.2]
  exact {
    noted := by rw [run_noting, timed]
    timed
    numbered := callLog_numbers initial ops
    answered := callLog_of initial ops
    ahead := called_prefix ops }

theorem resolve_resolved (number : Nat) (tags : Tags σ) (s : σ) :
    Resolved tags (tags.resolve s).1 (callEach number (suppliers tags.entries) s).1 where
  answered := callEach_of
  entries := by rw [resolve_calls number]
  ready := fun _ => text_of_settled (tags.resolve_settled s)
  again := resolve_of_settled (tags.resolve_settled s)
  stays := run_of_settled (tags.resolve_settled s)

/-- Each supplier is called once, at the first resolve behind its attachment. Its tag keeps what it returned there, or
is gone where it failed, and the other tags stay in their order. Tags that are resolved once more call nothing. A key
stands for the first tag that has it, and all tags are displayed in their order. -/
theorem run_resolved (ops : List (TagOperation σ)) (ran : empty.run initial ops = (tags, state)) :
    Timely ops initial state (callLog initial ops) ∧
      tags.entries = settle (pushed ops) (callLog initial ops) ∧
      (∃ now, Resolved tags (tags.resolve state).1 now ∧
        callLog initial (ops ++ [.resolve]) = callLog initial ops ++ now ∧
        callLog initial (ops ++ [.resolve, .resolve]) = callLog initial ops ++ now) ∧
      (∀ front tag back, tags.entries = front ++ tag :: back → (∀ other ∈ front, other.key ≠ tag.key) →
        tags.get? tag.key = tag.value.text?) ∧
      (∀ key, (∀ tag ∈ tags.entries, tag.key ≠ key) → tags.get? key = none) ∧
      tags.display = "[" ++ ", ".intercalate
        (tags.entries.map fun tag => tag.key ++ "=" ++ tag.value.text?.getD "<deferred>") ++ "]" := by
  have entries : tags.entries = settle (pushed ops) (callLog initial ops) := by
    have whole := congrArg (·.1.entries) (run_empty ops initial)
    rw [ran, ← callLog_eq] at whole
    exact whole
  refine ⟨callLog_timely ran, entries, ⟨_, resolve_resolved (callLog initial ops).length tags state, ?_, ?_⟩,
    fun front tag back => get?_first, fun key => get?_unknown, display_eq tags⟩
  · simp [callLog_append ran, calls]
  · simp [callLog_append ran, calls, callEach]

/-- The state is a text that suppliers return, if they do not fail. -/
def moody : List (TagOperation String) :=
  [.push ⟨"mood", .deferred fun mood => (some mood, mood)⟩, .push ⟨"mood", .ready "calm"⟩,
    .push ⟨"noise", .deferred fun mood => (none, mood ++ "!")⟩, .change (· ++ "eager"), .resolve,
    .push ⟨"end", .deferred fun mood => (some mood, mood)⟩, .change fun _ => "tired"]

theorem moody_resolved : ∃ tags state, empty.run "" moody = (tags, state) ∧
    tags.display = "[mood=eager, mood=calm, end=<deferred>]" ∧ tags.get? "mood" = some "eager" ∧
    (callLog "" moody).map Call.number = [0, 1] ∧
    (tags.resolve state).1.display = "[mood=eager, mood=calm, end=tired]" := by
  obtain ⟨timely, _, _, first, _, shown⟩ := run_resolved moody (rfl : empty.run "" moody = _)
  refine ⟨_, _, rfl, shown.trans (by decide +kernel), ?_, timely.numbered.trans (by decide +kernel), by decide +kernel⟩
  exact first [] _ _ rfl (by simp)

end Tags
end LaunchTrace
