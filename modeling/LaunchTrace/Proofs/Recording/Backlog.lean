import LaunchTrace.Proofs.Recording.Refusal
import LaunchTrace.Proofs.Recording.RoundTrip

/-! Commits to a file that refuses to be written. Nothing gets out of the buffer, and every commit fails. Which error it
fails with depends on the room that earlier commits have left: where the line still goes into the buffer, the failure
comes at the end of the line; where it does not, it comes from within the line and counts as one of the event. -/
namespace LaunchTrace

namespace FileSystem

theorem refusal?_of_write {fs : FileSystem} {handle : FileHandle} {error : FileError}
    (refuses : ∀ bytes, fs.write handle bytes = .error error) : fs.refusal? handle.place = some error := by
  cases allowed : fs.refusal? handle.place with
  | none =>
    obtain ⟨_, _, written, _⟩ := write_allowed allowed []
    rw [refuses] at written
    contradiction
  | some other => exact congrArg some (Except.error.inj ((write_refused allowed []).symm.trans (refuses [])))

end FileSystem

namespace LineFile

variable {f : LineFile} {fs : FileSystem} {error : FileError} {fragment : Bytes} {fragments rest : List Bytes}
  {space : Nat} {e : Event}

/-! ## What stays in the buffer -/

/-- How many bytes more the buffer takes. -/
def room (f : LineFile) : Nat :=
  capacity - f.buffered.length

/-- The file with more in its buffer. -/
def hold (f : LineFile) (bytes : Bytes) : LineFile :=
  { f with buffered := f.buffered ++ bytes }

/-- The fragments before the first for which there is no room. -/
def retained (space : Nat) : List Bytes → Bytes
  | [] => []
  | fragment :: rest =>
    if fragment.length ≤ space then fragment ++ retained (space - fragment.length) rest else []

theorem hold_hold (f : LineFile) (bytes more : Bytes) : (f.hold bytes).hold more = f.hold (bytes ++ more) := by
  simp only [hold, List.append_assoc]

theorem hold_nil (f : LineFile) : f.hold [] = f := by
  simp only [hold, List.append_nil]

theorem room_hold (f : LineFile) (bytes : Bytes) : (f.hold bytes).room = f.room - bytes.length := by
  simp only [room, hold, List.length_append, Nat.sub_sub]

theorem retained_of_le (fits : fragments.flatten.length ≤ space) : retained space fragments = fragments.flatten := by
  induction fragments generalizing space with
  | nil => rfl
  | cons fragment rest ih =>
    simp only [List.flatten_cons, List.length_append] at fits ⊢
    rw [retained, if_pos (by omega), ih (by omega)]

/-- Behind fragments that all stay there may be more, behind others there is not. -/
theorem retained_append (fragments more : List Bytes) (space : Nat) :
    retained space (fragments ++ more) = retained space fragments ++
      if fragments.flatten.length ≤ space then retained (space - fragments.flatten.length) more else [] := by
  induction fragments generalizing space with
  | nil => simp [retained]
  | cons fragment rest ih =>
    simp only [List.cons_append, retained, List.flatten_cons, List.length_append]
    by_cases fits : fragment.length ≤ space
    · have same : fragment.length + rest.flatten.length ≤ space ↔ rest.flatten.length ≤ space - fragment.length := by
        omega
      simp only [if_pos fits, ih, List.append_assoc, same, Nat.sub_sub]
    · have short : ¬ fragment.length + rest.flatten.length ≤ space := by omega
      simp only [if_neg fits, if_neg short, List.append_nil]

/-! ## One attempt -/

/-- A fragment stays if there is room for it, and unless it is so long that it would go past the buffer. -/
theorem put_refused (refused : f.refusal? fs = some error) (fragment : Bytes) :
    f.put fs fragment = if fragment.length ≤ f.room ∧ fragment.length < capacity then ⟨none, f.hold fragment, fs⟩
      else ⟨some error, f, fs⟩ := by
  have direct (large : capacity ≤ fragment.length) : f.writeThrough fs fragment = ⟨some error, f, fs⟩ ∧
      ¬ (fragment.length ≤ f.room ∧ fragment.length < capacity) :=
    ⟨writeThrough_refused refused fragment, fun small => by omega⟩
  unfold put makeRoom
  by_cases short : f.room < fragment.length
  · rw [← room, if_pos short, if_neg (by omega)]
    by_cases empty : f.buffered = []
    · have large : capacity ≤ fragment.length := by
        rw [room, empty, List.length_nil] at short
        omega
      rw [flush, if_pos empty]
      dsimp only
      rw [if_pos large, (direct large).1]
    · rw [flush_refused refused empty]
  · rw [← room, if_neg short]
    dsimp only
    by_cases large : capacity ≤ fragment.length
    · rw [if_pos large, (direct large).1, if_neg (direct large).2]
    · rw [if_neg large, if_pos (by omega)]
      rfl

/-- What has come of the fragments of a line, all of which have to go into the buffer. -/
def Attempt.stuck (f : LineFile) (fs : FileSystem) (error : FileError) (fragments : List Bytes) : Attempt :=
  ⟨if fragments.flatten.length ≤ f.room then none else some error, f.hold (retained f.room fragments), fs⟩

theorem putAll_cons_refused (refused : f.refusal? fs = some error)
    (small : fragment.length ≤ f.room → fragment.length < capacity)
    (later : putAll rest (f.hold fragment) fs = .stuck (f.hold fragment) fs error rest) :
    putAll (fragment :: rest) f fs = .stuck f fs error (fragment :: rest) := by
  rw [putAll, put_refused refused, Attempt.stuck, List.flatten_cons, List.length_append, retained]
  by_cases fits : fragment.length ≤ f.room
  · have same : fragment.length + rest.flatten.length ≤ f.room ↔ rest.flatten.length ≤ f.room - fragment.length := by
      omega
    rw [if_pos ⟨fits, small fits⟩, if_pos fits]
    dsimp only
    simp only [later, Attempt.stuck, room_hold, hold_hold, same]
  · have short : ¬ fragment.length + rest.flatten.length ≤ f.room := by omega
    rw [if_neg (fun both => fits both.1), if_neg fits, if_neg short, hold_nil]

/-- Behind something else in the buffer, what fits is never as long as the buffer. -/
theorem putAll_refused (refused : f.refusal? fs = some error) (started : f.buffered ≠ []) (fragments : List Bytes) :
    putAll fragments f fs = .stuck f fs error fragments := by
  induction fragments generalizing f with
  | nil =>
    simp only [putAll, Attempt.stuck, retained, hold_nil, List.flatten_nil, List.length_nil, Nat.zero_le, if_true]
  | cons fragment rest ih =>
    apply putAll_cons_refused refused
    · intro fits
      have some := List.length_pos_iff.mpr started
      have positive : 0 < capacity := by decide
      rw [room] at fits
      omega
    · exact ih refused (List.append_ne_nil_of_left_ne_nil started _)

/-- The line of an event in the pieces in which it is written. -/
def pieces (e : Event) : List Bytes :=
  e.fragments.map Text.Utf8.encode

theorem pieces_flatten (e : Event) : (pieces e).flatten = Recording.lineBytes e := by
  rw [pieces, ← Text.Utf8.encode_flatten, e.fragments_flatten, Recording.lineBytes]

/-- A line starts with a brace, which is short enough even for an empty buffer. -/
theorem putAll_pieces_refused (refused : f.refusal? fs = some error) (e : Event) :
    putAll (pieces e) f fs = .stuck f fs error (pieces e) := by
  rw [pieces, Event.fragments, List.cons_append, List.map_cons]
  apply putAll_cons_refused refused
  · intro _
    decide
  · refine putAll_refused ?_ ?_ _
    · exact refused
    · exact List.append_ne_nil_of_right_ne_nil _ (by decide)

/-- The error of an event. It is one of the file where the line as such goes into the buffer. -/
def blame (f : LineFile) (error : FileError) (e : Event) : RecordingError :=
  if (Recording.lineBytes e).length ≤ f.room then .io error else .serialization error

/-- The file with what stays of an event and of the end of its line. -/
def burden (f : LineFile) (e : Event) : LineFile :=
  f.hold (retained f.room (pieces e ++ [[lineFeed]]))

theorem append_refused (refused : f.refusal? fs = some error) (e : Event) :
    f.append fs e = (some (f.blame error e), f.burden e, fs) := by
  have line := putAll_pieces_refused refused e
  rw [Attempt.stuck, pieces_flatten] at line
  rw [append, ← pieces, line, blame, burden, retained_append, pieces_flatten]
  by_cases fits : (Recording.lineBytes e).length ≤ f.room
  · have whole : retained f.room (pieces e) = Recording.lineBytes e := by
      rw [retained_of_le (by rwa [pieces_flatten]), pieces_flatten]
    have started (bytes : Bytes) : (f.hold (Recording.lineBytes e ++ bytes)).buffered ≠ [] :=
      List.append_ne_nil_of_right_ne_nil _ (List.append_ne_nil_of_left_ne_nil (Recording.lineBytes_ne_nil e) _)
    have small : [lineFeed].length < capacity := by decide
    simp only [if_pos fits, whole]
    rw [put_refused (f := f.hold (Recording.lineBytes e)) refused, room_hold]
    -- The end of the line may find no room. If it does, it is the flush behind it that fails.
    by_cases last : [lineFeed].length ≤ f.room - (Recording.lineBytes e).length
    · have flushed := flush_refused (f := f.hold (Recording.lineBytes e ++ [lineFeed])) refused (started _)
      simp only [last, small, and_self, if_true, hold_hold, flushed, retained, List.append_nil, Option.map_some]
    · simp only [last, false_and, if_false, retained, List.append_nil]
  · simp only [if_neg fits, List.append_nil]

/-! ## Any number of attempts -/

/-- The file with what stays of events that it has refused one after the other. -/
def backlog (f : LineFile) (events : List Event) : LineFile :=
  events.foldl burden f

theorem burden_room (f : LineFile) (e : Event) : (f.burden e).room ≤ f.room := by
  rw [burden, room_hold]
  exact Nat.sub_le _ _

theorem backlog_room (f : LineFile) (events : List Event) : (f.backlog events).room ≤ f.room := by
  induction events generalizing f with
  | nil => exact Nat.le_refl _
  | cons e rest ih => exact (ih (f.burden e)).trans (f.burden_room e)

/-- The more events there have been, the less room there is. -/
theorem room_take_le {i j : Nat} (ordered : i ≤ j) (f : LineFile) (events : List Event) :
    (f.backlog (events.take j)).room ≤ (f.backlog (events.take i)).room := by
  obtain ⟨more, rfl⟩ := Nat.exists_eq_add_of_le ordered
  rw [List.take_add, backlog, List.foldl_append]
  exact backlog_room _ _

theorem le_room_iff (e : Event) :
    (Recording.lineBytes e).length ≤ f.room ↔ f.buffered.length + (Recording.lineBytes e).length ≤ capacity := by
  have some := List.length_pos_iff.mpr (Recording.lineBytes_ne_nil e)
  rw [room]
  omega

theorem blame_cases (f : LineFile) (error : FileError) (e : Event) :
    f.blame error e = .io error ∨ f.blame error e = .serialization error := by
  unfold blame
  split
  · exact .inl rfl
  · exact .inr rfl

theorem blame_isIo (f : LineFile) (error : FileError) (e : Event) :
    (f.blame error e).isIo = true ↔ f.buffered.length + (Recording.lineBytes e).length ≤ capacity := by
  rw [← le_room_iff, blame]
  split
  · rename_i fits
    exact iff_of_true rfl fits
  · rename_i short
    exact iff_of_false Bool.false_ne_true short

theorem blame_serialization :
    f.blame error e = .serialization error ↔ f.room < (Recording.lineBytes e).length := by
  rw [← Nat.not_le, blame]
  split <;> simp [*]

theorem commit_refused (host : Host) (refused : f.refusal? host.files = some error)
    (opened : f.isOpen host.elapsed = true) (e : Event) :
    (Recorder.sink (.lines f)).commit e host = (.sink (.lines (f.burden e)), host, .failed (f.blame error e)) := by
  simp only [Recorder.commit, Sink.commit, opened, if_true, append_refused refused]

/-- Each commit meets what those before it have left in the buffer, and adds to it. -/
theorem commitAll_refused {host : Host} {timed : List (Duration × Event)}
    (refused : f.refusal? host.files = some error) (opened : ∀ entry ∈ timed, f.isOpen entry.1 = true) :
    let events := timed.map (·.2)
    let faults := events.mapIdx fun i e => (f.backlog (events.take i)).blame error e
    ∃ after, (Recorder.sink (.lines f)).commitAll host timed =
      (faults.map .failed, .sink (.lines (f.backlog events)), after) ∧ after.files = host.files := by
  induction timed generalizing f host with
  | nil => exact ⟨host, rfl, rfl⟩
  | cons first rest ih =>
    obtain ⟨elapsed, e⟩ := first
    have now : f.isOpen elapsed = true := opened _ List.mem_cons_self
    have later : ∀ entry ∈ rest, (f.burden e).isOpen entry.1 = true :=
      fun entry member => opened entry (List.mem_cons_of_mem _ member)
    obtain ⟨after, run, kept⟩ := @ih (f.burden e) { host with elapsed } refused later
    refine ⟨after, ?_, kept⟩
    have done := commit_refused { host with elapsed } refused now e
    rw [Recorder.commitAll, done]
    dsimp only
    rw [run, List.map_cons, List.mapIdx_cons]
    rfl

end LineFile

/-- No commit to a file that refuses to be written goes well, and each fails with the error of the file. It counts as an
error of the file exactly if the line still went into the buffer, behind what all the commits before have left there.
As the buffer only fills up, a line for which there was no room is followed by none of its length for which there is.
Nothing ever gets to the file. -/
theorem Recorder.commitAll_stuck {f : LineFile} {host : Host} {error : FileError} {timed : List (Duration × Event)}
    (refuses : ∀ bytes, host.files.write f.handle bytes = .error error)
    (opened : ∀ entry ∈ timed, f.isOpen entry.1 = true) :
    let events := timed.map (·.2)
    ∃ (faults : List RecordingError) (after : Host), (Recorder.sink (.lines f)).commitAll host timed =
        (faults.map .failed, .sink (.lines (f.backlog events)), after) ∧
      after.files = host.files ∧ faults.length = events.length ∧
      (∀ (i : Nat) (e : Event), events[i]? = some e → ∃ fault, faults[i]? = some fault ∧
        (fault = .io error ∨ fault = .serialization error) ∧
        (fault.isIo = true ↔
          (f.backlog (events.take i)).buffered.length + (Recording.lineBytes e).length ≤ LineFile.capacity)) ∧
      ∀ (i j : Nat) (d e : Event), i ≤ j → events[i]? = some d → events[j]? = some e →
        (Recording.lineBytes d).length ≤ (Recording.lineBytes e).length →
        faults[i]? = some (.serialization error) → faults[j]? = some (.serialization error) := by
  intro events
  have refused : f.refusal? host.files = some error := FileSystem.refusal?_of_write refuses
  obtain ⟨after, run, kept⟩ := LineFile.commitAll_refused refused opened
  have fault (i : Nat) (e : Event) (there : events[i]? = some e) :
      (events.mapIdx fun i e => (f.backlog (events.take i)).blame error e)[i]? =
        some ((f.backlog (events.take i)).blame error e) := by
    rw [List.getElem?_mapIdx, there, Option.map_some]
  refine ⟨_, after, run, kept, List.length_mapIdx, ?_, ?_⟩
  · intro i e there
    exact ⟨_, fault i e there, LineFile.blame_cases _ _ _, LineFile.blame_isIo _ _ _⟩
  · intro i j d e ordered first second longer serialization
    rw [fault i d first, Option.some.injEq, LineFile.blame_serialization] at serialization
    rw [fault j e second, Option.some.injEq, LineFile.blame_serialization]
    have less := LineFile.room_take_le ordered f events
    omega

/-! ## Long lines -/

theorem Json.length_lt_literal (s : List Char) : s.length < (literal s).length := by
  have each (c : Char) : 1 ≤ (escapeChar c).length := by
    unfold escapeChar escape?
    split_ifs <;> simp
  have whole : s.length ≤ (s.flatMap escapeChar).length := by
    induction s with
    | nil => exact Nat.le_refl _
    | cons c rest ih =>
      have one := each c
      simp only [List.flatMap_cons, List.length_append, List.length_cons]
      omega
  simp only [literal, List.cons_append, List.length_cons, List.length_append]
  omega

theorem Text.Utf8.length_le_encode (s : List Char) : s.length ≤ (encode s).length := by
  have each (c : Char) : 1 ≤ (encodeChar c).length := by
    unfold encodeChar
    dsimp only
    split_ifs <;> simp
  induction s with
  | nil => exact Nat.le_refl _
  | cons c rest ih =>
    have one := each c
    rw [encode] at ih ⊢
    simp only [List.flatMap_cons, List.length_append, List.length_cons]
    omega

/-- A line is longer than the tags in it. -/
theorem Event.tags_lt_lineBytes (e : Event) : e.tags.toList.length < (Recording.lineBytes e).length := by
  have quoted := Json.length_lt_literal e.tags.toList
  have within : (Json.literal e.tags.toList).length ≤ e.line.length := by
    simp only [line, toJson, Json.ofMembers, Json.ofString, Json.ofNat, List.map_cons, List.map_nil, Json.render,
      Json.renderMembers, Json.literalOf, Option.getD_some, List.length_append, List.length_cons]
    omega
  exact quoted.trans_le (within.trans (Text.Utf8.length_le_encode e.line))

/-- A device without space. -/
def fullDevice : FileSystem :=
  ⟨[], [([(Path.ofText "full").bytes], .refusing .noSpace)]⟩

/-- A recording that was begun on it. -/
def clogged : LineFile :=
  ⟨.ofText "full", ⟨[(Path.ofText "full").bytes], 0⟩, [], some (.ofSeconds 10)⟩

theorem clogged_refuses (bytes : Bytes) : fullDevice.write clogged.handle bytes = .error .noSpace := rfl

def brief : Event :=
  ⟨Event.stepEventName, 1, 0, "app", "[]", Session.newYear, 1⟩

/-- An event whose tags alone are as long as the buffer. -/
def sprawling : Event :=
  ⟨Event.stepEventName, 2, 1, "app.scan", String.ofList (List.replicate LineFile.capacity 'x'), Session.newYear, 1⟩

theorem capacity_lt_sprawling : LineFile.capacity < (Recording.lineBytes sprawling).length := by
  have long := sprawling.tags_lt_lineBytes
  rwa [sprawling, String.toList_ofList, List.length_replicate] at long

theorem Recorder.commitAll_clogged :
    ∃ faults after, (Recorder.sink (.lines clogged)).commitAll { Session.bareHost with files := fullDevice }
        [(⟨0⟩, brief), (⟨9999999999⟩, sprawling)] =
        (faults.map .failed, .sink (.lines (clogged.backlog [brief, sprawling])), after) ∧
      after.files = fullDevice ∧ faults = [.io .noSpace, .serialization .noSpace] := by
  have opened : ∀ entry ∈ [((⟨0⟩ : Duration), brief), (⟨9999999999⟩, sprawling)], clogged.isOpen entry.1 = true := by
    simp only [List.mem_cons, List.not_mem_nil, or_false]
    rintro entry (rfl | rfl) <;> decide
  obtain ⟨faults, after, run, kept, count, each, -⟩ :=
    @Recorder.commitAll_stuck clogged { Session.bareHost with files := fullDevice } .noSpace _ clogged_refuses opened
  obtain ⟨first, there, own, fits⟩ := each 0 brief rfl
  obtain ⟨second, here, other, short⟩ := each 1 sprawling rfl
  have small : first.isIo = true := fits.mpr (by decide +kernel)
  have large : second.isIo ≠ true := fun io => by
    have room := short.mp io
    have long := capacity_lt_sprawling
    omega
  obtain ⟨a, b, rfl⟩ := List.length_eq_two.mp count
  obtain rfl : a = first := Option.some.inj there
  obtain rfl : b = second := Option.some.inj here
  obtain rfl : a = .io .noSpace := own.resolve_right fun other => by simp [other, RecordingError.isIo] at small
  obtain rfl : b = .serialization .noSpace := other.resolve_left fun io => large (by rw [io]; rfl)
  exact ⟨_, after, run, kept, rfl⟩

/-- The first commit already may fail with an error that is none of the file. -/
theorem Recorder.commit_sprawling :
    (∀ bytes, fullDevice.write clogged.handle bytes = .error .noSpace) ∧
      clogged.isOpen Session.bareHost.elapsed = true ∧
      ∃ r after, (Recorder.sink (.lines clogged)).commit sprawling { Session.bareHost with files := fullDevice } =
        (r, after, .failed (.serialization .noSpace)) ∧ RecordingError.isIo (.serialization .noSpace) = false := by
  have refused : clogged.refusal? fullDevice = some .noSpace := FileSystem.refusal?_of_write clogged_refuses
  have opened : clogged.isOpen Session.bareHost.elapsed = true := by decide
  have done := LineFile.commit_refused { Session.bareHost with files := fullDevice } refused opened sprawling
  have fault : clogged.blame .noSpace sprawling = .serialization .noSpace :=
    LineFile.blame_serialization.mpr capacity_lt_sprawling
  rw [fault] at done
  exact ⟨clogged_refuses, opened, _, _, done, rfl⟩

end LaunchTrace
