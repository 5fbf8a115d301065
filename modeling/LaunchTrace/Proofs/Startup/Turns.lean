import LaunchTrace.Proofs.Recording.RoundTrip
import LaunchTrace.Proofs.Recording.Settings
import LaunchTrace.Proofs.Startup.Account
import LaunchTrace.Proofs.Startup.Within
import LaunchTrace.Proofs.Step.Name

/-! Steps that are started by a name, tagged with it and ended, one after the other, while they are recorded into a
file. A name that is not sound is refused and leaves nothing behind: the steps of the others are numbered as if it had
not been there. -/
namespace LaunchTrace

variable {σ : Type}

/-! ## Turns -/

/-- A step with the given name, which is also its tag, and the times of its start, its tag and its end. -/
structure Turn where
  name : String
  started : Duration
  tagged : Duration
  ended : Duration

namespace Turn

def times (v : Turn) : List Duration :=
  [v.started, v.tagged, v.ended]

def isSound (v : Turn) : Bool :=
  StepName.fault? v.name.toList = none

/-- The answer to the start of the step with the given number. -/
def reply (v : Turn) (number : Nat) : Reply :=
  match StepName.fault? v.name.toList with
  | some fault => .refused (.ofFault v.name fault)
  | none => .started (UInt64.ofNat number) none

/-- The event of the step with the given number. -/
def outline (v : Turn) (number : Nat) : Event.Outline :=
  ⟨UInt64.ofNat number, rootId, v.name, "[k=" ++ v.name ++ "]"⟩

/-- The answers behind some steps: a step has the number of sound names as far as its own. -/
def replies (count : Nat) (turns : List Turn) : List Reply :=
  turns.mapIdx fun i v => v.reply (count + (turns.take (i + 1)).countP isSound)

/-- The events behind some others: those of the sound names, in order. -/
def outlines (count : Nat) (turns : List Turn) : List Event.Outline :=
  ((turns.filter isSound).zipIdx (count + 1)).map fun (v, number) => v.outline number

theorem listing (v : Turn) : Tag.listing [("k", v.name)] = "[k=" ++ v.name ++ "]" := by
  have one : Tag.listing [("k", v.name)] = "[" ++ ("k" ++ "=" ++ v.name) ++ "]" := rfl
  have front : "[" ++ ("k" ++ "=" ++ v.name) = "[k=" ++ v.name := by
    rw [← String.append_assoc, ← String.append_assoc]
    rfl
  rw [one, front]

variable {v : Turn} {rest : List Turn} {count : Nat}

/-- A name that is refused has no number. -/
theorem reply_of_not_sound (faulty : ¬v.isSound = true) (first second : Nat) : v.reply first = v.reply second := by
  unfold reply
  cases found : StepName.fault? v.name.toList with
  | none => simp [isSound, found] at faulty
  | some fault => rfl

theorem replies_cons : replies count (v :: rest) =
    v.reply (count + 1) :: replies (if v.isSound then count + 1 else count) rest := by
  rw [replies, List.mapIdx_cons]
  split
  · next sound => simp [replies, sound, ← Nat.add_assoc, Nat.add_right_comm count 1]
  · next faulty => simp [replies, faulty, reply_of_not_sound faulty count (count + 1)]

theorem outlines_cons : outlines count (v :: rest) =
    if v.isSound then v.outline (count + 1) :: outlines (count + 1) rest else outlines count rest := by
  unfold outlines
  split
  · next sound => rw [List.filter_cons_of_pos sound, List.zipIdx_cons, List.map_cons]
  · next faulty => rw [List.filter_cons_of_neg faulty]

end Turn

/-! ## A flight that records into a file -/

/-- The window is not over by then. -/
def RecordingSettings.Lasts (settings : RecordingSettings) (elapsed : Duration) : Prop :=
  ∀ window ∈ settings.window, elapsed.nanos < window.nanos

instance (settings : RecordingSettings) (elapsed : Duration) : Decidable (settings.Lasts elapsed) :=
  inferInstanceAs (Decidable (∀ window ∈ settings.window, elapsed.nanos < window.nanos))

theorem LineFile.isOpen_of_lasts {g : LineFile} {settings : RecordingSettings} {elapsed : Duration}
    (window : g.window = settings.window) (lasts : settings.Lasts elapsed) : g.isOpen elapsed = true := by
  rw [isOpen, window]
  cases limit : settings.window with
  | none => rfl
  | some limit' => exact decide_eq_true (lasts limit' limit)

namespace Flight

def elapse (f : Flight) (elapsed : Duration) : Flight :=
  { f with host := { f.host with elapsed } }

/-- The file of the settings has a line for each of the events, which are those of steps. -/
structure Writes (f : Flight) (settings : RecordingSettings) (events : List Event) : Prop where
  file : ∃ g, f.recorder = .sink (.lines g) ∧ g.path = .ofText settings.filename ∧ g.window = settings.window ∧
    g.Settled f.host.files (Recording.joined (events.map Recording.lineBytes))
  clocked : ∀ n, (f.clock.reading n).wall.Valid
  dated : ∀ e ∈ events, e.startTime.Valid
  stepped : ∀ e ∈ events, e.eventName = Event.stepEventName

variable {f : Flight} {settings : RecordingSettings} {events : List Event} {step : Step σ} {e : Event}

theorem Writes.elapse (writes : f.Writes settings events) (elapsed : Duration) :
    (f.elapse elapsed).Writes settings events :=
  ⟨writes.file, writes.clocked, writes.dated, writes.stepped⟩

theorem Writes.start (writes : f.Writes settings events) (name : StepName) :
    (f.start (σ := σ) name).2.Writes settings events :=
  ⟨writes.file, writes.clocked, writes.dated, writes.stepped⟩

theorem Writes.isRecording (writes : f.Writes settings events) (lasts : settings.Lasts f.host.elapsed) :
    f.isRecording = true := by
  obtain ⟨g, lines, _, window, _⟩ := writes.file
  apply isRecording_of_answer
  rw [lines, Recorder.isRecording, Sink.isRecording, LineFile.isOpen_of_lasts window lasts]

theorem Writes.commit (writes : f.Writes settings events) (lasts : settings.Lasts f.host.elapsed)
    (dated : e.startTime.Valid) (stepped : e.eventName = Event.stepEventName) :
    (f.commit e).Writes settings (events ++ [e]) := by
  obtain ⟨g, lines, path, window, settled⟩ := writes.file
  obtain ⟨after, files, committed, samePath, sameWindow, reached⟩ := LineFile.commit_settled f.host settled e
  have taken : g.taken [(f.host.elapsed, e)] = [e] :=
    LineFile.taken_eq (by simpa using LineFile.isOpen_of_lasts window lasts)
  rw [taken, ← Recording.joined_append, ← List.map_append] at reached
  have same : f.commit e = { f with recorder := .sink (.lines after), host := { f.host with files } } := by
    apply commit_of_outcome
    rw [lines, committed]
  rw [same]
  refine ⟨⟨after, rfl, samePath.trans path, sameWindow.trans window, reached⟩, writes.clocked, ?_, ?_⟩
  · exact List.forall_mem_append.mpr ⟨writes.dated, List.forall_mem_singleton.mpr dated⟩
  · exact List.forall_mem_append.mpr ⟨writes.stepped, List.forall_mem_singleton.mpr stepped⟩

/-- The event of a step that ends is written behind the others. -/
theorem Writes.finish (writes : f.Writes settings events) (lasts : settings.Lasts f.host.elapsed)
    (running : step.ended = false) (dated : step.started.wall.Valid) (state : σ) :
    ∃ e, (f.finish step state).2.2.Writes settings (events ++ [e]) ∧
      e.outline = ⟨step.id, step.parentId, step.name.text, Tag.listing (Tag.texts step.tags.entries state).1⟩ := by
  have timed : ({ f.close step.id with clock := f.clock.advance } : Flight).Writes settings events :=
    ⟨writes.file, writes.clocked, writes.dated, writes.stepped⟩
  rw [finish_of_recording running (writes.isRecording lasts)]
  refine ⟨_, timed.commit lasts dated rfl, ?_⟩
  rw [Event.outline]
  exact congrArg (Event.Outline.mk _ _ _) (step.tags.resolve_display state)

end Flight

/-! ## The course of a turn -/

namespace Session

def elapse (s : Session σ) (elapsed : Duration) : Session σ :=
  (s.apply (.surround fun recorder host => (recorder, { host with elapsed }))).2

/-- Starts a step, tags it and ends it. The answer is that to the start. -/
def takeTurn (access : Access) (label : String) (s : Session σ) (v : Turn) : Reply × Session σ :=
  let (reply, s) := (s.elapse v.started).apply (.start label (.tryStart access) v.name)
  let (_, s) := (s.elapse v.tagged).apply (.tag label ⟨"k", .ready v.name⟩)
  let (_, s) := (s.elapse v.ended).apply (.finish label)
  (reply, s)

def takeTurns (access : Access) (label : String) (s : Session σ) : List Turn → List Reply × Session σ
  | [] => ([], s)
  | v :: rest =>
    let (reply, s) := s.takeTurn access label v
    let (replies, s) := s.takeTurns access label rest
    (reply :: replies, s)

variable {access : Access} {label name : String} {state : σ} {history : List Mark} {v : Turn} {startup next : Startup}
  {handle : StepHandle σ} {h : Held σ} {route : Route} {f : Flight} {step : Step σ}

theorem takeTurn_eq (access : Access) (label : String) (s : Session σ) (v : Turn) :
    s.takeTurn access label v =
      let started := (s.elapse v.started).start label (.tryStart access) v.name
      let tagged := ((started.2.elapse v.tagged).apply (.tag label ⟨"k", .ready v.name⟩)).2
      (started.1, ((tagged.elapse v.ended).apply (.finish label)).2) := rfl

theorem elapse_off (held : List (String × Held σ)) (elapsed : Duration) :
    elapse ⟨.off, held, state, history⟩ elapsed = ⟨.off, held, state, history⟩ := rfl

theorem elapse_recording (f : Flight) (held : List (String × Held σ)) (elapsed : Duration) :
    elapse ⟨.recording f, held, state, history⟩ elapsed = ⟨.recording (f.elapse elapsed), held, state, history⟩ := rfl

/-! A step that is held alone -/

theorem start_alone (begun : route.begin startup name = .ok (handle, next)) :
    start ⟨startup, [], state, history⟩ label route name = (.started handle.id handle.parent?,
      ⟨next, [(label, ⟨handle, route.isDirect⟩)], state, handle.startMarks ++ history⟩) := by
  simp only [start, begun]
  rfl

theorem withHeld_alone (action : Held σ → Session σ → Session σ) :
    withHeld ⟨startup, [(label, h)], state, history⟩ label action =
      (.done, action h ⟨startup, [], state, history⟩) := by
  simp only [withHeld, Held.take?, if_true]

theorem tag_alone (t : Tag σ) : (apply ⟨startup, [(label, h)], state, history⟩ (.tag label t)).2 =
    ⟨startup, [(label, h.tag startup t)], state, history⟩ := by
  simp only [apply, withHeld_alone, put]

/-- A wrapper that ends its step lets go of it. -/
theorem finish_alone (wrapped : h.direct = false) :
    (apply ⟨startup, [(label, h)], state, history⟩ (.finish label)).2 =
      (callEnd ⟨startup, [], state, history⟩ h).2.letGo (callEnd ⟨startup, [], state, history⟩ h).1 := by
  have same : (callEnd ⟨startup, [], state, history⟩ h).1.direct = false := wrapped
  simp only [apply, finish, withHeld_alone, same, Bool.false_eq_true, if_false]

/-- Where nothing is recorded any name will do. -/
theorem takeTurn_off : takeTurn access label ⟨.off, [], state, history⟩ v =
    (.started rootId none, ⟨.off, [], state, history⟩) := by
  have begun : (Route.tryStart access).begin (σ := σ) .off v.name = .ok (.off, .off) := by
    rw [Route.begin, tryStart_eq]
    rfl
  have started : start ⟨.off, [], state, history⟩ label (.tryStart access) v.name =
      (.started rootId none, ⟨.off, [(label, ⟨.off, false⟩)], state, history⟩) := start_alone begun
  have tagged (t : Tag σ) : (apply ⟨.off, [(label, ⟨.off, false⟩)], state, history⟩ (.tag label t)).2 =
      ⟨.off, [(label, ⟨.off, false⟩)], state, history⟩ := tag_alone t
  have finished : (apply ⟨.off, [(label, (⟨.off, false⟩ : Held σ))], state, history⟩ (.finish label)).2 =
      ⟨.off, [], state, history⟩ := finish_alone rfl
  rw [takeTurn_eq]
  simp only [elapse_off, started, tagged, finished]

/-- Nothing is left of a wrapper whose step has ended. -/
theorem letGo_of_ended {s : Session σ} (recording : s.startup = .recording f) (handle : h.handle = .step step)
    (ended : step.ended = true) : ∃ history, s.letGo h = { s with history } := by
  have again (history : List Mark) : callEnd { s with history } h =
      (h, { s with history := .ended step.id :: history }) := callEnd_of_ended recording handle ended
  have once : s.callEnd h = (h, { s with history := .ended step.id :: s.history }) := again s.history
  unfold letGo
  split
  · exact ⟨_, congrArg Prod.snd once⟩
  · rw [once]
    exact ⟨_, congrArg Prod.snd (again _)⟩

theorem finish_recording (label : String) (f : Flight) (step : Step σ) (state : σ) (history : List Mark) :
    ∃ later, (apply ⟨.recording f, [(label, ⟨.step step, false⟩)], state, history⟩ (.finish label)).2 =
      ⟨.recording (f.finish step state).2.2, [], (f.finish step state).2.1, later⟩ := by
  rw [finish_alone rfl, callEnd_eq rfl rfl]
  exact letGo_of_ended rfl rfl Flight.finish_ended

/-- Between two turns no step is held, and the ids that are open are only those that have come round to the root's. -/
structure Idle (settings : RecordingSettings) (events : List Event) (s : Session σ) : Prop where
  held : s.held = []
  flight : ∃ f, s.startup = .recording f ∧ f.Writes settings events ∧ f.current = UInt64.ofNat events.length ∧
    ∀ id ∈ f.openSteps.ids, id = rootId

variable {settings : RecordingSettings} {events : List Event} {s : Session σ}

theorem head_of_idle (idle : ∀ id ∈ f.openSteps.ids, id = rootId) : f.openSteps.head = rootId := by
  unfold OpenSteps.head
  cases ids : f.openSteps.ids with
  | nil => rfl
  | cons id rest =>
    rw [ids] at idle
    exact idle id List.mem_cons_self

/-- The step that was opened last is closed, unless its id is the root's. -/
theorem ids_of_remove {o : OpenSteps} {id : StepId} (idle : ∀ other ∈ o.ids, other = rootId) :
    ∀ other ∈ (OpenSteps.remove ⟨id :: o.ids⟩ id).2.ids, other = rootId := by
  unfold OpenSteps.remove
  split
  · intro other member
    rw [List.erase_cons_head] at member
    exact idle other member
  · rename_i kept
    have root : id = rootId := by
      by_contra different
      exact kept ⟨different, List.mem_cons_self⟩
    exact List.forall_mem_cons.mpr ⟨root, idle⟩

/-- A turn with a name that is not sound leaves nothing behind. -/
theorem Idle.takeTurn_faulty (idle : s.Idle settings events) (access : Access) (label : String)
    (faulty : ¬v.isSound = true) (number : Nat) :
    (s.takeTurn access label v).1 = v.reply number ∧ (s.takeTurn access label v).2.Idle settings events := by
  obtain ⟨startup, held, state, history⟩ := s
  obtain ⟨rfl, f, rfl, writes, current, closed⟩ := idle
  cases found : StepName.fault? v.name.toList with
  | none => simp [Turn.isSound, found] at faulty
  | some fault =>
    have refused : start ⟨.recording (f.elapse v.started), [], state, history⟩ label (.tryStart access) v.name =
        (.refused (.ofFault v.name fault), ⟨.recording (f.elapse v.started), [], state, history⟩) :=
      start_of_invalid (StepName.validate_of_fault found) ⟨_, rfl⟩ label (.tryStart access)
    rw [takeTurn_eq, elapse_recording, refused]
    refine ⟨by rw [Turn.reply, found], rfl, ((f.elapse v.started).elapse v.tagged).elapse v.ended, rfl, ?_, ?_, ?_⟩
    · exact ((writes.elapse v.started).elapse v.tagged).elapse v.ended
    · exact current
    · exact closed

/-- A turn with a sound name leaves its event behind. -/
theorem Idle.takeTurn_sound (idle : s.Idle settings events) (access : Access) (label : String)
    (sound : v.isSound = true) (lasts : ∀ elapsed ∈ v.times, settings.Lasts elapsed) :
    (s.takeTurn access label v).1 = v.reply (events.length + 1) ∧
      ∃ e, (s.takeTurn access label v).2.Idle settings (events ++ [e]) ∧ e.outline = v.outline (events.length + 1) := by
  obtain ⟨startup, held, state, history⟩ := s
  obtain ⟨rfl, f, rfl, writes, current, closed⟩ := idle
  have sound : StepName.fault? v.name.toList = none := of_decide_eq_true sound
  have root : f.openSteps.head = rootId := head_of_idle closed
  have id : f.current + 1 = UInt64.ofNat (events.length + 1) := by
    rw [current, UInt64.ofNat_add]
    rfl
  let name : StepName := ⟨v.name, sound⟩
  -- The flight when the step is started, tagged and ended.
  let f₁ := f.elapse v.started
  let f₂ := (f₁.start (σ := σ) name).2.elapse v.tagged
  let f₃ := f₂.elapse v.ended
  let step : Step σ := (f₁.start name).1
  let t : Tag σ := ⟨"k", .ready v.name⟩
  have started : start ⟨.recording f₁, [], state, history⟩ label (.tryStart access) v.name =
      (.started step.id (StepHandle.step step).parent?, ⟨.recording (f₁.start (σ := σ) name).2,
        [(label, ⟨.step step, false⟩)], state, (StepHandle.step step).startMarks ++ history⟩) :=
    start_alone (begin_of_valid (StepName.validate_text name) f₁ (.tryStart access))
  have writes₂ : f₂.Writes settings events := ((writes.elapse v.started).start name).elapse v.tagged
  have asked : f₂.isRecording = true := writes₂.isRecording (lasts v.tagged (by simp [Turn.times]))
  let kept : Step σ := { step with tags := step.tags.push t }
  have tagged : Held.tag (.recording f₂) t ⟨.step step, false⟩ = ⟨.step kept, false⟩ :=
    congrArg (fun handle => (⟨handle, false⟩ : Held σ)) (Startup.tag_recording asked rfl t)
  obtain ⟨later, finished⟩ :=
    finish_recording label f₃ kept state ((StepHandle.step step).startMarks ++ history)
  have running : kept.ended = false := rfl
  obtain ⟨e, writes₃, outline⟩ := (writes₂.elapse v.ended).finish (lasts v.ended (by simp [Turn.times])) running
    (writes.clocked _) state
  rw [takeTurn_eq, elapse_recording, started]
  dsimp only
  rw [elapse_recording, tag_alone, tagged, elapse_recording, finished]
  refine ⟨?_, e, ⟨rfl, _, rfl, writes₃, ?_, ?_⟩, ?_⟩
  · rw [Turn.reply, sound]
    have parent : (StepHandle.step step).parent? = none := if_pos root
    rw [parent]
    exact congrArg (Reply.started · none) id
  · rw [Flight.finish_current, List.length_append, List.length_singleton]
    exact id
  · rw [Flight.finish_openSteps, if_neg (by exact Bool.false_ne_true)]
    exact ids_of_remove closed
  · have same : e.outline = ⟨f.current + 1, f.openSteps.head, v.name, Tag.listing [("k", v.name)]⟩ := outline
    rw [same, id, root, Turn.listing]
    rfl

/-- Each turn is answered, and leaves its event behind if its name is sound. -/
theorem Idle.takeTurns (idle : s.Idle settings events) (access : Access) (label : String) {turns : List Turn}
    (lasts : ∀ v ∈ turns, ∀ elapsed ∈ v.times, settings.Lasts elapsed) :
    (s.takeTurns access label turns).1 = Turn.replies events.length turns ∧
      ∃ later, (s.takeTurns access label turns).2.Idle settings (events ++ later) ∧
        later.map Event.outline = Turn.outlines events.length turns := by
  induction turns generalizing s events with
  | nil => exact ⟨rfl, [], by rwa [List.append_nil], rfl⟩
  | cons v rest ih =>
    obtain ⟨now, lasts⟩ := List.forall_mem_cons.mp lasts
    rw [Session.takeTurns, Turn.replies_cons, Turn.outlines_cons]
    by_cases sound : v.isSound = true
    · obtain ⟨reply, e, after, outline⟩ := idle.takeTurn_sound access label sound now
      obtain ⟨replies, later, last, outlines⟩ := ih after lasts
      rw [List.length_append, List.length_singleton] at replies outlines
      rw [if_pos sound, if_pos sound]
      refine ⟨?_, e :: later, ?_, ?_⟩
      · exact congrArg₂ List.cons reply replies
      · rw [List.append_assoc, List.singleton_append] at last
        exact last
      · rw [List.map_cons, outline, outlines]
    · obtain ⟨reply, after⟩ := idle.takeTurn_faulty access label sound (events.length + 1)
      obtain ⟨replies, later, last, outlines⟩ := ih after lasts
      rw [if_neg sound, if_neg sound]
      exact ⟨congrArg₂ List.cons reply replies, later, last, outlines⟩

theorem takeTurns_off (turns : List Turn) : takeTurns access label ⟨.off, [], state, history⟩ turns =
    (turns.map fun _ => .started rootId none, ⟨.off, [], state, history⟩) := by
  induction turns with
  | nil => rfl
  | cons v rest ih =>
    rw [takeTurns, takeTurn_off]
    dsimp only
    rw [ih, List.map_cons]

end Session

/-! ## What the variables ask for -/

namespace Startup

/-- The files as the startup leaves them. -/
def files (before : FileSystem) : Startup → FileSystem
  | .off => before
  | .recording f => f.host.files

theorem idle_ofSettings {settings : RecordingSettings} {host : Host} {clock : Clock} {made : FileHandle × FileSystem}
    (regular : host.files.Regular (.ofText settings.filename))
    (created : host.files.create (.ofText settings.filename) = .ok made) (clocked : ∀ n, (clock.reading n).wall.Valid)
    (state : σ) :
    ∃ startup, ofSettings settings host clock = .ok startup ∧ (Session.launch startup state).Idle settings [] := by
  obtain ⟨handle, files⟩ := made
  have opened : LineFile.create settings host.files =
      .ok (⟨.ofText settings.filename, handle, [], settings.window⟩, files) := by
    rw [LineFile.create, created]
  have settled := LineFile.create_settled regular opened
  refine ⟨_, by rw [ofSettings, opened], rfl, _, rfl, ⟨⟨_, rfl, rfl, rfl, settled⟩, clocked, ?_, ?_⟩, rfl, ?_⟩
  · exact List.forall_mem_nil _
  · exact List.forall_mem_nil _
  · exact List.forall_mem_nil _

/-- Without settings nothing is recorded, whatever the names. With settings the steps with sound names are numbered
from one, and their events are what is read from the file, whatever it held before. -/
theorem ofVariables_takeTurns (environment : Variables) (host : Host) (clock : Clock) (access : Access) (label : String)
    (state : σ) (turns : List Turn) :
    (RecordingSettings.Unasked environment →
      ∃ startup, ofVariables environment host clock = .ok startup ∧
        let done := (Session.launch startup state).takeTurns access label turns
        done.1 = turns.map (fun _ => .started rootId none) ∧ done.2.startup.files host.files = host.files) ∧
    ∀ settings made, RecordingSettings.Asked environment settings →
      host.files.Regular (.ofText settings.filename) →
      host.files.create (.ofText settings.filename) = .ok made →
      (∀ v ∈ turns, ∀ elapsed ∈ v.times, settings.Lasts elapsed) →
      (∀ n, (clock.reading n).wall.Valid) →
      ∃ startup, ofVariables environment host clock = .ok startup ∧
        let done := (Session.launch startup state).takeTurns access label turns
        done.1 = Turn.replies 0 turns ∧
        ∃ events, Recording.read (done.2.startup.files host.files) (.ofText settings.filename) = .ok events ∧
          events.map Event.outline = Turn.outlines 0 turns ∧
          ∀ e ∈ events, e.eventName = Event.stepEventName := by
  constructor
  · intro unasked
    refine ⟨.off, ?_, ?_⟩
    · rw [ofVariables, RecordingSettings.ofVariables_of_unasked unasked]
    · rw [Session.launch, Session.takeTurns_off]
      exact ⟨rfl, rfl⟩
  · intro settings made asked regular created lasts clocked
    obtain ⟨startup, launched, idle⟩ := idle_ofSettings regular created clocked state
    refine ⟨startup, ?_, ?_⟩
    · rw [ofVariables, RecordingSettings.ofVariables_of_asked asked]
      exact launched
    · obtain ⟨replies, events, after, outlines⟩ := idle.takeTurns access label lasts
      obtain ⟨_, f, recording, writes, _⟩ := after
      obtain ⟨g, _, path, _, settled⟩ := writes.file
      refine ⟨replies, events, ?_, outlines, ?_⟩
      · rw [recording, files, Recording.read, ← path, settled.read]
        exact Recording.ofBytes_lineBytes writes.dated
      · exact writes.stepped

def asking (value : String) : Variables :=
  ⟨[(Text.Utf8.encode RecordingSettings.variableName.toList, Text.Utf8.encode value.toList)]⟩

/-- Sound names with others between them. -/
def mixed : List Turn :=
  ["app.init", "", "app..init", "app.done"].map fun name => ⟨name, ⟨1⟩, ⟨5000000000⟩, ⟨9999999999⟩⟩

/-- There is a file already, with something in it that is no event. -/
def littered : Host :=
  { Session.bareHost with files := ⟨[], [([Text.Utf8.encode "run.jsonl".toList], .file [0x3F, 0x0A])]⟩ }

theorem mixed_takeTurns :
    (∃ startup, ofVariables (asking " \t") littered (.still Session.newYear) = .ok startup ∧
      let done := (Session.launch startup ()).takeTurns (.shared .own) "step" mixed
      done.1 = mixed.map (fun _ => .started rootId none) ∧ done.2.startup.files littered.files = littered.files) ∧
    ∃ startup, ofVariables (asking " filename = run.jsonl, duration=10s,") littered (.still Session.newYear) =
        .ok startup ∧
      let done := (Session.launch startup ()).takeTurns (.shared .own) "step" mixed
      done.1 = [.started 1 none, .refused .emptyName,
        .refused (.invalidName "app..init" "empty namespace segment"), .started 2 none] ∧
      ∃ events, Recording.read (done.2.startup.files littered.files) (.ofText "run.jsonl") = .ok events ∧
        events.map Event.outline = [⟨1, 0, "app.init", "[k=app.init]"⟩, ⟨2, 0, "app.done", "[k=app.done]"⟩] ∧
        ∀ e ∈ events, e.eventName = Event.stepEventName := by
  constructor
  · refine (ofVariables_takeTurns (asking " \t") littered _ _ _ () mixed).1 fun bytes found => ?_
    refine ⟨" \t", ?_, by decide +kernel⟩
    have held : (asking " \t").value? RecordingSettings.variableName = some (Text.Utf8.encode " \t".toList) := by
      decide +kernel
    obtain rfl := Option.some.inj (held.symm.trans found)
    decide +kernel
  · have asked : RecordingSettings.Asked (asking " filename = run.jsonl, duration=10s,")
        ⟨"run.jsonl", some (.ofSeconds 10)⟩ :=
      ⟨_, " filename = run.jsonl, duration=10s,", rfl, by decide +kernel, by decide +kernel⟩
    have found : littered.files.find (.ofText "run.jsonl") = .ok (.file [0x3F, 0x0A]) := by decide +kernel
    have regular : littered.files.Regular (.ofText "run.jsonl") :=
      fun node same => ⟨_, Except.ok.inj (same.symm.trans found)⟩
    have created : littered.files.create (.ofText "run.jsonl") =
        .ok (⟨[Text.Utf8.encode "run.jsonl".toList], 0⟩,
          ⟨[], [([Text.Utf8.encode "run.jsonl".toList], .file [])]⟩) := by decide +kernel
    have lasts : ∀ v ∈ mixed, ∀ elapsed ∈ v.times,
        RecordingSettings.Lasts ⟨"run.jsonl", some (.ofSeconds 10)⟩ elapsed := by
      decide +kernel
    have clocked (n : Nat) : ((Clock.still Session.newYear).reading n).wall.Valid := by
      show Session.newYear.Valid
      decide
    obtain ⟨startup, launched, replies, events, content, outlines, stepped⟩ :=
      (ofVariables_takeTurns (asking " filename = run.jsonl, duration=10s,") littered _ (.shared .own) "step" ()
        mixed).2 _ _ asked regular created lasts clocked
    exact ⟨startup, launched, replies, events, content, outlines, stepped⟩

end Startup
end LaunchTrace
