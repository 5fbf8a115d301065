import LaunchTrace.Proofs.Recording.RoundTrip

/-! An event on its way through a fanout. However deep fanouts are nested, it passes their sinks from left to right: it
is handed once to every sink that is recording, as far as the first that panics. -/
namespace LaunchTrace

namespace Commit

def error? : Commit → Option RecordingError
  | .failed error => some error
  | _ => none

def panic? : Commit → Option String
  | .panicked message => some message
  | _ => none

/-- The outcome of what comes behind a first error, if there was one. -/
def after (first : Option RecordingError) : Commit → Commit
  | .panicked message => .panicked message
  | .failed error => .failed (first.getD error)
  | .done => ofFirst first

variable {first second : Option RecordingError} {c : Commit}

@[simp] theorem after_none (c : Commit) : c.after none = c := by
  cases c <;> rfl

theorem after_after (first second : Option RecordingError) (c : Commit) :
    (c.after second).after first = c.after (first <|> second) := by
  cases c <;> cases second <;> cases first <;> rfl

theorem panic?_after (first : Option RecordingError) (c : Commit) : (c.after first).panic? = c.panic? := by
  cases c <;> cases first <;> rfl

theorem error?_after (unharmed : c.panic? = none) : (c.after first).error? = (first <|> c.error?) := by
  cases c with
  | panicked message => contradiction
  | failed error | done => cases first <;> rfl

end Commit

/-! ## Sinks in a row -/

/-- What has become of some sinks and of their host, and how it went. -/
structure Passage where
  sinks : List Sink
  host : Host
  outcome : Commit

namespace Passage

/-- The passage together with the sinks and the first error before it. -/
def behind (front : List Sink) (first : Option RecordingError) (p : Passage) : Passage :=
  ⟨front ++ p.sinks, p.host, p.outcome.after first⟩

/-- Goes on to more sinks, unless there was a panic. -/
def goOn (p : Passage) (more : List Sink) (next : Host → Passage) : Passage :=
  match p.outcome.panic? with
  | some message => ⟨p.sinks ++ more, p.host, .panicked message⟩
  | none => (next p.host).behind p.sinks p.outcome.error?

variable {p : Passage} {message : String} {first second : Option RecordingError} {front back : List Sink}

@[simp] theorem behind_nil (p : Passage) : p.behind [] none = p := by
  rw [behind, List.nil_append, Commit.after_none]

theorem behind_behind (p : Passage) : (p.behind back second).behind front first =
    p.behind (front ++ back) (first <|> second) := by
  rw [behind, behind, behind, Commit.after_after, List.append_assoc]

theorem goOn_of_panic (harmed : p.outcome.panic? = some message) (more : List Sink) (next : Host → Passage) :
    p.goOn more next = ⟨p.sinks ++ more, p.host, .panicked message⟩ := by
  rw [goOn, harmed]

theorem goOn_of_unharmed (unharmed : p.outcome.panic? = none) (more : List Sink) (next : Host → Passage) :
    p.goOn more next = (next p.host).behind p.sinks p.outcome.error? := by
  rw [goOn, unharmed]

theorem behind_goOn (p : Passage) (front : List Sink) (first : Option RecordingError) (more : List Sink)
    (next : Host → Passage) : (p.behind front first).goOn more next = (p.goOn more next).behind front first := by
  cases later : p.outcome.panic? with
  | some message =>
    rw [goOn_of_panic later, goOn_of_panic ((Commit.panic?_after _ _).trans later), behind, behind, List.append_assoc]
    rfl
  | none =>
    have error : (p.behind front first).outcome.error? = (first <|> p.outcome.error?) := Commit.error?_after later
    rw [goOn_of_unharmed later, goOn_of_unharmed ((Commit.panic?_after _ _).trans later), behind_behind, error]
    rfl

theorem goOn_assoc (p : Passage) (more others : List Sink) (next last : Host → Passage) :
    (p.goOn more next).goOn others last = p.goOn (more ++ others) fun host => (next host).goOn others last := by
  cases harmed : p.outcome.panic? with
  | some message => rw [goOn_of_panic harmed, goOn_of_panic harmed, goOn_of_panic rfl, List.append_assoc]
  | none => rw [goOn_of_unharmed harmed, goOn_of_unharmed harmed, behind_goOn]

end Passage

namespace Sink

/-- Hands an event to a sink if it is recording. -/
def offer (e : Event) (host : Host) (s : Sink) : Passage :=
  match s.isRecording host with
  | .error message => ⟨[s], host, .panicked message⟩
  | .ok false => ⟨[s], host, .done⟩
  | .ok true => ⟨[(s.commit e host).1], (s.commit e host).2.1, (s.commit e host).2.2⟩

/-- An event passes sinks that stand in a row. -/
def offerEach (e : Event) (host : Host) : List Sink → Passage
  | [] => ⟨[], host, .done⟩
  | s :: rest => (s.offer e host).goOn rest fun host => offerEach e host rest

variable {e : Event} {host : Host} {s : Sink} {message : String}

theorem offer_faulty (asked : s.isRecording host = .error message) :
    s.offer e host = ⟨[s], host, .panicked message⟩ := by
  rw [offer, asked]

theorem offer_refused (asked : s.isRecording host = .ok false) : s.offer e host = ⟨[s], host, .done⟩ := by
  rw [offer, asked]

theorem offer_recording (asked : s.isRecording host = .ok true) :
    s.offer e host = ⟨[(s.commit e host).1], (s.commit e host).2.1, (s.commit e host).2.2⟩ := by
  rw [offer, asked]

theorem offerEach_append (e : Event) (host : Host) (first second : List Sink) :
    offerEach e host (first ++ second) = (offerEach e host first).goOn second fun host => offerEach e host second := by
  induction first generalizing host with
  | nil => rw [List.nil_append, offerEach, Passage.goOn_of_unharmed rfl]; exact (Passage.behind_nil _).symm
  | cons s rest ih => simp only [List.cons_append, offerEach, Passage.goOn_assoc, ih]

theorem offerEach_singleton (e : Event) (host : Host) (s : Sink) : offerEach e host [s] = s.offer e host := by
  cases asked : s.isRecording host with
  | error message => rw [offerEach, offer_faulty asked, Passage.goOn_of_panic rfl, List.append_nil]
  | ok recording =>
    cases recording with
    | false =>
      rw [offerEach, offer_refused asked, Passage.goOn_of_unharmed rfl, offerEach]
      rfl
    | true =>
      rw [offerEach, offer_recording asked]
      cases outcome : (s.commit e host).2.2 with
      | done | failed error | panicked message => rfl

/-- What the answer of sinks that stand in a row tells of an event. If none of them wants it, they stay as they are. -/
def Foretold (e : Event) (host : Host) (row : List Sink) : Except String Bool → Prop
  | .error message => offerEach e host row = ⟨row, host, .panicked message⟩
  | .ok false => offerEach e host row = ⟨row, host, .done⟩
  | .ok true => True

theorem foretold_singleton (e : Event) (host : Host) (s : Sink) : Foretold e host [s] (s.isRecording host) := by
  cases asked : s.isRecording host with
  | error message => exact (offerEach_singleton e host s).trans (offer_faulty asked)
  | ok recording =>
    cases recording with
    | false => exact (offerEach_singleton e host s).trans (offer_refused asked)
    | true => trivial

variable {front back : List Sink} {answer : Except String Bool}

theorem foretold_panic (told : Foretold e host front (.error message)) (back : List Sink) :
    Foretold e host (front ++ back) (.error message) := by
  rw [Foretold] at told
  rw [Foretold, offerEach_append, told, Passage.goOn_of_panic rfl]

theorem offerEach_skip (told : Foretold e host front (.ok false)) (back : List Sink) :
    offerEach e host (front ++ back) = (offerEach e host back).behind front none := by
  rw [Foretold] at told
  rw [offerEach_append, told, Passage.goOn_of_unharmed rfl]
  rfl

theorem foretold_skip (told : Foretold e host front (.ok false)) (later : Foretold e host back answer) :
    Foretold e host (front ++ back) answer := by
  cases answer with
  | error message =>
    rw [Foretold] at later ⊢
    rw [offerEach_skip told, later]
    rfl
  | ok recording =>
    cases recording with
    | false =>
      rw [Foretold] at later ⊢
      rw [offerEach_skip told, later]
      rfl
    | true => trivial

end Sink

/-! ## Who gets the event -/

namespace Sink

/-- The panic that a sink meets an event with. -/
def panic? (e : Event) (host : Host) (s : Sink) : Option String :=
  match s.isRecording host with
  | .error message => some message
  | .ok false => none
  | .ok true => (s.commit e host).2.2.panic?

/-- Which sinks of a row get an event: those that are recording and have none that panics to their left. -/
def reached (e : Event) (host : Host) (row : List Sink) : List Bool :=
  row.mapIdx fun i s => s.isRecording host = .ok true ∧ ∀ left ∈ row.take i, left.panic? e host = none

/-- Commits an event once to each sink that is marked, from left to right. -/
def commitMarked (e : Event) (host : Host) : List (Sink × Bool) → List Sink × Host × List Commit
  | [] => ([], host, [])
  | (s, false) :: rest =>
    let (sinks, host, outcomes) := commitMarked e host rest
    (s :: sinks, host, outcomes)
  | (s, true) :: rest =>
    let (s, host, outcome) := s.commit e host
    let (sinks, host, outcomes) := commitMarked e host rest
    (s :: sinks, host, outcome :: outcomes)

/-- A panic goes before errors, and the first error before later ones. -/
def verdict (panic : Option String) (outcomes : List Commit) : Commit :=
  match panic with
  | some message => .panicked message
  | none => .ofFirst (outcomes.findSome? Commit.error?)

/-- The way of an event past the sinks of a row. -/
def pass (e : Event) (host : Host) (row : List Sink) : Passage :=
  let (sinks, host', outcomes) := commitMarked e host (row.zip (reached e host row))
  ⟨sinks, host', verdict (row.findSome? (panic? e host)) outcomes⟩

variable {e : Event} {host later : Host} {s : Sink} {rest : List Sink} {message : String}

/-- A commit changes nothing that sinks look at when they are asked. -/
theorem commit_host (e : Event) (host : Host) (s : Sink) :
    (s.commit e host).2.1.switchOn = host.switchOn ∧ (s.commit e host).2.1.elapsed = host.elapsed := by
  cases s with
  | tracing listening => cases listening <;> exact ⟨rfl, rfl⟩
  | lines file =>
    rw [commit]
    split <;> exact ⟨rfl, rfl⟩
  | _ => exact ⟨rfl, rfl⟩

theorem isRecording_congr (s : Sink) (on : later.switchOn = host.switchOn) (elapsed : later.elapsed = host.elapsed) :
    s.isRecording later = s.isRecording host := by
  cases s <;> simp only [isRecording, on, elapsed]

theorem panic?_commit_congr (e : Event) (s : Sink) (first second : Host) :
    (s.commit e first).2.2.panic? = (s.commit e second).2.2.panic? := by
  have lines (file : LineFile) (host : Host) : ((lines file).commit e host).2.2.panic? = none := by
    rw [commit]
    split
    · split
      rename_i error _ _ _
      cases error <;> rfl
    · rfl
  cases s with
  | lines file => rw [lines, lines]
  | _ => rfl

theorem panic?_congr (e : Event) (on : later.switchOn = host.switchOn) (elapsed : later.elapsed = host.elapsed) :
    panic? e later = panic? e host := by
  funext s
  rw [panic?, panic?, isRecording_congr s on elapsed, panic?_commit_congr e s later host]

theorem reached_cons (e : Event) (host : Host) (s : Sink) (rest : List Sink) :
    reached e host (s :: rest) = decide (s.isRecording host = .ok true) ::
      if s.panic? e host = none then reached e host rest else List.replicate rest.length false := by
  have head : reached e host (s :: rest) = decide (s.isRecording host = .ok true) ::
      rest.mapIdx fun i r => decide (r.isRecording host = .ok true ∧
        s.panic? e host = none ∧ ∀ left ∈ rest.take i, left.panic? e host = none) := by
    simp [reached, List.mapIdx_cons]
  rw [head]
  split
  · next unharmed => simp [reached, unharmed]
  · next harmed => simp [harmed, List.mapIdx_eq_replicate_iff]

theorem reached_congr (e : Event) (row : List Sink) (on : later.switchOn = host.switchOn)
    (elapsed : later.elapsed = host.elapsed) : reached e later row = reached e host row := by
  simp only [reached, isRecording_congr _ on elapsed, panic?_congr e on elapsed]

theorem commitMarked_none (e : Event) (host : Host) (row : List Sink) :
    commitMarked e host (row.zip (List.replicate row.length false)) = (row, host, []) := by
  induction row with
  | nil => rfl
  | cons s rest ih => rw [List.length_cons, List.replicate_succ, List.zip_cons_cons, commitMarked, ih]

theorem verdict_cons (panic : Option String) (outcome : Commit) (outcomes : List Commit) :
    verdict panic (outcome :: outcomes) = (verdict panic outcomes).after outcome.error? := by
  cases panic with
  | some message => rfl
  | none =>
    rw [verdict, verdict, List.findSome?_cons]
    cases outcome.error? with
    | none => exact (Commit.after_none _).symm
    | some error => cases outcomes.findSome? Commit.error? <;> rfl

theorem pass_cons (e : Event) (host : Host) (s : Sink) (rest : List Sink) :
    pass e host (s :: rest) = (s.offer e host).goOn rest fun host => pass e host rest := by
  cases asked : s.isRecording host with
  | error message =>
    have panic : s.panic? e host = some message := by rw [panic?, asked]
    rw [offer_faulty asked, Passage.goOn_of_panic rfl]
    simp [pass, reached_cons, asked, panic, commitMarked, commitMarked_none, verdict]
  | ok recording =>
    cases recording with
    | false =>
      have panic : s.panic? e host = none := by rw [panic?, asked]
      rw [offer_refused asked, Passage.goOn_of_unharmed rfl]
      simp [pass, reached_cons, asked, panic, commitMarked, Passage.behind, Commit.error?]
    | true =>
      have panic : s.panic? e host = (s.commit e host).2.2.panic? := by rw [panic?, asked]
      obtain ⟨on, elapsed⟩ := commit_host e host s
      rw [offer_recording asked]
      cases harmed : (s.commit e host).2.2.panic? with
      | some message =>
        rw [Passage.goOn_of_panic harmed]
        simp [pass, reached_cons, asked, panic, harmed, commitMarked, commitMarked_none, verdict]
      | none =>
        rw [Passage.goOn_of_unharmed harmed]
        simp [pass, reached_cons, asked, panic, harmed, commitMarked, verdict_cons, Passage.behind,
          reached_congr e rest on elapsed, panic?_congr e on elapsed]

/-- Handing an event on from sink to sink is passing those that it reaches. -/
theorem offerEach_eq_pass (e : Event) (host : Host) (row : List Sink) : offerEach e host row = pass e host row := by
  induction row generalizing host with
  | nil => rfl
  | cons s rest ih => simp only [offerEach, pass_cons, ih]

end Sink

/-! ## The sinks of a fanout -/

namespace Recorder

variable {e : Event} {host : Host} {first : Option RecordingError}

/-- Lists of recorders are built from sinks and from the children of fanouts. -/
theorem recorders_induction {P : List Recorder → Prop} (nil : P [])
    (sink : ∀ s rest, P rest → P (.sink s :: rest))
    (fanout : ∀ children rest, P children → P rest → P (.fanout children :: rest))
    (children : List Recorder) : P children := by
  refine @Recorder.rec_1 (fun r => ∀ rest, P rest → P (r :: rest)) P ?_ ?_ nil ?_ children
  · exact sink
  · intro children inner rest beside
    exact fanout children rest inner beside
  · intro r rest first beside
    exact first rest beside

theorem foretold_cons (child : Recorder) {rest : List Recorder}
    (told : Sink.Foretold e host child.sinks (child.isRecording host))
    (later : Sink.Foretold e host (sinksEach rest) (anyRecording host rest)) :
    Sink.Foretold e host (sinksEach (child :: rest)) (anyRecording host (child :: rest)) := by
  rw [anyRecording, sinksEach]
  cases asked : child.isRecording host with
  | error message =>
    rw [asked] at told
    exact Sink.foretold_panic told _
  | ok recording =>
    rw [asked] at told
    cases recording with
    | false => exact Sink.foretold_skip told later
    | true => trivial

/-- The answer of a fanout tells what the answers of its sinks tell, though fewer of them may be asked. -/
theorem anyRecording_foretold (e : Event) (host : Host) (children : List Recorder) :
    Sink.Foretold e host (sinksEach children) (anyRecording host children) := by
  induction children using recorders_induction with
  | nil => rfl
  | sink s rest ih => exact foretold_cons (.sink s) (Sink.foretold_singleton e host s) ih
  | fanout children rest inner beside => exact foretold_cons (.fanout children) inner beside

/-- What a commit has made of the sinks of some recorders. -/
def passageEach (result : List Recorder × Host × Commit) : Passage :=
  ⟨sinksEach result.1, result.2.1, result.2.2⟩

theorem passageEach_cons (child : Recorder) (result : List Recorder × Host × Commit) :
    passageEach (child :: result.1, result.2) = (passageEach result).behind child.sinks none := by
  rw [passageEach, passageEach, Passage.behind, Commit.after_none, sinksEach]

/-- A child that is asked and handed the event like its sinks is a part of the row. -/
theorem commitEach_cons (child : Recorder) {rest : List Recorder}
    (told : Sink.Foretold e host child.sinks (child.isRecording host))
    (handed : child.isRecording host = .ok true →
      ⟨(child.commit e host).1.sinks, (child.commit e host).2.1, (child.commit e host).2.2⟩ =
        Sink.offerEach e host child.sinks)
    (later : ∀ first host,
      passageEach (commitEach e first host rest) = (Sink.offerEach e host (sinksEach rest)).behind [] first) :
    passageEach (commitEach e first host (child :: rest)) =
      (Sink.offerEach e host (sinksEach (child :: rest))).behind [] first := by
  rw [commitEach, sinksEach]
  cases asked : child.isRecording host with
  | error message =>
    rw [asked] at told
    rw [Sink.foretold_panic told]
    rfl
  | ok recording =>
    cases recording with
    | false =>
      rw [asked] at told
      rw [Sink.offerEach_skip told]
      show passageEach (child :: (commitEach e first host rest).1, (commitEach e first host rest).2) = _
      rw [passageEach_cons, later, Passage.behind_behind, Passage.behind_behind]
      simp
    | true =>
      rw [Sink.offerEach_append, ← handed asked]
      obtain ⟨after, host, outcome⟩ := child.commit e host
      cases outcome with
      | panicked message =>
        rw [Passage.goOn_of_panic rfl]
        rfl
      | failed error =>
        refine (passageEach_cons after (commitEach e (first <|> some error) host rest)).trans ?_
        rw [Passage.goOn_of_unharmed rfl, later, Passage.behind_behind, Passage.behind_behind, List.append_nil]
        rfl
      | done =>
        refine (passageEach_cons after (commitEach e first host rest)).trans ?_
        rw [Passage.goOn_of_unharmed rfl, later, Passage.behind_behind, Passage.behind_behind, List.append_nil]
        cases first <;> rfl

theorem commitEach_eq (e : Event) (first : Option RecordingError) (host : Host) (children : List Recorder) :
    passageEach (commitEach e first host children) = (Sink.offerEach e host (sinksEach children)).behind [] first := by
  induction children using recorders_induction generalizing first host with
  | nil => rfl
  | sink s rest ih =>
    refine commitEach_cons (.sink s) (Sink.foretold_singleton e host s) (fun asked => ?_) ih
    exact (Sink.offer_recording asked).symm.trans (Sink.offerEach_singleton e host s).symm
  | fanout children rest inner beside =>
    refine commitEach_cons (.fanout children) (anyRecording_foretold e host children) (fun _ => ?_) beside
    exact (inner none host).trans (Passage.behind_nil _)

/-- What a commit has made of the sinks of a recorder. -/
def passage (result : Recorder × Host × Commit) : Passage :=
  ⟨result.1.sinks, result.2.1, result.2.2⟩

/-- A fanout without fanouts in it that has the sinks of the given recorders. -/
def flat (children : List Recorder) : Recorder :=
  .fanout ((sinksEach children).map .sink)

theorem sinksEach_sink (row : List Sink) : sinksEach (row.map .sink) = row := by
  induction row with
  | nil => rfl
  | cons s rest ih => rw [List.map_cons, sinksEach, ih, sinks, List.singleton_append]

theorem passage_fanout (e : Event) (host : Host) (children : List Recorder) :
    passage ((fanout children).commit e host) = Sink.pass e host (sinksEach children) := by
  rw [← Sink.offerEach_eq_pass, ← Passage.behind_nil (Sink.offerEach _ _ _), ← commitEach_eq]
  rfl

theorem commitAll_fanout (children : List Recorder) (elapsed : Duration) (e : Event) (host : Host)
    (rest : List (Duration × Event)) :
    (fanout children).commitAll host ((elapsed, e) :: rest) =
      let done := commitEach e none { host with elapsed } children
      let later := (fanout done.1).commitAll done.2.1 rest
      (done.2.2 :: later.1, later.2) := rfl

/-- Fanouts with the same sinks stay alike for as many events as there are. -/
theorem commitAll_congr {first second : List Recorder} (same : sinksEach first = sinksEach second) (host : Host)
    (timed : List (Duration × Event)) :
    ((fanout first).commitAll host timed).2.1.sinks = ((fanout second).commitAll host timed).2.1.sinks ∧
      ((fanout first).commitAll host timed).2.2 = ((fanout second).commitAll host timed).2.2 ∧
      ((fanout first).commitAll host timed).1 = ((fanout second).commitAll host timed).1 := by
  induction timed generalizing first second host with
  | nil => exact ⟨same, rfl, rfl⟩
  | cons entry rest ih =>
    obtain ⟨elapsed, e⟩ := entry
    have alike : passageEach (commitEach e none { host with elapsed } first) =
        passageEach (commitEach e none { host with elapsed } second) := by
      rw [commitEach_eq, commitEach_eq, same]
    obtain ⟨sinks, after, outcome⟩ := Passage.mk.inj alike
    obtain ⟨last, ended, outcomes⟩ := ih sinks (commitEach e none { host with elapsed } second).2.1
    simp only [commitAll_fanout, after, outcome]
    exact ⟨last, ended, congrArg (List.cons _) outcomes⟩

/-- However fanouts are nested, an event passes their sinks in one row. The flat fanout of these sinks does the same
with it, and with all that come after it. -/
theorem fanout_commit (children : List Recorder) (host : Host) :
    (∀ e, passage ((fanout children).commit e host) = Sink.pass e host (sinksEach children) ∧
      passage ((flat children).commit e host) = Sink.pass e host (sinksEach children)) ∧
    ∀ timed, ((flat children).commitAll host timed).2.1.sinks = ((fanout children).commitAll host timed).2.1.sinks ∧
      ((flat children).commitAll host timed).2.2 = ((fanout children).commitAll host timed).2.2 ∧
      ((flat children).commitAll host timed).1 = ((fanout children).commitAll host timed).1 := by
  have row : sinksEach ((sinksEach children).map sink) = sinksEach children := sinksEach_sink (sinksEach children)
  refine ⟨fun e => ⟨passage_fanout e host children, ?_⟩, fun timed => commitAll_congr row host timed⟩
  rw [flat, passage_fanout, row]

end Recorder
end LaunchTrace
