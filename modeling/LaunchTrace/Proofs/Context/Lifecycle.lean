import LaunchTrace.Proofs.Context.Filling

/-! The life of a context. It is created, becomes active or failed by its first refresh, and is closed in the end; a
refresh out of turn and a registration after the end are refused and leave no trace. -/
namespace LaunchTrace

namespace Context

variable {c : Context} {ω : Type}

/-- A refresh works on the environment and the registry, however far it gets. -/
theorem runRefresh_frame (c : Context) (hooks : RefreshHooks ω) (w : ω) (s : Startup) :
    ∃ environment registry, (c.runRefresh hooks w s).1.context = { c with environment, registry } := by
  have worked (c : Context) (w : ω) : ∃ registry, (c.postProcess hooks w).context = { c with registry } := by
    unfold postProcess
    split
    · exact ⟨_, rfl⟩
    · exact ⟨_, rfl⟩
  unfold runRefresh
  split
  · exact ⟨_, _, rfl⟩
  · rename_i environment w _
    dsimp only
    split
    · exact ⟨_, _, rfl⟩
    · obtain ⟨registry, same⟩ := worked { c with environment } w
      rw [Startup.within_fst]
      dsimp only
      split
      · exact ⟨_, _, same⟩
      · exact ⟨_, _, same⟩

/-- The state that a refresh of a created context ends in, by what it returns. -/
def settledState : Except ContextError Unit → ContextState
  | .ok () => .active
  | .error _ => .failed

theorem settle_eq (r : Refresh ω Unit) :
    settle r = { r with context := { r.context with state := settledState r.outcome } } := by
  unfold settle
  cases r.outcome with
  | ok _ => rfl
  | error _ => rfl

theorem refreshWith_created (created : c.state = .created) (hooks : RefreshHooks ω) (w : ω) (now : Timestamp)
    (s : Startup) :
    ∃ environment registry, (c.refreshWith hooks w now s).1.context =
      { c with environment, registry, startedAt := some now,
               state := settledState (c.refreshWith hooks w now s).1.outcome } := by
  obtain ⟨environment, registry, same⟩ :=
    runRefresh_frame { c with startedAt := some now } hooks w (s.begin (σ := Unit) refreshStep).2
  refine ⟨environment, registry, ?_⟩
  rw [refreshWith_of_created created, Startup.within_fst]
  dsimp only
  rw [settle_eq, same]

end Context

/-- Why a context in the state is not refreshed. -/
def ContextState.refusal? : ContextState → Option ContextError
  | .created => none
  | .active | .failed => some .alreadyRefreshed
  | .closed => some .closed

theorem Context.refreshWith_refused {c : Context} {ω : Type} {e : ContextError} (refused : c.state.refusal? = some e)
    (hooks : RefreshHooks ω) (w : ω) (now : Timestamp) (s : Startup) :
    c.refreshWith hooks w now s = (⟨.error e, c, w⟩, s) := by
  unfold refreshWith
  cases state : c.state <;> rw [state] at refused <;> cases refused <;> rfl

/-- Why an operation failed. -/
def ContextReply.error? : ContextReply → Option ContextError
  | .finished (.error e) | .registered (.error e) | .named (.error e) | .scanned (.error e) => some e
  | _ => none

/-- The state that a refresh leaves behind. -/
def ContextReply.settled (r : ContextReply) : ContextState :=
  match r.error? with
  | none => .active
  | some _ => .failed

namespace ContextOperation

variable {ω : Type}

/-- The time of a refresh. -/
def refreshTime? : ContextOperation ω → Option Timestamp
  | .refresh now | .refreshWith _ now => some now
  | _ => none

def isClose : ContextOperation ω → Bool
  | .close => true
  | _ => false

/-- The time of the first refresh that comes before the end. -/
def firstRefresh? (ops : List (ContextOperation ω)) : Option Timestamp :=
  (ops.takeWhile (!·.isClose)).findSome? (·.refreshTime?)

/-- Whether the registry is changed behind the back of the context. -/
def changesRegistry : ContextOperation ω → Bool
  | .changeRegistry _ => true
  | _ => false

/-- Whether definitions are registered. -/
def fills : ContextOperation ω → Bool
  | .register .. | .registerComponent .. | .registerDefinition _ | .scan .. => true
  | _ => false

/-- The classes that the operation is to register, as the context would judge the first of them. -/
def offered (app : Application) : ContextOperation ω → List Trial
  | .register g classes => classes.map (trial (app.generator g) app.context.registry)
  | .registerComponent g name cls =>
    [trial (app.generator g) app.context.registry { cls with name := name <|> cls.name }]
  | .scan g scanner packages =>
    ((packages.flatMap (app.scanner scanner).find).filter (!app.context.registry.containsType ·.typeName)).map
      (trial (app.generator g) app.context.registry)
  | _ => []

/-- The state that an operation leads to: only a refresh and the end change it. -/
def stateAfter (state : ContextState) (reply : ContextReply) (op : ContextOperation ω) : ContextState :=
  if op.isClose then .closed
  else if op.refreshTime? ≠ none ∧ state = .created then reply.settled
  else state

variable {op : ContextOperation ω} {ops : List (ContextOperation ω)} {now : Timestamp}

theorem refreshTime?_close (close : op.isClose = true) : op.refreshTime? = none := by
  cases op <;> first | rfl | cases close

theorem firstRefresh?_close (close : op.isClose = true) : firstRefresh? (op :: ops) = none := by
  simp [firstRefresh?, close]

theorem firstRefresh?_refresh (time : op.refreshTime? = some now) : firstRefresh? (op :: ops) = some now := by
  cases op <;> first | cases time; rfl | cases time

theorem firstRefresh?_aside (close : op.isClose = false) (time : op.refreshTime? = none) :
    firstRefresh? (op :: ops) = firstRefresh? ops := by
  simp [firstRefresh?, close, time]

end ContextOperation

/-- One operation on an application that reports to a startup, with all it makes of them. -/
structure Visit (ω : Type) where
  op : ContextOperation ω
  before : Application
  startup : Startup
  reply : ContextReply
  after : Application
  reported : Startup

namespace Visit

variable {ω : Type}

/-- What any operation keeps to, and what it is refused. -/
structure Lawful (v : Visit ω) : Prop where
  moves : v.after.context.state = v.op.stateAfter v.before.context.state v.reply
  dated : v.after.context.startedAt =
    if v.before.context.state = .created then v.op.refreshTime? <|> v.before.context.startedAt
    else v.before.context.startedAt
  refused : ∀ e, v.op.refreshTime? ≠ none → v.before.context.state.refusal? = some e →
    v.reply = .finished (.error e) ∧ v.after = v.before ∧ v.reported = v.startup
  answered : ∀ now, v.op = .refresh now →
    (v.reply.error? = some .alreadyRefreshed ↔ v.before.context.state = .active ∨ v.before.context.state = .failed) ∧
    (v.reply.error? = some .closed ↔ v.before.context.state = .closed)
  sealed : v.before.context.state = .closed → v.op.changesRegistry = false →
    v.after.context.registry.definitions = v.before.context.registry.definitions
  barred : ∀ d, v.op = .registerDefinition d → v.before.context.state = .closed → v.reply.error? = some .closed
  rejects : ∀ passed t rest, v.before.context.state = .closed → v.op.offered v.before = passed ++ t :: rest →
    (∀ p ∈ passed, p.definition.name ≠ "" ∧ ¬ p.Admitted v.before.context.environment) →
    t.definition.name ≠ "" → t.Admitted v.before.context.environment → v.reply.error? = some .closed

/-- A refresh that went well. -/
def isSuccess (v : Visit ω) : Bool :=
  v.op.refreshTime?.isSome && v.reply.error?.isNone

end Visit

namespace Application

variable {ω : Type} {app : Application} {op : ContextOperation ω} {now : Timestamp}

/-- An operation as a visit. -/
def visit (app : Application) (w : ω) (s : Startup) (op : ContextOperation ω) : Visit ω :=
  ⟨op, app, s, (app.apply w s op).1.1, (app.apply w s op).1.2.1, (app.apply w s op).2⟩

def visits (app : Application) (w : ω) (s : Startup) : List (ContextOperation ω) → List (Visit ω)
  | [] => []
  | op :: ops =>
    app.visit w s op :: visits (app.apply w s op).1.2.1 (app.apply w s op).1.2.2 (app.apply w s op).2 ops

/-- Any refresh is one with hooks. -/
theorem apply_refresh (time : op.refreshTime? = some now) (w : ω) (s : Startup) :
    ∃ (α : Type) (hooks : Context.RefreshHooks α) (state : α),
      (app.apply w s op).1.1 = .finished (app.context.refreshWith hooks state now s).1.outcome ∧
      (app.apply w s op).1.2.1 = app.withContext (app.context.refreshWith hooks state now s).1.context ∧
      (app.apply w s op).2 = (app.context.refreshWith hooks state now s).2 := by
  cases op with
  | refresh =>
    obtain rfl := Option.some.inj time
    refine ⟨Unit, app.hooks, (), ?_⟩
    simp [apply, refresh_eq]
  | refreshWith hooks =>
    obtain rfl := Option.some.inj time
    exact ⟨ω, hooks, w, rfl, rfl, rfl⟩
  | _ => cases time

theorem apply_filled (fills : op.fills = true) (w : ω) (s : Startup) :
    Context.Filled app.context (app.apply w s op).1.2.1.context := by
  cases op with
  | register g classes =>
    simp only [apply, register_after, withContext_context]
    exact Context.registerEach_filled _ _ _
  | registerComponent g name cls =>
    simp only [apply, registerComponent_eq]
    split
    · exact .refl _
    · rename_i registered
      rw [withContext_context]
      exact Context.registerClass_filled registered
  | registerDefinition d =>
    simp only [apply, registerDefinition]
    split
    · exact .refl _
    · rename_i registered
      rw [withContext_context]
      exact Context.registerDefinition_filled registered
  | scan g scanner packages =>
    simp only [apply, scan_after, withContext_context]
    exact Context.scan_filled _ _ _ _
  | _ => cases fills

/-- Beside registration, refreshes and the end, only the registry is open to changes. -/
theorem apply_apart (fills : op.fills = false) (time : op.refreshTime? = none) (close : op.isClose = false) (w : ω)
    (s : Startup) :
    (app.apply w s op).1.2.1.context.state = app.context.state ∧
      (app.apply w s op).1.2.1.context.startedAt = app.context.startedAt ∧
      (op.changesRegistry = false →
        (app.apply w s op).1.2.1.context.registry.definitions = app.context.registry.definitions) := by
  cases op with
  | register | registerComponent | registerDefinition | scan => cases fills
  | refresh | refreshWith => cases time
  | close => cases close
  | changeRegistry change =>
    simp only [apply, withContext_context, true_and]
    rintro ⟨⟩
  | setGenerator g =>
    cases app with
    | annotated a => exact ⟨rfl, rfl, fun _ => Registry.registerSingleton_definitions ..⟩
    | _ => exact ⟨rfl, rfl, fun _ => rfl⟩
  | setScanner | setServlet => cases app <;> exact ⟨rfl, rfl, fun _ => rfl⟩
  | setParent | setId | changeEnvironment | meanwhile => cases app <;> exact ⟨rfl, rfl, fun _ => rfl⟩

theorem apply_aside (time : op.refreshTime? = none) (close : op.isClose = false) (w : ω) (s : Startup) :
    (app.apply w s op).1.2.1.context.state = app.context.state ∧
      (app.apply w s op).1.2.1.context.startedAt = app.context.startedAt ∧
      (app.context.state = .closed → op.changesRegistry = false →
        (app.apply w s op).1.2.1.context.registry.definitions = app.context.registry.definitions) := by
  cases fills : op.fills with
  | true =>
    have filled := app.apply_filled fills w s
    exact ⟨filled.state, filled.startedAt, fun closed _ => by rw [filled.shut closed]⟩
  | false =>
    obtain ⟨state, startedAt, kept⟩ := apply_apart fills time close w s
    exact ⟨state, startedAt, fun _ => kept⟩

theorem apply_close (close : op.isClose = true) (w : ω) (s : Startup) :
    (app.apply w s op).1.2.1.context = app.context.close := by
  cases op with
  | close => simp only [apply, Application.close, withContext_context]
  | _ => cases close

theorem apply_refused {e : ContextError} (time : op.refreshTime? = some now)
    (refused : app.context.state.refusal? = some e) (w : ω) (s : Startup) :
    (app.apply w s op).1.1 = .finished (.error e) ∧ (app.apply w s op).1.2.1 = app ∧ (app.apply w s op).2 = s := by
  obtain ⟨α, hooks, state, reply, after, reported⟩ := app.apply_refresh time w s
  rw [reply, after, reported, Context.refreshWith_refused refused, withContext_self]
  exact ⟨rfl, rfl, rfl⟩

theorem apply_created (time : op.refreshTime? = some now) (created : app.context.state = .created) (w : ω)
    (s : Startup) :
    (app.apply w s op).1.2.1.context.startedAt = some now ∧
      (app.apply w s op).1.2.1.context.state = (app.apply w s op).1.1.settled := by
  obtain ⟨α, hooks, state, reply, after, _⟩ := app.apply_refresh time w s
  obtain ⟨environment, registry, same⟩ := Context.refreshWith_created created hooks state now s
  rw [reply, after, withContext_context, same]
  cases (app.context.refreshWith hooks state now s).1.outcome with
  | ok _ => exact ⟨rfl, rfl⟩
  | error _ => exact ⟨rfl, rfl⟩

@[simp]
theorem refusal?_eq_none {state : ContextState} : state.refusal? = none ↔ state = .created := by
  cases state <;> simp [ContextState.refusal?]

/-- The hooks of the application's own never refuse a refresh for the state. -/
theorem refresh_answer (created : app.context.state = .created) (w : ω) (s : Startup) :
    (app.apply w s (.refresh now)).1.1.error? ≠ some .alreadyRefreshed ∧
      (app.apply w s (.refresh now)).1.1.error? ≠ some .closed := by
  by_cases complete : (app.resolve app.context.environment).missing = []
  · simp [apply, refresh_of_complete created complete, ContextReply.error?]
  · simp [apply, refresh_of_missing created complete, ContextReply.error?]

theorem apply_rejects {passed rest : List Trial} {t : Trial} (closed : app.context.state = .closed)
    (offered : op.offered app = passed ++ t :: rest)
    (others : ∀ p ∈ passed, p.definition.name ≠ "" ∧ ¬ p.Admitted app.context.environment)
    (named : t.definition.name ≠ "") (admitted : t.Admitted app.context.environment) (w : ω) (s : Startup) :
    (app.apply w s op).1.1.error? = some .closed := by
  cases op with
  | register g classes =>
    have refused := Context.registerEach_closed closed offered others named admitted
    simp only [apply, register_error refused, ContextReply.error?]
  | registerComponent g name cls =>
    cases passed with
    | nil =>
      obtain ⟨rfl, _⟩ := List.cons.inj offered
      simp only [apply, registerComponent_eq, Context.registerClass_closed closed named admitted, ContextReply.error?]
    | cons p passed => simp [ContextOperation.offered] at offered
  | scan g scanner packages =>
    have refused := Context.registerEach_closed closed offered others named admitted
    have refused : (Context.registerNew (app.generator g) (packages.flatMap (app.scanner scanner).find)
        app.context).1 = .error .closed := by
      rw [Context.registerNew_closed closed, refused]
      rfl
    simp only [apply, scan_error refused, ContextReply.error?]
  | _ => simp [ContextOperation.offered] at offered

theorem visit_lawful (app : Application) (w : ω) (s : Startup) (op : ContextOperation ω) :
    (app.visit w s op).Lawful where
  moves := by
    unfold ContextOperation.stateAfter
    cases close : op.isClose with
    | true => simp [visit, close, apply_close close, Context.close]
    | false =>
      cases time : op.refreshTime? with
      | none => simp [visit, close, time, (app.apply_aside time close w s).1]
      | some now =>
        by_cases created : app.context.state = .created
        · simp [visit, close, time, created, (apply_created time created w s).2]
        · obtain ⟨e, refused⟩ := Option.ne_none_iff_exists'.mp (refusal?_eq_none.not.mpr created)
          simp [visit, close, time, created, (apply_refused time refused w s).2.1]
  dated := by
    cases time : op.refreshTime? with
    | none =>
      cases close : op.isClose with
      | true => simp [visit, time, apply_close close, Context.close]
      | false => simp [visit, time, (app.apply_aside time close w s).2.1]
    | some now =>
      by_cases created : app.context.state = .created
      · simp [visit, time, created, (apply_created time created w s).1]
      · obtain ⟨e, refused⟩ := Option.ne_none_iff_exists'.mp (refusal?_eq_none.not.mpr created)
        simp [visit, created, (apply_refused time refused w s).2.1]
  refused := by
    intro e refresh refused
    obtain ⟨now, time⟩ := Option.ne_none_iff_exists'.mp refresh
    exact apply_refused time refused w s
  answered := by
    rintro now rfl
    simp only [visit]
    cases state : app.context.state with
    | created => simpa using app.refresh_answer state w s
    | _ =>
      have time : (ContextOperation.refresh now : ContextOperation ω).refreshTime? = some now := rfl
      obtain ⟨reply, -⟩ := apply_refused time (congrArg ContextState.refusal? state) w s
      simp [reply, ContextReply.error?]
  sealed := by
    intro closed kept
    cases time : op.refreshTime? with
    | none =>
      cases close : op.isClose with
      | true => simp [visit, apply_close close, Context.close]
      | false => exact (app.apply_aside time close w s).2.2 closed kept
    | some now =>
      exact congrArg (·.context.registry.definitions)
        (apply_refused time (congrArg ContextState.refusal? closed) w s).2.1
  barred := by
    rintro d rfl closed
    have refused : app.context.registerDefinition d = .error .closed := if_pos closed
    simp [visit, apply, registerDefinition, refused, ContextReply.error?]
  rejects _ _ _ closed offered others named admitted :=
    apply_rejects closed offered others named admitted w s

/-- No state leads back to that of a new context. -/
theorem visit_created {w : ω} {s : Startup} : (app.visit w s op).after.context.state = .created ↔
    app.context.state = .created ∧ op.refreshTime? = none ∧ op.isClose = false := by
  rw [(app.visit_lawful w s op).moves, visit, ContextOperation.stateAfter, ContextReply.settled]
  by_cases close : op.isClose = true
  · simp [close]
  · by_cases refresh : op.refreshTime? ≠ none ∧ app.context.state = .created
    · rw [if_neg close, if_pos refresh]
      split <;> simp [refresh.1]
    · rw [if_neg close, if_neg refresh]
      constructor
      · intro created
        refine ⟨created, ?_, by simpa using close⟩
        by_contra timed
        exact refresh ⟨timed, created⟩
      · exact And.left

theorem visit_closed {w : ω} {s : Startup} (closed : app.context.state = .closed) :
    (app.visit w s op).after.context.state = .closed := by
  rw [(app.visit_lawful w s op).moves]
  simp [visit, ContextOperation.stateAfter, closed]

/-- Only a new context is refreshed. -/
theorem visit_success {w : ω} {s : Startup} (success : (app.visit w s op).isSuccess = true) :
    app.context.state = .created ∧ (app.visit w s op).after.context.state ≠ .created := by
  obtain ⟨timed, well⟩ : op.refreshTime? ≠ none ∧ (app.visit w s op).reply.error? = none := by
    simpa [Visit.isSuccess, visit, Option.isSome_iff_ne_none] using success
  constructor
  · by_contra settled
    obtain ⟨e, refused⟩ := Option.ne_none_iff_exists'.mp (refusal?_eq_none.not.mpr settled)
    rw [((app.visit_lawful w s op).refused e timed refused).1] at well
    cases well
  · intro created
    exact timed (visit_created.mp created).2.1

theorem successes_le (app : Application) (w : ω) (s : Startup) (ops : List (ContextOperation ω)) :
    (app.visits w s ops).countP (·.isSuccess) ≤ if app.context.state = .created then 1 else 0 := by
  induction ops generalizing app w s with
  | nil => simp [visits]
  | cons op ops ih =>
    have later := ih (app.visit w s op).after (app.apply w s op).1.2.2 (app.visit w s op).reported
    rw [visits, List.countP_cons]
    by_cases success : (app.visit w s op).isSuccess = true
    · obtain ⟨created, settled⟩ := visit_success success
      rw [if_neg settled] at later
      simp only [success, created, if_true]
      exact Nat.add_le_add_right later 1
    · rw [if_neg success, Nat.add_zero]
      apply Nat.le_trans later
      by_cases created : (app.visit w s op).after.context.state = .created
      · simp [created, (visit_created.mp created).1]
      · rw [if_neg created]
        exact Nat.zero_le _

theorem run_startedAt (app : Application) (w : ω) (s : Startup) (ops : List (ContextOperation ω)) :
    (app.run w s ops).1.2.1.context.startedAt =
      if app.context.state = .created then ContextOperation.firstRefresh? ops <|> app.context.startedAt
      else app.context.startedAt := by
  induction ops generalizing app w s with
  | nil => simp [run, ContextOperation.firstRefresh?]
  | cons op ops ih =>
    have later := ih (app.visit w s op).after (app.apply w s op).1.2.2 (app.visit w s op).reported
    have dated : (app.visit w s op).after.context.startedAt =
        if app.context.state = .created then op.refreshTime? <|> app.context.startedAt
        else app.context.startedAt := (app.visit_lawful w s op).dated
    refine later.trans ?_
    rw [dated]
    simp only [visit_created]
    by_cases created : app.context.state = .created
    · cases close : op.isClose with
      | true =>
        simp [created, ContextOperation.refreshTime?_close close, ContextOperation.firstRefresh?_close close]
      | false =>
        cases time : op.refreshTime? with
        | some now => simp [created, ContextOperation.firstRefresh?_refresh time]
        | none => simp [created, ContextOperation.firstRefresh?_aside close time]
    · simp [created]

theorem run_closed (closed : app.context.state = .closed) (w : ω) (s : Startup) {ops : List (ContextOperation ω)}
    (kept : ∀ op ∈ ops, op.changesRegistry = false) :
    (app.run w s ops).1.2.1.context.state = .closed ∧
      (app.run w s ops).1.2.1.context.registry.definitions = app.context.registry.definitions := by
  induction ops generalizing app w s with
  | nil => exact ⟨closed, rfl⟩
  | cons op ops ih =>
    obtain ⟨state, definitions⟩ := ih (visit_closed closed) (app.apply w s op).1.2.2 (app.visit w s op).reported
      fun other member => kept other (List.mem_cons_of_mem _ member)
    exact ⟨state, definitions.trans ((app.visit_lawful w s op).sealed closed (kept op List.mem_cons_self))⟩

/-- A run of operations is a list of lawful visits. At most one refresh goes well. The first refresh of a new context
dates it for good, and a context that is closed keeps its definitions. -/
theorem run_lifecycle (app : Application) (w : ω) (s : Startup) (ops : List (ContextOperation ω)) :
    (app.run w s ops).1.1 = (app.visits w s ops).map (·.reply) ∧
      (app.visits w s ops).map (·.op) = ops ∧
      (∀ v ∈ app.visits w s ops, v.Lawful) ∧
      (app.visits w s ops).countP (·.isSuccess) ≤ 1 ∧
      (app.run w s ops).1.2.1.context.startedAt =
        (if app.context.state = .created then ContextOperation.firstRefresh? ops <|> app.context.startedAt
        else app.context.startedAt) ∧
      (app.context.state = .closed → (∀ op ∈ ops, op.changesRegistry = false) →
        (app.run w s ops).1.2.1.context.state = .closed ∧
          (app.run w s ops).1.2.1.context.registry.definitions = app.context.registry.definitions) := by
  refine ⟨?_, ?_, ?_, ?_, app.run_startedAt w s ops, fun closed kept => run_closed closed w s kept⟩
  · induction ops generalizing app w s with
    | nil => rfl
    | cons op ops ih => exact congrArg ((app.visit w s op).reply :: ·) (ih _ _ _)
  · induction ops generalizing app w s with
    | nil => rfl
    | cons op ops ih => exact congrArg (op :: ·) (ih _ _ _)
  · induction ops generalizing app w s with
    | nil => simp [visits]
    | cons op ops ih =>
      rintro v (_ | ⟨_, later⟩)
      · exact app.visit_lawful w s op
      · exact ih _ _ _ v later
  · apply Nat.le_trans (app.successes_le w s ops)
    split
    · exact Nat.le_refl 1
    · exact Nat.zero_le 1

end Application
end LaunchTrace
