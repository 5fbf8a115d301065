import LaunchTrace.Proofs.Context.Filling
import LaunchTrace.Proofs.Startup.OpenSteps
import LaunchTrace.Proofs.Startup.Within

/-! What a refresh tells a memory. It ends all steps that it starts, on success and on failure, and their tags say what
became of the context. -/
namespace LaunchTrace

namespace Context

variable {c : Context} {ω : Type} {f g : Flight} {outlines : List Event.Outline} {r : Refresh ω Unit}

/-- Around the phases of a refresh there is one step, whatever comes of them. -/
theorem refreshWith_wrote (created : c.state = .created) {hooks : RefreshHooks ω} {w : ω} {now : Timestamp}
    (ran : { c with startedAt := some now }.runRefresh hooks w (.recording (f.start (σ := Unit) refreshStep).2) =
      (r, .recording g))
    (wrote : (f.start (σ := Unit) refreshStep).2.Wrote g outlines) (fresh : f.current + 1 ≠ rootId) :
    ∃ h, (c.refreshWith hooks w now (.recording f)).2 = .recording h ∧
      f.Wrote h (outlines ++ [⟨f.current + 1, f.openSteps.head, "spring.context.refresh",
        Tag.listing (refreshTags (settle r))⟩]) := by
  rw [refreshWith_of_created created]
  let body := fun s => (settle ({ c with startedAt := some now }.runRefresh hooks w s).1,
    ({ c with startedAt := some now }.runRefresh hooks w s).2)
  have ran : body (.recording (f.start (σ := Unit) refreshStep).2) = (settle r, .recording g) := by
    simp only [body, ran]
  obtain ⟨h, same, wrote⟩ := Startup.within_wrote refreshStep ran wrote fresh [] refreshTags
  exact ⟨h, congrArg Prod.snd same, wrote⟩

end Context

namespace Application

variable {app : Application}

@[simp]
theorem resolve_required (app : Application) (env : Environment) : (app.resolve env).required = env.required := by
  cases app with
  | web w =>
    simp only [resolve, WebContext.initPropertySources]
    split <;> rfl
  | _ => rfl

/-- The hooks of a web context change sources, not what is required. -/
theorem missing_eq (app : Application) :
    (app.resolve app.context.environment).missing =
      app.context.environment.required.filter fun key => ((app.resolve app.context.environment).get? key).isNone := by
  rw [Environment.missing, resolve_required]
  simp [Environment.contains]

/-- They change no definitions, so the names that are removed are those of the context. -/
theorem skippedNames_eq (app : Application) (distinct : app.context.registry.names.Nodup) :
    (app.context.prepared app.resolve app.prepare).skippedNames = app.context.registry.names.filter
      (· ∉ (app.context.prepared app.resolve app.prepare).removeSkipped.registry.names) := by
  have names := app.prepare_names app.context.registry
  rw [← names]
  exact Context.skippedNames_eq (names ▸ distinct)

variable {f : Flight} {events : List Event}

theorem refresh_missing_wrote (created : app.context.state = .created)
    (incomplete : (app.resolve app.context.environment).missing ≠ []) (now : Timestamp)
    (memory : f.recorder = .sink (.memory events)) (fresh : f.current + 1 ≠ rootId) :
    ∃ g, (app.refresh now (.recording f)).2 = .recording g ∧
      f.Wrote g [⟨f.current + 1, f.openSteps.head, "spring.context.refresh",
        Tag.listing [("failure",
          (ContextError.missingRequiredProperties (app.resolve app.context.environment).missing).message)]⟩] := by
  rw [refresh_eq]
  exact Context.refreshWith_wrote created
    (Context.runRefresh_of_missing (c := { app.context with startedAt := some now }) app.hooks_smooth incomplete _)
    (.refl memory) fresh

theorem refresh_complete_wrote (created : app.context.state = .created)
    (complete : (app.resolve app.context.environment).missing = []) (now : Timestamp)
    (memory : f.recorder = .sink (.memory events)) (fresh : f.current + 1 ≠ rootId)
    (more : f.current + 1 + 1 ≠ rootId) :
    ∃ g, (app.refresh now (.recording f)).2 = .recording g ∧
      f.Wrote g [⟨f.current + 1 + 1, f.current + 1, "spring.context.beans.post-process",
          Tag.listing [("skipped", Text.quoteList (app.context.prepared app.resolve app.prepare).skippedNames)]⟩,
        ⟨f.current + 1, f.openSteps.head, "spring.context.refresh",
          Tag.listing [("components",
            toString (app.context.prepared app.resolve app.prepare).removeSkipped.registry.size)]⟩] := by
  rw [refresh_eq]
  have ran := Context.runRefresh_of_complete (c := { app.context with startedAt := some now }) app.hooks_smooth complete
    (.recording (f.start (σ := Unit) Context.refreshStep).2)
  -- The step of the registry lies inside that of the refresh.
  obtain ⟨g, inner, wrote⟩ := Startup.within_wrote (f := (f.start (σ := Unit) Context.refreshStep).2)
    Context.postProcessStep rfl (.refl memory) more [] Context.skippedTags
  rw [inner] at ran
  exact Context.refreshWith_wrote created ran wrote fresh

/-- A refresh leaves the open steps as they were. A memory gets to know the names that were removed and the number of
components, or else why there was no refresh. Names are distinct in a registry after any run of operations. -/
theorem refresh_recorded (app : Application) (created : app.context.state = .created)
    (distinct : app.context.registry.names.Nodup) (now : Timestamp) (memory : f.recorder = .sink (.memory events))
    (few : f.current.toNat + 2 < UInt64.size) :
    let unresolved := app.context.environment.required.filter
      fun key => ((app.resolve app.context.environment).get? key).isNone
    let outcome := (app.refresh now (.recording f)).1.1
    let after := (app.refresh now (.recording f)).1.2.context
    let id := f.current + 1
    ∃ g recorded, (app.refresh now (.recording f)).2 = .recording g ∧
      g.openSteps.snapshot = f.openSteps.snapshot ∧ g.recorder = .sink (.memory (events ++ recorded)) ∧
      (unresolved = [] → outcome = .ok () ∧ after.state = .active ∧ recorded.map (·.outline) = [
        ⟨id + 1, id, "spring.context.beans.post-process", Tag.listing [("skipped",
          Text.quoteList (app.context.registry.names.filter (· ∉ after.registry.names)))]⟩,
        ⟨id, f.openSteps.head, "spring.context.refresh", Tag.listing [("components",
          toString after.registry.size)]⟩]) ∧
      (unresolved ≠ [] → outcome = .error (.missingRequiredProperties unresolved) ∧ after.state = .failed ∧
        after.registry = app.context.registry ∧ recorded.map (·.outline) = [
        ⟨id, f.openSteps.head, "spring.context.refresh", Tag.listing [("failure",
          (ContextError.missingRequiredProperties unresolved).message)]⟩]) := by
  intro unresolved outcome after id
  have fresh : f.current + 1 ≠ rootId := StepId.next_ne_root (Nat.lt_of_succ_lt few)
  have more : f.current + 1 + 1 ≠ rootId := by
    apply StepId.next_ne_root
    rw [StepId.toNat_next (Nat.lt_of_succ_lt few)]
    exact few
  have missing : (app.resolve app.context.environment).missing = unresolved := app.missing_eq
  by_cases complete : unresolved = []
  · rw [complete] at missing
    obtain ⟨g, ran, wrote⟩ := refresh_complete_wrote created missing now memory fresh more
    obtain ⟨recorded, recorder, outlines⟩ := wrote.memory memory
    refine ⟨g, recorded, ran, by rw [wrote.opened], recorder, fun _ => ?_, fun some => absurd complete some⟩
    have done := refresh_of_complete created missing now (.recording f)
    have settled : after = { (app.context.prepared app.resolve app.prepare).removeSkipped with
        startedAt := some now, state := .active } := by
      simp only [after, done, withContext_context]
    refine ⟨congrArg Prod.fst done, by rw [settled], ?_⟩
    rw [outlines, app.skippedNames_eq distinct, settled]
  · have incomplete := missing ▸ complete
    obtain ⟨g, ran, wrote⟩ := refresh_missing_wrote created incomplete now memory fresh
    obtain ⟨recorded, recorder, outlines⟩ := wrote.memory memory
    refine ⟨g, recorded, ran, by rw [wrote.opened], recorder, fun none => absurd none complete, fun _ => ?_⟩
    have done := refresh_of_missing created incomplete now (.recording f)
    rw [missing] at done outlines
    have settled : after = { app.context with
        environment := app.resolve app.context.environment, startedAt := some now, state := .failed } := by
      simp only [after, done, withContext_context]
    exact ⟨congrArg Prod.fst done, by rw [settled], by rw [settled], outlines⟩

/-- A store, and a configuration that asks for a property which nothing sets. -/
def staged (required : List String) : Application :=
  .generic { Context.create "app" ⟨[⟨"defaults", .ofList [("host", "local")]⟩], none, ["default"], required⟩ with
    registry := ⟨[⟨"store", "app.Store", .component, singletonScope, []⟩,
      ⟨"audit", "app.Audit", .configuration, singletonScope, [⟨some .register, .property "audit" none false⟩]⟩],
      [], [], false⟩ }

/-- A flight with one step open. -/
def underWay : Flight :=
  ⟨1, ⟨[1]⟩, .sink (.memory []), Session.bareHost, .still Session.newYear⟩

theorem staged_recorded :
    (∃ g recorded, ((staged ["host"]).refresh Session.newYear (.recording underWay)).2 = .recording g ∧
      g.openSteps.snapshot = [1, 0] ∧ g.recorder = .sink (.memory recorded) ∧ recorded.map (·.outline) =
        [⟨3, 2, "spring.context.beans.post-process", "[skipped=[\"audit\"]]"⟩,
          ⟨2, 1, "spring.context.refresh", "[components=1]"⟩]) ∧
    (∃ g recorded, ((staged ["port", "host", "user"]).refresh Session.newYear (.recording underWay)).2 =
        .recording g ∧
      g.openSteps.snapshot = [1, 0] ∧ g.recorder = .sink (.memory recorded) ∧ recorded.map (·.outline) =
        [⟨2, 1, "spring.context.refresh", "[failure=required properties not found: [\"port\", \"user\"]]"⟩]) := by
  have few : underWay.current.toNat + 2 < UInt64.size := by decide
  constructor
  · obtain ⟨g, recorded, ran, opened, recorder, complete, -⟩ :=
      refresh_recorded (staged ["host"]) rfl (by decide) Session.newYear (f := underWay) rfl few
    obtain ⟨-, -, outlines⟩ := complete (by decide +kernel)
    refine ⟨g, recorded, ran, opened, recorder, outlines.trans ?_⟩
    decide +kernel
  · obtain ⟨g, recorded, ran, opened, recorder, -, missing⟩ :=
      refresh_recorded (staged ["port", "host", "user"]) rfl (by decide) Session.newYear (f := underWay) rfl few
    obtain ⟨-, -, -, outlines⟩ := missing (by decide +kernel)
    refine ⟨g, recorded, ran, opened, recorder, outlines.trans ?_⟩
    decide +kernel

end Application
end LaunchTrace
