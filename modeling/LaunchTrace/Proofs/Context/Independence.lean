import LaunchTrace.Context.Operation
import LaunchTrace.Proofs.Step.Name

/-! Contexts do not depend on the startup that they report to. Whatever it records, or fails to record, each operation
has the same result and leaves the same context behind. -/
namespace LaunchTrace

variable {α β : Type}

/-- The startup has no say in the result. -/
def Independent (work : Startup → α × Startup) : Prop :=
  ∀ s t, (work s).1 = (work t).1

theorem Independent.map {work : Startup → α × Startup} (independent : Independent work) (f : α → β) :
    Independent fun s => (f (work s).1, (work s).2) :=
  fun s t => congrArg f (independent s t)

theorem Independent.bind {work : Startup → α × Startup} {next : α → Startup → β × Startup}
    (independent : Independent work) (others : ∀ a, Independent (next a)) :
    Independent fun s => next (work s).1 (work s).2 := by
  intro s t
  dsimp only
  rw [independent s t]
  exact others _ _ _

theorem Independent.within {body : Startup → α × Startup} (independent : Independent body) (name : StepName)
    (before : List (String × String)) (after : α → List (String × String)) :
    Independent fun s => s.within name before body after := by
  intro s t
  exact independent (s.begin (σ := Unit) name).2 (t.begin (σ := Unit) name).2

/-- A sound name is never refused, nor is it a reason to panic. -/
theorem Startup.start_text {σ : Type} (s : Startup) (name : StepName) :
    s.start (σ := σ) name.text = .ok (s.begin name) := by
  cases s with
  | off => rfl
  | recording f =>
    simp only [start, insist, tryStart, StepName.validate_text]
    rfl

namespace Context

variable {ω : Type}

theorem runRefresh_independent (c : Context) (hooks : RefreshHooks ω) (w : ω) :
    Independent (c.runRefresh hooks w) := by
  intro s t
  unfold runRefresh
  split
  · rfl
  · rename_i environment w _
    dsimp only
    split
    · rfl
    · have body : Independent fun s => (postProcess { c with environment } hooks w, s) := fun _ _ => rfl
      have same := body.within postProcessStep [] skippedTags s t
      dsimp only at same
      generalize s.within postProcessStep _ _ _ = first at same ⊢
      generalize t.within postProcessStep _ _ _ = second at same ⊢
      obtain ⟨r, s⟩ := first
      obtain ⟨_, t⟩ := second
      obtain rfl := same
      dsimp only
      split <;> rfl

theorem refreshWith_independent (c : Context) (hooks : RefreshHooks ω) (w : ω) (now : Timestamp) :
    Independent (c.refreshWith hooks w now) := by
  intro s t
  unfold refreshWith
  split
  · rfl
  · rfl
  · rfl
  · exact (((runRefresh_independent _ hooks w).map settle).within refreshStep [] refreshTags) s t

end Context

namespace AnnotatedContext

theorem ofContext_independent (c : Context) : Independent (ofContext c) := by
  have body : Independent fun s => ((⟨c, .short, .empty⟩ : AnnotatedContext), s) := fun _ _ => rfl
  exact body.within createStep [] fun _ => []

theorem register_independent (a : AnnotatedContext) (classes : List ComponentClass) :
    Independent (a.register classes) := by
  intro s t
  unfold register
  split
  · rfl
  · exact Independent.within (fun _ _ => rfl) registerStep _ (fun _ => []) s t

theorem scan_independent (a : AnnotatedContext) (packages : List String) : Independent (a.scan packages) := by
  intro s t
  unfold scan
  split
  · rfl
  · exact Independent.within (fun _ _ => rfl) scanStep _ (fun _ => []) s t

theorem refresh_independent (a : AnnotatedContext) (now : Timestamp) : Independent (a.refresh now) :=
  (Context.refreshWith_independent a.context .none () now).map fun r => (r.outcome, { a with context := r.context })

theorem refreshAfter_independent {work : Startup → (Except ContextError α × AnnotatedContext) × Startup}
    (independent : Independent work) (now : Timestamp) : Independent fun s => refreshAfter now (work s) := by
  have rest (r : Except ContextError α × AnnotatedContext) : Independent fun s => refreshAfter now (r, s) := by
    obtain ⟨outcome, a⟩ := r
    cases outcome with
    | error e => exact fun _ _ => rfl
    | ok result => exact (refresh_independent a now).map fun r => r.1.map fun _ => r.2
  exact independent.bind rest

theorem ofComponents_independent (c : Context) (classes : List ComponentClass) (now : Timestamp) :
    Independent (ofComponents c classes now) :=
  (ofContext_independent c).bind fun a => refreshAfter_independent (a.register_independent classes) now

theorem ofPackages_independent (c : Context) (scanner : Scanner) (packages : List String) (now : Timestamp) :
    Independent (ofPackages c scanner packages now) :=
  (ofContext_independent c).bind fun a =>
    refreshAfter_independent ((a.withScanner scanner).scan_independent packages) now

end AnnotatedContext

namespace Application

variable {ω : Type}

theorem register_independent (app : Application) (g : NameGenerator) (classes : List ComponentClass) :
    Independent (app.register g classes) := by
  cases app with
  | annotated a => exact (a.register_independent classes).map fun r => (r.1.map (·.map some), annotated r.2)
  | _ => exact fun _ _ => rfl

theorem scan_independent (app : Application) (g : NameGenerator) (scanner : Scanner) (packages : List String) :
    Independent (app.scan g scanner packages) := by
  cases app with
  | annotated a => exact (a.scan_independent packages).map fun r => (r.1, annotated r.2)
  | _ => exact fun _ _ => rfl

theorem refresh_independent (app : Application) (now : Timestamp) : Independent (app.refresh now) := by
  cases app with
  | generic c =>
    exact (c.refreshWith_independent .none () now).map fun r => (r.outcome, generic r.context)
  | annotated a => exact (a.refresh_independent now).map fun r => (r.1, annotated r.2)
  | web w =>
    exact (w.context.refreshWith_independent (WebContext.hooks w.servlet) () now).map fun r =>
      (r.outcome, web { w with context := r.context })

theorem refreshWith_independent (app : Application) (hooks : Context.RefreshHooks ω) (w : ω) (now : Timestamp) :
    Independent (app.refreshWith hooks w now) :=
  (app.context.refreshWith_independent hooks w now).map fun r => (r.outcome, app.withContext r.context, r.hooks)

theorem apply_independent (app : Application) (w : ω) (op : ContextOperation ω) :
    Independent fun s => app.apply w s op := by
  cases op with
  | register g classes =>
    exact (app.register_independent g classes).map fun r => (ContextReply.registered r.1, r.2, w)
  | scan g scanner packages =>
    exact (app.scan_independent g scanner packages).map fun r => (ContextReply.scanned r.1, r.2, w)
  | refresh now => exact (app.refresh_independent now).map fun r => (ContextReply.finished r.1, r.2, w)
  | refreshWith hooks now =>
    exact (app.refreshWith_independent hooks w now).map fun r => (ContextReply.finished r.1, r.2.1, r.2.2)
  | _ => exact fun _ _ => rfl

/-- Operations give the same replies, and leave the same context, whatever startup they are reported to. So does the
making of a context, and no step that it reports is refused for its name. -/
theorem run_independent (app : Application) (w : ω) (ops : List (ContextOperation ω)) (s t : Startup) :
    (app.run w s ops).1 = (app.run w t ops).1 ∧
      (∀ c, (AnnotatedContext.ofContext c s).1 = (AnnotatedContext.ofContext c t).1) ∧
      (∀ c classes now, (AnnotatedContext.ofComponents c classes now s).1 =
        (AnnotatedContext.ofComponents c classes now t).1) ∧
      (∀ c scanner packages now, (AnnotatedContext.ofPackages c scanner packages now s).1 =
        (AnnotatedContext.ofPackages c scanner packages now t).1) ∧
      (∀ name : StepName, s.start (σ := Unit) name.text = .ok (s.begin name)) := by
  refine ⟨?_, fun c => AnnotatedContext.ofContext_independent c s t,
    fun c classes now => AnnotatedContext.ofComponents_independent c classes now s t,
    fun c scanner packages now => AnnotatedContext.ofPackages_independent c scanner packages now s t,
    fun name => s.start_text name⟩
  induction ops generalizing app w s t with
  | nil => rfl
  | cons op ops ih =>
    have first := app.apply_independent w op
    have rest (r : ContextReply × Application × ω) :
        Independent fun s => ((r.1 :: (r.2.1.run r.2.2 s ops).1.1, (r.2.1.run r.2.2 s ops).1.2),
          (r.2.1.run r.2.2 s ops).2) :=
      fun s t => congrArg (fun done : List ContextReply × Application × ω => (r.1 :: done.1, done.2))
        (ih r.2.1 r.2.2 s t)
    exact first.bind rest s t

end Application
end LaunchTrace
