import LaunchTrace.Proofs.Context.Lifecycle

/-! The names in a registry are distinct, and stay so whatever is done with a context. -/
namespace LaunchTrace

namespace Context

variable {c : Context} {ω : Type} {hooks : RefreshHooks ω}

/-- Work on the registry that does not use a name twice. -/
def RefreshHooks.KeepDistinct (hooks : RefreshHooks ω) : Prop :=
  ∀ registry w, registry.names.Nodup → (hooks.postProcessRegistry registry w).2.1.names.Nodup

theorem postProcess_distinct (keep : hooks.KeepDistinct) (distinct : c.registry.names.Nodup) (w : ω) :
    (c.postProcess hooks w).context.registry.names.Nodup := by
  have worked := keep c.registry w distinct
  unfold postProcess
  split
  · rename_i post
    rw [post] at worked
    exact worked
  · rename_i post
    rw [post] at worked
    exact worked.sublist (Registry.names_removeAll_sublist _ _)

theorem runRefresh_distinct (keep : hooks.KeepDistinct) (distinct : c.registry.names.Nodup) (w : ω) (s : Startup) :
    (c.runRefresh hooks w s).1.context.registry.names.Nodup := by
  unfold runRefresh
  split
  · exact distinct
  · rename_i environment w _
    dsimp only
    split
    · exact distinct
    · have worked := postProcess_distinct (c := { c with environment }) keep distinct w
      rw [Startup.within_fst]
      dsimp only
      split
      · exact worked
      · exact worked

theorem refreshWith_distinct (keep : hooks.KeepDistinct) (distinct : c.registry.names.Nodup) (w : ω)
    (now : Timestamp) (s : Startup) : (c.refreshWith hooks w now s).1.context.registry.names.Nodup := by
  unfold refreshWith
  split
  · exact distinct
  · exact distinct
  · exact distinct
  · rw [Startup.within_fst]
    dsimp only
    rw [settle_eq]
    exact runRefresh_distinct (c := { c with startedAt := some now }) keep distinct w _

end Context

/-- Nothing that the operation brings along uses a name twice. -/
def ContextOperation.KeepsDistinct {ω : Type} : ContextOperation ω → Prop
  | .changeRegistry change => ∀ registry : Registry, registry.names.Nodup → (change registry).names.Nodup
  | .refreshWith hooks _ => hooks.KeepDistinct
  | _ => True

namespace Application

variable {ω : Type} {app : Application} {op : ContextOperation ω} {ops : List (ContextOperation ω)}

theorem hooks_keepDistinct (app : Application) : app.hooks.KeepDistinct := by
  intro registry w distinct
  rw [app.hooks_smooth.post, prepare_names]
  exact distinct

theorem apply_distinct (keeps : op.KeepsDistinct) (distinct : app.context.registry.names.Nodup) (w : ω)
    (s : Startup) : (app.apply w s op).1.2.1.context.registry.names.Nodup := by
  cases fills : op.fills with
  | true => exact (apply_filled fills w s).distinct distinct
  | false =>
    cases op with
    | refresh now =>
      simp only [apply, refresh_eq, withContext_context]
      exact Context.refreshWith_distinct app.hooks_keepDistinct distinct ..
    | refreshWith hooks now =>
      simp only [apply, refreshWith, withContext_context]
      exact Context.refreshWith_distinct keeps distinct ..
    | changeRegistry change =>
      simp only [apply, withContext_context]
      exact keeps _ distinct
    | close =>
      simp only [apply, close, withContext_context]
      exact distinct
    | _ =>
      rw [Registry.names, (apply_apart fills rfl rfl w s).2.2 rfl]
      exact distinct

/-- Names that are distinct at first are distinct after any operations. -/
theorem run_distinct (keeps : ∀ op ∈ ops, op.KeepsDistinct) (distinct : app.context.registry.names.Nodup) (w : ω)
    (s : Startup) : (app.run w s ops).1.2.1.context.registry.names.Nodup := by
  induction ops generalizing app w s with
  | nil => exact distinct
  | cons op ops ih =>
    exact ih (fun other member => keeps other (List.mem_cons_of_mem _ member))
      (apply_distinct (keeps op List.mem_cons_self) distinct w s) _ _

end Application
end LaunchTrace
