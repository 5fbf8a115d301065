import LaunchTrace.Proofs.Context.Refresh
import LaunchTrace.Proofs.Startup.Handing

/-! What contexts do to the flight that they report to: they hand events to its recorder. A refresh that succeeds has
handed over one at least. -/
namespace LaunchTrace

open Startup

namespace Context

variable {ω : Type}

theorem runRefresh_hands (c : Context) (hooks : RefreshHooks ω) (w : ω) : Hands (c.runRefresh hooks w) := by
  intro f
  unfold runRefresh
  split
  · exact ⟨f, [], rfl, .refl f⟩
  · rename_i environment w _
    dsimp only
    split
    · exact ⟨f, [], rfl, .refl f⟩
    · have body : Hands fun s => (postProcess { c with environment } hooks w, s) := .pure _
      obtain ⟨g, events, ran, handed⟩ := body.within postProcessStep [] skippedTags f
      refine ⟨g, events, ?_, handed⟩
      split <;> exact ran

theorem refreshWith_some {c : Context} (created : c.state = .created) (hooks : RefreshHooks ω) (w : ω)
    (now : Timestamp) (f : Flight) :
    ∃ g events, (c.refreshWith hooks w now (.recording f)).2 = .recording g ∧ f.Handed g events ∧
      (f.Eager → events ≠ []) := by
  rw [refreshWith_of_created created]
  have body := (runRefresh_hands { c with startedAt := some now } hooks w).bind fun r => .pure (settle r)
  exact body.within_some refreshStep [] refreshTags f

end Context

namespace AnnotatedContext

theorem ofContext_hands (c : Context) : Hands (ofContext c) := by
  have body : Hands fun s => ((⟨c, .short, .empty⟩ : AnnotatedContext), s) := .pure _
  exact body.within createStep [] fun _ => []

theorem register_hands (a : AnnotatedContext) (classes : List ComponentClass) : Hands (a.register classes) := by
  unfold register
  split
  · exact .pure _
  · exact (Hands.pure _).within registerStep _ fun _ => []

theorem scan_hands (a : AnnotatedContext) (packages : List String) : Hands (a.scan packages) := by
  unfold scan
  split
  · exact .pure _
  · exact (Hands.pure _).within scanStep _ fun _ => []

end AnnotatedContext

namespace Application

variable {app : Application}

theorem register_hands (app : Application) (g : NameGenerator) (classes : List ComponentClass) :
    Hands (app.register g classes) := by
  cases app with
  | annotated a => exact (a.register_hands classes).bind fun r => .pure (r.1.map (·.map some), annotated r.2)
  | _ => exact .pure _

theorem scan_hands (app : Application) (g : NameGenerator) (scanner : Scanner) (packages : List String) :
    Hands (app.scan g scanner packages) := by
  cases app with
  | annotated a => exact (a.scan_hands packages).bind fun r => .pure (r.1, annotated r.2)
  | _ => exact .pure _

theorem refresh_some (created : app.context.state = .created) (now : Timestamp) (f : Flight) :
    ∃ g events, (app.refresh now (.recording f)).2 = .recording g ∧ f.Handed g events ∧
      (f.Eager → events ≠ []) := by
  rw [refresh_eq]
  exact Context.refreshWith_some created app.hooks () now f

end Application
end LaunchTrace
