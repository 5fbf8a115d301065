import LaunchTrace.Context.Basic
import LaunchTrace.Proofs.Environment.Sources

/-! Environments along a chain of parents, each merged with the next, which is merged already. What an environment
holds in the end are the lists of all, one behind the other, without what was there before. -/
namespace LaunchTrace

variable {env parent p : Environment} {parents front back : List Environment} {name : String}

namespace Environment

theorem appendMissing_eq (own inherited : List String) : appendMissing own inherited = Keyed.overlay id own inherited := by
  rw [← Keyed.foldl_eq_overlay, appendMissing]
  simp only [List.map_id, id]

/-- All that a parent hands down completes a list of the child. -/
theorem merge_eq (env parent : Environment) : env.merge parent = {
    sources := Keyed.overlay (·.name) env.sources parent.sources
    explicitProfiles := env.explicitProfiles.map (Keyed.overlay id · (parent.explicitProfiles.getD []))
    defaultProfiles := Keyed.overlay id env.defaultProfiles parent.defaultProfiles
    required := env.required } := by
  rw [← sources_merge, ← appendMissing_eq, merge]
  congr 1
  cases env.explicitProfiles with
  | none => rfl
  | some own =>
    cases parent.explicitProfiles with
    | none => exact congrArg some (Keyed.overlay_nil own).symm
    | some inherited => exact congrArg some (appendMissing_eq own inherited)

theorem merge_again (env parent : Environment) : (env.merge parent).merge parent = env.merge parent := by
  rw [merge_eq (env.merge parent), merge_eq env]
  simp only [Keyed.overlay_again, Option.map_map, Function.comp_def]

/-- The property in the child's own sources stays. -/
theorem get?_merge (env parent : Environment) (key : String) :
    ∃ later, (env.merge parent).get? key = (env.get? key).or later := by
  rw [get?, sources_merge, Keyed.overlay, List.findSome?_append]
  exact ⟨_, rfl⟩

/-! ## Shadowed sources -/

theorem without_without (env : Environment) (name : String) : (env.without name).without name = env.without name := by
  rw [without, without, List.filter_filter]
  simp only [Bool.and_self]

theorem without_merge (env parent : Environment) (name : String) :
    (env.merge parent).without name = (env.without name).merge (parent.without name) := by
  rw [without, merge_eq, merge_eq]
  dsimp only [without]
  rw [Keyed.overlay_filter fun k => decide (k ≠ name)]

/-- A parent's source whose name the child has does not count. -/
theorem merge_without (known : name ∈ env.names) (parent : Environment) :
    env.merge (parent.without name) = env.merge parent := by
  rw [merge_eq, merge_eq]
  dsimp only [without]
  rw [Keyed.overlay_known known]

/-! ## Chains -/

/-- The environment with what it inherits from the first parent, which inherits from the next, and so on. -/
def under (env : Environment) : List Environment → Environment
  | [] => env
  | parent :: rest => env.merge (parent.under rest)

/-- A list that each merge completes is completed with those of all parents, one behind the other. -/
theorem under_overlay {α κ : Type} [DecidableEq κ] {key : α → κ} {list : Environment → List α}
    (merged : ∀ env parent : Environment, list (env.merge parent) = Keyed.overlay key (list env) (list parent))
    (env : Environment) (parents : List Environment) :
    list (env.under parents) = Keyed.overlay key (list env) (parents.flatMap list) := by
  induction parents generalizing env with
  | nil => exact (Keyed.overlay_nil _).symm
  | cons parent rest ih => rw [under, merged, ih, Keyed.overlay_overlay, List.flatMap_cons]

theorem sources_under (env : Environment) (parents : List Environment) :
    (env.under parents).sources = Keyed.overlay (·.name) env.sources (parents.flatMap (·.sources)) :=
  under_overlay sources_merge env parents

theorem defaultProfiles_under (env : Environment) (parents : List Environment) :
    (env.under parents).defaultProfiles =
      Keyed.overlay id env.defaultProfiles (parents.flatMap (·.defaultProfiles)) :=
  under_overlay (fun _ _ => appendMissing_eq _ _) env parents

theorem required_under (env : Environment) (parents : List Environment) :
    (env.under parents).required = env.required := by
  cases parents <;> rfl

theorem get?_under_of_some {key value : String} (own : env.get? key = some value) (parents : List Environment) :
    (env.under parents).get? key = some value := by
  cases parents with
  | nil => exact own
  | cons parent rest =>
    obtain ⟨later, merged⟩ := get?_merge env (parent.under rest) key
    rw [under, merged, own, Option.some_or]

theorem without_under (env : Environment) (parents : List Environment) (name : String) :
    (env.under parents).without name = (env.without name).under (parents.map (·.without name)) := by
  induction parents generalizing env with
  | nil => rfl
  | cons parent rest ih => rw [under, without_merge, ih, List.map_cons, under]

theorem under_known (known : name ∈ env.names) (parents : List Environment) :
    env.under (parents.map (·.without name)) = env.under parents := by
  cases parents with
  | nil => rfl
  | cons parent rest => rw [List.map_cons, under, ← without_under, merge_without known, under]

/-- Without a source whose name comes earlier in the chain, everything is inherited alike. -/
theorem under_shadowed (shadowed : ∃ earlier ∈ env :: front, name ∈ earlier.names) :
    env.under (front ++ p.without name :: back) = env.under (front ++ p :: back) := by
  have first {env : Environment} (known : name ∈ env.names) (front : List Environment) :
      env.under (front ++ p.without name :: back) = env.under (front ++ p :: back) := by
    rw [← under_known known (front ++ p.without name :: back), ← under_known known (front ++ p :: back),
      List.map_append, List.map_cons, without_without, List.map_append, List.map_cons]
  induction front generalizing env with
  | nil =>
    obtain ⟨earlier, member, known⟩ := shadowed
    rw [List.mem_singleton.mp member] at known
    exact first known []
  | cons f front ih =>
    by_cases known : name ∈ env.names
    · exact first known (f :: front)
    · have later : ∃ earlier ∈ f :: front, name ∈ earlier.names := by
        obtain ⟨earlier, member, shadows⟩ := shadowed
        refine ⟨earlier, (List.mem_cons.mp member).resolve_left ?_, shadows⟩
        rintro rfl
        exact known shadows
      rw [List.cons_append, List.cons_append, under, under, ih later]

end Environment

/-- The context under the first of the others, which is under the next, and so on. Each of the others has a name as an
application. -/
def Context.under (c : Context) : List (Context × String) → Context
  | [] => c
  | (parent, applicationName) :: rest => c.setParent ((parent.under rest).asParent applicationName)

theorem Context.environment_under (c : Context) (parents : List (Context × String)) :
    (c.under parents).environment = c.environment.under (parents.map (·.1.environment)) := by
  induction parents generalizing c with
  | nil => rfl
  | cons first rest ih =>
    rw [under, List.map_cons, Environment.under, ← ih]
    rfl

namespace Environment

/-- The sources of a chain stand in its order, the first of each name, and of them the first that has a key decides it.
What the environment had decided on its own stays so, and a source whose name came earlier makes no difference. Default
profiles that were missing are appended in the order of the chain, required keys are not inherited, and to inherit from
the same parent again changes nothing. Contexts that are hung under one another have such environments. -/
theorem under_inherits (distinct : env.names.Nodup) :
    (env.under parents).sources = Keyed.firsts (·.name) ((env :: parents).flatMap (·.sources)) ∧
      (∀ key, (env.under parents).get? key =
        (Keyed.firsts (·.name) ((env :: parents).flatMap (·.sources))).findSome? (·.properties.get? key)) ∧
      (∀ key value, env.get? key = some value → (env.under parents).get? key = some value) ∧
      (∀ front p back name, parents = front ++ p :: back → (∃ earlier ∈ env :: front, name ∈ earlier.names) →
        env.under (front ++ p.without name :: back) = env.under parents) ∧
      (env.under parents).defaultProfiles = env.defaultProfiles ++
        (Keyed.firsts id (parents.flatMap (·.defaultProfiles))).filter (· ∉ env.defaultProfiles) ∧
      (env.under parents).required = env.required ∧
      (∀ parent rest, parents = parent :: rest →
        (env.under parents).merge (parent.under rest) = env.under parents) ∧
      ∀ (c : Context) (contexts : List (Context × String)), c.environment = env →
        contexts.map (·.1.environment) = parents → (c.under contexts).environment = env.under parents := by
  have sources : (env.under parents).sources = Keyed.firsts (·.name) ((env :: parents).flatMap (·.sources)) := by
    rw [sources_under, Keyed.overlay_eq_firsts distinct, List.flatMap_cons]
  refine ⟨sources, ?_, ?_, ?_, ?_, required_under env parents, ?_, ?_⟩
  · intro key
    rw [get?, sources]
  · intro key value found
    exact get?_under_of_some found parents
  · rintro front p back name rfl shadowed
    exact under_shadowed shadowed
  · rw [defaultProfiles_under, Keyed.overlay]
    simp only [List.map_id, id]
  · rintro parent rest rfl
    exact merge_again env (parent.under rest)
  · rintro c contexts rfl rfl
    exact c.environment_under contexts

/-- A file that hides one further up, and defaults of a team that hide those of the whole site. -/
theorem under_layers :
    let app : Environment := ⟨[⟨"file", .ofList [("port", "80")]⟩], none, ["default"], ["port"]⟩
    let team : Environment := ⟨[⟨"file", .ofList [("port", "1"), ("host", "team")]⟩,
      ⟨"shared", .ofList [("host", "any"), ("mode", "dev")]⟩], none, ["default", "team"], ["host"]⟩
    let site : Environment := ⟨[⟨"shared", .ofList [("mode", "live"), ("user", "all")]⟩,
      ⟨"late", .ofList [("user", "me")]⟩], some ["prod"], ["site", "team"], []⟩
    app.names.Nodup ∧ (app.under [team, site]).names = ["file", "shared", "late"] ∧
      (app.under [team, site]).get? "port" = some "80" ∧ (app.under [team, site]).get? "host" = some "any" ∧
      (app.under [team, site]).get? "user" = some "me" ∧
      app.under [team.without "file", site] = app.under [team, site] ∧
      (app.under [team, site]).defaultProfiles = ["default", "team", "site"] ∧
      (app.under [team, site]).required = ["port"] ∧
      (app.under [team, site]).merge (team.under [site]) = app.under [team, site] := by
  intro app team site
  have distinct : app.names.Nodup := List.nodup_singleton _
  obtain ⟨sources, found, kept, shadowed, profiles, required, again, -⟩ :=
    @under_inherits app [team, site] distinct
  refine ⟨distinct, ?_, kept "port" "80" (by decide +kernel), ?_, ?_, ?_, ?_, required, again team [site] rfl⟩
  · rw [names, sources]
    decide +kernel
  · rw [found]
    decide +kernel
  · rw [found]
    decide +kernel
  · exact shadowed [] team [site] "file" rfl ⟨app, List.mem_singleton_self app, List.mem_singleton_self _⟩
  · rw [profiles]
    decide +kernel

/-! ## Active profiles -/

theorem activeProfiles_merge_of_some {own : List String} (explicit : env.explicitProfiles = some own)
    (parent : Environment) :
    (env.merge parent).activeProfiles = Keyed.overlay id own (parent.explicitProfiles.getD []) := by
  rw [activeProfiles, merge_eq, explicit, Option.map_some]

theorem activeProfiles_merge_of_none (derived : env.explicitProfiles = none) (parent : Environment) :
    (env.merge parent).activeProfiles = (((env.merge parent).get? activeProfilesKey).map splitNames).getD [] := by
  rw [activeProfiles, show (env.merge parent).explicitProfiles = none by rw [merge_eq, derived, Option.map_none]]

/-- What is active stays so, since neither the own profiles nor the own property can be replaced. -/
theorem mem_activeProfiles_merge {profile : String} (active : profile ∈ env.activeProfiles) (parent : Environment) :
    profile ∈ (env.merge parent).activeProfiles := by
  cases explicit : env.explicitProfiles with
  | some own =>
    rw [activeProfiles, explicit] at active
    rw [activeProfiles_merge_of_some explicit]
    exact List.mem_append_left _ active
  | none =>
    rw [activeProfiles, explicit] at active
    obtain ⟨later, merged⟩ := get?_merge env parent activeProfilesKey
    rw [activeProfiles_merge_of_none explicit, merged]
    cases named : env.get? activeProfilesKey with
    | none =>
      rw [named] at active
      contradiction
    | some value =>
      rw [named] at active
      exact active

theorem mem_activeProfiles_merge_of_explicit {own : List String} {profile : String}
    (explicit : env.explicitProfiles = some own) (inherited : profile ∈ parent.explicitProfiles.getD []) :
    profile ∈ (env.merge parent).activeProfiles := by
  rw [activeProfiles_merge_of_some explicit, ← List.map_id (Keyed.overlay _ _ _), Keyed.mem_map_overlay]
  right
  rwa [List.map_id]

/-- Active profiles stay active. Those that have been set for the parent become active where some have been set for the
child too, and otherwise only where the property, which may come from the parent, names them all. -/
theorem activeProfiles_merge (env parent : Environment) :
    (∀ profile ∈ env.activeProfiles, profile ∈ (env.merge parent).activeProfiles) ∧
      ((∀ profile ∈ parent.explicitProfiles.getD [], profile ∈ (env.merge parent).activeProfiles) ↔
        env.explicitProfiles.isSome ∨ ∀ profile ∈ parent.explicitProfiles.getD [],
          profile ∈ (((env.merge parent).get? activeProfilesKey).map splitNames).getD []) ∧
      ∀ (c : Context) (above : ParentContext), c.environment = env → above.environment = parent →
        (c.setParent above).environment.activeProfiles = (env.merge parent).activeProfiles := by
  refine ⟨fun profile active => mem_activeProfiles_merge active parent, ?_, ?_⟩
  · cases explicit : env.explicitProfiles with
    | some own =>
      exact iff_of_true (fun profile inherited => mem_activeProfiles_merge_of_explicit explicit inherited) (.inl rfl)
    | none =>
      rw [activeProfiles_merge_of_none explicit, Option.isSome_none]
      simp
  · rintro c above rfl rfl
    rfl

/-- A profile that has been set for the parent only is lost. -/
theorem activeProfiles_lost :
    ¬ ∀ env parent : Environment,
      (∀ profile ∈ parent.explicitProfiles.getD [], profile ∈ (env.merge parent).activeProfiles) ∧
        ∀ profile ∈ env.activeProfiles, profile ∈ (env.merge parent).activeProfiles := by
  intro claimed
  have inherited := (claimed empty { empty with explicitProfiles := some ["prod"] }).1
  exact absurd (inherited "prod" (List.mem_singleton_self _)) (by decide +kernel)

end Environment
end LaunchTrace
