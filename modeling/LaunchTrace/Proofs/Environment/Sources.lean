import LaunchTrace.Environment.Basic
import LaunchTrace.Proofs.Overlay

/-! The sources of an environment. Their names stay distinct, so that each operation moves one source and leaves the
order of the others alone, and looking up a property follows what was done. -/
namespace LaunchTrace.Environment

variable {env parent : Environment} {source : PropertySource} {name : String}

def names (env : Environment) : List String :=
  env.sources.map (·.name)

/-- The environment as if there had never been a source with the name. -/
def without (env : Environment) (name : String) : Environment :=
  { env with sources := env.sources.filter (·.name ≠ name) }

theorem names_without (env : Environment) (name : String) : (env.without name).names = env.names.filter (· ≠ name) := by
  rw [names, names, without, List.filter_map]
  rfl

theorem without_absent (absent : name ∉ env.names) : env.without name = env := by
  rw [without, Keyed.filter_absent absent]

theorem remove_eq (distinct : env.names.Nodup) (name : String) : env.remove name = env.without name := by
  rw [remove, Keyed.eraseP_eq_filter distinct, without]

/-! ## Looking up -/

theorem addFirst_sources (distinct : env.names.Nodup) (source : PropertySource) :
    env.addFirst source = { env with sources := source :: (env.without source.name).sources } := by
  rw [addFirst, remove_eq distinct]

theorem addLast_sources (distinct : env.names.Nodup) (source : PropertySource) :
    env.addLast source = { env with sources := (env.without source.name).sources ++ [source] } := by
  rw [addLast, remove_eq distinct]

/-- The properties of a first source hide those of all others. -/
theorem get?_addFirst (distinct : env.names.Nodup) (source : PropertySource) (key : String) :
    (env.addFirst source).get? key = (source.properties.get? key).or ((env.without source.name).get? key) := by
  rw [addFirst_sources distinct, get?, get?, List.findSome?_cons]
  cases source.properties.get? key <;> rfl

/-- The properties of a last source only show where no other has them. -/
theorem get?_addLast (distinct : env.names.Nodup) (source : PropertySource) (key : String) :
    (env.addLast source).get? key = ((env.without source.name).get? key).or (source.properties.get? key) := by
  rw [addLast_sources distinct, get?, get?, List.findSome?_append, List.findSome?_singleton]

/-! ## Replacing and removing -/

/-- A source takes the place of the one with its name. -/
theorem replace_known (known : source.name ∈ env.names) (distinct : env.names.Nodup) :
    ∃ before old after, env.sources = before ++ old :: after ∧ old.name = source.name ∧
      env.replace source = (true, { env with sources := before ++ source :: after }) := by
  obtain ⟨before, old, after, sources, same, early, late⟩ := Keyed.split known distinct
  have found : (env.source? source.name).isSome = true := by
    rw [source?, List.find?_isSome]
    exact ⟨old, by simp [sources], by simp [same]⟩
  refine ⟨before, old, after, sources, same, ?_⟩
  rw [replace, found, sources, List.map_append, List.map_cons, Keyed.map_absent early, Keyed.map_absent late,
    if_pos same]

theorem source?_eq_none : env.source? name = none ↔ name ∉ env.names := by
  simp [source?, names, List.find?_eq_none]

theorem replace_unknown (unknown : source.name ∉ env.names) : env.replace source = (false, env) := by
  rw [replace, source?_eq_none.mpr unknown, Keyed.map_absent unknown]
  rfl

theorem names_replace (distinct : env.names.Nodup) (source : PropertySource) :
    (env.replace source).2.names = env.names := by
  by_cases known : source.name ∈ env.names
  · obtain ⟨before, old, after, sources, same, replaced⟩ := replace_known known distinct
    rw [replaced, names, names, sources]
    simp [same]
  · rw [replace_unknown known]

/-- The source with the name leaves the others in their order. -/
theorem take_known (known : name ∈ env.names) (distinct : env.names.Nodup) :
    ∃ before taken after, env.sources = before ++ taken :: after ∧ taken.name = name ∧
      env.take name = (some taken, { env with sources := before ++ after }) := by
  obtain ⟨before, taken, after, sources, same, early, late⟩ := Keyed.split known distinct
  have found : env.source? name = some taken :=
    (Keyed.find?_eq_some distinct).mpr ⟨by simp [sources], same⟩
  have others : env.sources.eraseP (·.name = name) = before ++ after := by
    rw [sources, List.eraseP_append_right, List.eraseP_cons_of_pos (by simpa using same)]
    intro s member
    rw [decide_eq_true_eq]
    rintro rfl
    exact early (List.mem_map_of_mem member)
  exact ⟨before, taken, after, sources, same, by rw [take, found, remove, others]⟩

theorem take_unknown (unknown : name ∉ env.names) : env.take name = (none, env) := by
  rw [take, source?_eq_none.mpr unknown, remove, Keyed.eraseP_absent unknown]

/-! ## Inheriting -/

theorem sources_merge (env parent : Environment) :
    (env.merge parent).sources = Keyed.overlay (·.name) env.sources parent.sources := by
  rw [← Keyed.foldl_eq_overlay, merge]
  have shadowed (own : List PropertySource) (s : PropertySource) :
      own.any (·.name = s.name) = decide (s.name ∈ own.map (·.name)) := by
    simp [List.any_eq]
  simp only [shadowed, decide_eq_true_eq]

/-- Of two sources of the parent with one name the first would be taken over, but there are none. -/
theorem merge_sources (distinct : parent.names.Nodup) :
    (env.merge parent).sources = env.sources ++ parent.sources.filter (·.name ∉ env.names) := by
  rw [sources_merge, Keyed.overlay, Keyed.firsts_of_distinct distinct, names]

/-! ## Distinct names -/

theorem without_distinct (distinct : env.names.Nodup) (name : String) : (env.without name).names.Nodup := by
  rw [names_without]
  exact distinct.filter _

theorem name_notMem_without (env : Environment) (name : String) : name ∉ (env.without name).names := by
  rw [names_without]
  simp

theorem addFirst_distinct (distinct : env.names.Nodup) (source : PropertySource) :
    (env.addFirst source).names.Nodup := by
  rw [addFirst_sources distinct]
  exact List.nodup_cons.mpr ⟨name_notMem_without env source.name, without_distinct distinct source.name⟩

theorem addLast_distinct (distinct : env.names.Nodup) (source : PropertySource) :
    (env.addLast source).names.Nodup := by
  rw [addLast_sources distinct, names, List.map_append, List.map_singleton, ← List.concat_eq_append]
  exact (without_distinct distinct source.name).concat (name_notMem_without env source.name)

theorem merge_distinct (own : env.names.Nodup) (inherited : parent.names.Nodup) : (env.merge parent).names.Nodup := by
  rw [names, merge_sources inherited, List.map_append]
  refine List.nodup_append.mpr ⟨own, inherited.sublist (List.filter_sublist.map _), ?_⟩
  rintro taken member other later rfl
  obtain ⟨s, kept, rfl⟩ := List.mem_map.mp later
  obtain ⟨_, free⟩ := List.mem_filter.mp kept
  exact of_decide_eq_true free member

/-- Environments that are made from scratch by any operations on sources, with parents that are made so too. -/
inductive Built : Environment → Prop
  | empty : Built .empty
  | standard (v : Variables) : Built (.standard v)
  | servlet (v : Variables) : Built (.servlet v)
  | addFirst {env : Environment} (built : Built env) (source : PropertySource) : Built (env.addFirst source)
  | addLast {env : Environment} (built : Built env) (source : PropertySource) : Built (env.addLast source)
  | replace {env : Environment} (built : Built env) (source : PropertySource) : Built (env.replace source).2
  | take {env : Environment} (built : Built env) (name : String) : Built (env.take name).2
  | merge {env parent : Environment} (built : Built env) (inherited : Built parent) : Built (env.merge parent)

theorem Built.distinct (built : env.Built) : env.names.Nodup := by
  have none : Environment.empty.names.Nodup := List.nodup_nil
  induction built with
  | empty => exact none
  | standard v => exact addLast_distinct none _
  | servlet v => exact addFirst_distinct (addFirst_distinct (addLast_distinct none _) _) _
  | addFirst built source ih => exact addFirst_distinct ih source
  | addLast built source ih => exact addLast_distinct ih source
  | replace built source ih =>
    rw [names_replace ih]
    exact ih
  | @take env built name ih =>
    rw [Environment.take, remove_eq ih]
    exact without_distinct ih name
  | merge built inherited ih other => exact merge_distinct ih other

/-- Source names are distinct, and each operation does to the lookups what it says: a source that is added counts
before or behind all others, a former one of its name is gone, one that is replaced stays in its place, and one that
is taken is the only one to go. -/
theorem built_lookup (built : env.Built) (source : PropertySource) (name : String) :
    env.names.Nodup ∧
      (∀ key, (env.addFirst source).get? key =
        (source.properties.get? key).or ((env.without source.name).get? key)) ∧
      (∀ key, (env.addLast source).get? key =
        ((env.without source.name).get? key).or (source.properties.get? key)) ∧
      (env.replace source).2.names = env.names ∧
      ((∃ before old after, env.sources = before ++ old :: after ∧ old.name = source.name ∧
          env.replace source = (true, { env with sources := before ++ source :: after })) ∨
        source.name ∉ env.names ∧ env.replace source = (false, env)) ∧
      ((∃ before taken after, env.sources = before ++ taken :: after ∧ taken.name = name ∧
          env.take name = (some taken, { env with sources := before ++ after })) ∨
        name ∉ env.names ∧ env.take name = (none, env)) := by
  have distinct := built.distinct
  refine ⟨distinct, get?_addFirst distinct source, get?_addLast distinct source, names_replace distinct source, ?_, ?_⟩
  · by_cases known : source.name ∈ env.names
    · exact .inl (replace_known known distinct)
    · exact .inr ⟨known, replace_unknown known⟩
  · by_cases known : name ∈ env.names
    · exact .inl (take_known known distinct)
    · exact .inr ⟨known, take_unknown known⟩

/-- A file before the sources of a servlet environment, and behind them the defaults of a parent, whose own file does
not count. -/
def layered : Environment :=
  let file (entries : List (String × String)) : PropertySource := ⟨"file", .ofList entries⟩
  ((servlet ⟨[]⟩).addFirst (file [("port", "80"), ("host", "local")])).merge
    ((empty.addFirst (file [("port", "1")])).addLast ⟨"defaults", .ofList [("host", "any"), ("mode", "dev")]⟩)

theorem layered_built : layered.Built :=
  ((Built.servlet _).addFirst _).merge ((Built.empty.addFirst _).addLast _)

theorem layered_lookup :
    let file : PropertySource := ⟨"file", .ofList [("port", "81")]⟩
    layered.names = ["file", servletConfigSource, servletContextSource, variablesSource, "defaults"] ∧
      (layered.addFirst file).get? "port" = some "81" ∧ (layered.addFirst file).get? "host" = some "any" ∧
      (layered.addLast ⟨"late", .ofList [("mode", "live"), ("user", "me")]⟩).get? "mode" = some "dev" ∧
      (layered.addLast ⟨"late", .ofList [("mode", "live"), ("user", "me")]⟩).get? "user" = some "me" ∧
      (layered.replace file).2.names = layered.names ∧ layered.names.Nodup := by
  intro file
  obtain ⟨distinct, first, _, kept, _⟩ := built_lookup layered_built file "defaults"
  obtain ⟨_, _, last, _⟩ := built_lookup layered_built ⟨"late", .ofList [("mode", "live"), ("user", "me")]⟩ "file"
  refine ⟨by decide +kernel, ?_, ?_, ?_, ?_, kept, distinct⟩
  · rw [first]
    decide +kernel
  · rw [first]
    decide +kernel
  · rw [last]
    decide +kernel
  · rw [last]
    decide +kernel

end LaunchTrace.Environment
