import LaunchTrace.Proofs.Context.Registration

/-! What registering and scanning change in a context, of whatever kind: its registry, and nothing once it is closed. -/
namespace LaunchTrace

namespace Context

variable {c after : Context} {g : NameGenerator} {cls : ComponentClass} {classes : List ComponentClass}
  {name : Option String} {ω : Type}

/-- What filling a context may change: its registry, unless the context is closed. Names are not used twice. -/
structure Filled (c after : Context) : Prop where
  frame : ∃ registry, after = { c with registry }
  shut : c.state = .closed → after = c
  distinct : c.registry.names.Nodup → after.registry.names.Nodup

theorem Filled.refl (c : Context) : Filled c c :=
  ⟨⟨c.registry, rfl⟩, fun _ => rfl, fun distinct => distinct⟩

theorem Filled.trans {middle : Context} (first : Filled c middle) (second : Filled middle after) :
    Filled c after where
  frame := by
    obtain ⟨_, rfl⟩ := first.frame
    obtain ⟨registry, rfl⟩ := second.frame
    exact ⟨registry, rfl⟩
  shut := by
    intro closed
    obtain rfl := first.shut closed
    exact second.shut closed
  distinct := second.distinct ∘ first.distinct

theorem Filled.state (filled : Filled c after) : after.state = c.state := by
  obtain ⟨_, rfl⟩ := filled.frame
  rfl

theorem Filled.startedAt (filled : Filled c after) : after.startedAt = c.startedAt := by
  obtain ⟨_, rfl⟩ := filled.frame
  rfl

theorem registerDefinition_filled {d : ComponentDefinition} (registered : c.registerDefinition d = .ok after) :
    Filled c after := by
  unfold registerDefinition at registered
  split at registered
  · contradiction
  · rename_i opened
    cases result : c.registry.register d with
    | error e =>
      rw [result] at registered
      contradiction
    | ok registry =>
      rw [result] at registered
      obtain rfl := Except.ok.inj registered
      exact ⟨⟨registry, rfl⟩, fun closed => absurd closed opened, Registry.register_distinct result⟩

theorem registerClass_filled (registered : c.registerClass g cls = .ok (name, after)) : Filled c after := by
  rw [registerClass_eq] at registered
  split at registered
  · contradiction
  · split at registered
    · cases result : c.registerDefinition (trial g c.registry cls).definition with
      | error e =>
        rw [result] at registered
        contradiction
      | ok next =>
        rw [result] at registered
        obtain ⟨_, rfl⟩ := Prod.mk.inj (Except.ok.inj registered)
        exact registerDefinition_filled result
    · obtain ⟨_, rfl⟩ := Prod.mk.inj (Except.ok.inj registered)
      exact .refl c

theorem registerEach_filled (g : NameGenerator) (classes : List ComponentClass) (c : Context) :
    Filled c (registerEach g classes c).2 := by
  induction classes generalizing c with
  | nil => exact .refl c
  | cons cls rest ih =>
    unfold registerEach
    split
    · exact .refl c
    · rename_i registered
      exact (registerClass_filled registered).trans (ih _)

theorem registerNew_filled (g : NameGenerator) (classes : List ComponentClass) (c : Context) :
    Filled c (registerNew g classes c).2 := by
  induction classes generalizing c with
  | nil => exact .refl c
  | cons cls rest ih =>
    unfold registerNew
    split
    · exact ih c
    · split
      · exact .refl c
      · rename_i registered
        exact (registerClass_filled registered).trans (ih _)

theorem scan_filled (c : Context) (g : NameGenerator) (scanner : Scanner) (packages : List String) :
    Filled c (c.scan g scanner packages).2 :=
  registerNew_filled g (packages.flatMap scanner.find) c

/-- A closed context still names and judges a class before it refuses it. -/
theorem registerClass_closed (closed : c.state = .closed) (named : (trial g c.registry cls).definition.name ≠ "")
    (admitted : (trial g c.registry cls).Admitted c.environment) : c.registerClass g cls = .error .closed := by
  rw [registerClass_eq, if_neg named, if_pos admitted, registerDefinition, if_pos closed]
  rfl

/-- It refuses the first class that it would register. -/
theorem registerEach_closed (closed : c.state = .closed) {passed rest : List Trial} {t : Trial}
    (offered : classes.map (trial g c.registry) = passed ++ t :: rest)
    (others : ∀ p ∈ passed, p.definition.name ≠ "" ∧ ¬ p.Admitted c.environment)
    (named : t.definition.name ≠ "") (admitted : t.Admitted c.environment) :
    (registerEach g classes c).1 = .error .closed := by
  induction classes generalizing passed with
  | nil => simp at offered
  | cons cls later ih =>
    unfold registerEach
    cases passed with
    | nil =>
      obtain ⟨rfl, _⟩ := List.cons.inj offered
      rw [registerClass_closed closed named admitted]
    | cons p passed =>
      obtain ⟨same, offered⟩ := List.cons.inj offered
      obtain ⟨some, out⟩ := others _ List.mem_cons_self
      rw [← same] at some out
      rw [registerClass_eq, if_neg some, if_neg out]
      dsimp only
      rw [ih offered fun p member => others p (List.mem_cons_of_mem _ member)]
      rfl

theorem registerNew_closed (closed : c.state = .closed) :
    registerNew g classes c =
      ((registerEach g (classes.filter (!c.registry.containsType ·.typeName)) c).1.map fun _ => (), c) := by
  induction classes with
  | nil => rfl
  | cons cls rest ih =>
    unfold registerNew
    cases known : c.registry.containsType cls.typeName with
    | true => simp [known, ih]
    | false =>
      rw [List.filter_cons_of_pos (by simp [known])]
      unfold registerEach
      cases result : c.registerClass g cls with
      | error e => rfl
      | ok next =>
        obtain rfl := (registerClass_filled result).shut closed
        simp only [Bool.false_eq_true, if_false, ih]
        cases (registerEach g _ next.2).1 <;> rfl

end Context

namespace Application

@[simp]
theorem withContext_context (app : Application) (c : Context) : (app.withContext c).context = c := by
  cases app <;> rfl

@[simp]
theorem withContext_self (app : Application) : app.withContext app.context = app := by
  cases app <;> rfl

@[simp]
theorem withContext_withContext (app : Application) (c : Context) :
    (app.withContext c).withContext = app.withContext := by
  cases app <;> rfl

/-- The generator that names classes: that of the application itself, or else the one given. -/
def generator (g : NameGenerator) : Application → NameGenerator
  | .annotated a => a.generator
  | _ => g

/-- The scanner that finds classes: that of the application itself, or else the one given. -/
def scanner (given : Scanner) : Application → Scanner
  | .annotated a => a.scanner
  | _ => given

variable {app : Application} {g : NameGenerator} {classes : List ComponentClass} {e : ContextError} {s : Startup}

theorem register_after (app : Application) (g : NameGenerator) (classes : List ComponentClass) (s : Startup) :
    (app.register g classes s).1.2 =
      app.withContext (Context.registerEach (app.generator g) classes app.context).2 := by
  cases app with
  | annotated a =>
    simp only [register, AnnotatedContext.register]
    split
    · rename_i none
      rw [none]
      rfl
    · rfl
  | generic c => rfl
  | web w => rfl

theorem register_error (failed : (Context.registerEach (app.generator g) classes app.context).1 = .error e) :
    (app.register g classes s).1.1 = .error e := by
  cases app with
  | annotated a =>
    have some : classes ≠ [] := by
      rintro rfl
      cases failed
    have failed : (Context.registerEach a.generator classes a.context).1 = .error e := failed
    simp only [register, AnnotatedContext.register, if_neg some, Startup.within_fst, failed]
    rfl
  | generic c => exact failed
  | web w => exact failed

theorem scan_after (app : Application) (g : NameGenerator) (given : Scanner) (packages : List String) (s : Startup) :
    (app.scan g given packages s).1.2 =
      app.withContext (app.context.scan (app.generator g) (app.scanner given) packages).2 := by
  cases app with
  | annotated a =>
    simp only [scan, AnnotatedContext.scan]
    split
    · rename_i none
      rw [none]
      rfl
    · rfl
  | generic c => rfl
  | web w => rfl

theorem scan_error {given : Scanner} {packages : List String}
    (failed : (Context.registerNew (app.generator g) (packages.flatMap (app.scanner given).find) app.context).1 =
      .error e) :
    (app.scan g given packages s).1.1 = .error e := by
  cases app with
  | annotated a =>
    have some : packages ≠ [] := by
      rintro rfl
      cases failed
    have failed : (Context.registerNew a.generator (packages.flatMap a.scanner.find) a.context).1 = .error e := failed
    simp only [scan, AnnotatedContext.scan, if_neg some, Startup.within_fst, Context.scan, failed]
    rfl
  | generic c =>
    have failed : (Context.registerNew g (packages.flatMap given.find) c).1 = .error e := failed
    simp only [scan, context, Context.scan, failed]
    rfl
  | web w =>
    have failed : (Context.registerNew g (packages.flatMap given.find) w.context).1 = .error e := failed
    simp only [scan, context, Context.scan, failed]
    rfl

/-- Whichever names are given back, whether classes can be registered does not depend on the kind of the context. -/
theorem register_outcome (app : Application) (g : NameGenerator) (some : classes ≠ []) (s : Startup) :
    (app.register g classes s).1.1.map (fun _ => ()) =
      (Context.registerEach (app.generator g) classes app.context).1.map fun _ => () := by
  cases app with
  | annotated a =>
    simp only [register, AnnotatedContext.register, if_neg some, Startup.within_fst, generator, context]
    cases (Context.registerEach a.generator classes a.context).1 <;> rfl
  | generic c => rfl
  | web w => rfl

theorem scan_outcome (app : Application) (g : NameGenerator) (given : Scanner) {packages : List String}
    (some : packages ≠ []) (s : Startup) :
    (app.scan g given packages s).1.1 = (app.context.scan (app.generator g) (app.scanner given) packages).1 := by
  cases app with
  | annotated a =>
    simp only [scan, AnnotatedContext.scan, if_neg some]
    rfl
  | generic c => rfl
  | web w => rfl

theorem registerComponent_eq (app : Application) (g : NameGenerator) (name : Option String) (cls : ComponentClass) :
    app.registerComponent g name cls =
      match app.context.registerClass (app.generator g) { cls with name := name <|> cls.name } with
      | .error e => (.error e, app)
      | .ok (name, c) => (.ok name, app.withContext c) := by
  cases app with
  | annotated a =>
    simp only [registerComponent, AnnotatedContext.registerComponent, context, generator]
    generalize a.context.registerClass a.generator { cls with name := name <|> cls.name } = result
    cases result with
    | error e => rfl
    | ok next => rfl
  | generic c => rfl
  | web w => rfl

end Application
end LaunchTrace
