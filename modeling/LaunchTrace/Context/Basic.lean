import LaunchTrace.Component.Catalog
import LaunchTrace.Component.Condition
import LaunchTrace.Component.NameGenerator
import LaunchTrace.Startup.Basic

/-! Contexts: components are registered under names, and one refresh makes the context active. What a context does
is reported as steps to the startup that is passed along; its results never depend on that startup. -/
namespace LaunchTrace

inductive ContextState where
  | created
  | active
  | failed
  | closed
deriving DecidableEq, Repr

def ContextState.text : ContextState → String
  | .created => "Created"
  | .active => "Active"
  | .failed => "Failed"
  | .closed => "Closed"

/-- A context that another one hangs under. It does not change any more. -/
inductive ParentContext where
  | mk (id applicationName : String) (environment : Environment) (registry : Registry)
    (startedAt : Option Timestamp) (parent : Option ParentContext)

namespace ParentContext

def id : ParentContext → String
  | .mk id .. => id

def applicationName : ParentContext → String
  | .mk _ name .. => name

def environment : ParentContext → Environment
  | .mk _ _ env .. => env

def registry : ParentContext → Registry
  | .mk _ _ _ registry .. => registry

def startedAt : ParentContext → Option Timestamp
  | .mk _ _ _ _ startedAt _ => startedAt

def parent? : ParentContext → Option ParentContext
  | .mk _ _ _ _ _ parent => parent

end ParentContext

structure Context where
  id : String
  displayName : String
  parent : Option ParentContext
  environment : Environment
  registry : Registry
  /-- When it was first refreshed. -/
  startedAt : Option Timestamp
  state : ContextState

namespace Context

/-- A new context, displayed by its id. -/
def create (id : String) (environment : Environment) : Context :=
  ⟨id, id, none, environment, .empty, none, .created⟩

/-- Hangs a context under another, whose environment it takes over. -/
def setParent (c : Context) (parent : ParentContext) : Context :=
  { c with environment := c.environment.merge parent.environment, parent := some parent }

/-- The context as a parent, under the name it has as an application. -/
def asParent (c : Context) (applicationName : String) : ParentContext :=
  .mk c.id applicationName c.environment c.registry c.startedAt c.parent

def close (c : Context) : Context :=
  { c with state := .closed }

def debug (c : Context) : String :=
  "GenericApplicationContext \x7b id: " ++ Text.quote c.id ++ ", display_name: " ++ Text.quote c.displayName
    ++ ", parent: " ++ (match c.parent with
      | none => "None"
      | some parent => "Some(" ++ Text.quote parent.id ++ ")")
    ++ ", state: " ++ c.state.text ++ ", components: " ++ toString c.registry.size ++ ", .. \x7d"

/-! ## Registration -/

/-- Registers a definition, unless the context is closed. -/
def registerDefinition (c : Context) (d : ComponentDefinition) : Except ContextError Context :=
  if c.state = .closed then .error .closed
  else (c.registry.register d).map fun registry => { c with registry }

/-- Registers a class under the name that the generator gives it. There is no name in the result where a condition
keeps the class out. -/
def registerClass (c : Context) (g : NameGenerator) (cls : ComponentClass) :
    Except ContextError (Option String × Context) :=
  let d := cls.define (g.generate cls c.registry)
  if d.name = "" then .error (.invalidArgument .emptyComponentName)
  else if d.isSkipped c.environment c.registry d.kind.firstPhase then .ok (none, c)
  else (c.registerDefinition d).map fun c => (some d.name, c)

/-- Registers classes one after the other, up to the first that fails. Those before it stay registered. -/
def registerEach (g : NameGenerator) : List ComponentClass → Context →
    Except ContextError (List (Option String)) × Context
  | [], c => (.ok [], c)
  | cls :: rest, c =>
    match c.registerClass g cls with
    | .error e => (.error e, c)
    | .ok (name, c) =>
      let (names, c) := registerEach g rest c
      (names.map (name :: ·), c)

/-- Registers those of the classes whose types are not registered yet. -/
def registerNew (g : NameGenerator) : List ComponentClass → Context → Except ContextError Unit × Context
  | [], c => (.ok (), c)
  | cls :: rest, c =>
    if c.registry.containsType cls.typeName then registerNew g rest c
    else
      match c.registerClass g cls with
      | .error e => (.error e, c)
      | .ok (_, c) => registerNew g rest c

/-- Registers what is found below the packages. The result is the number of definitions added. -/
def scan (c : Context) (g : NameGenerator) (scanner : Scanner) (packages : List String) :
    Except ContextError Nat × Context :=
  let (outcome, after) := registerNew g (packages.flatMap scanner.find) c
  (outcome.map fun _ => after.registry.size - c.registry.size, after)

/-! ## Refresh -/

/-- Work that a kind of context adds to a refresh, with a state `ω` of its own. -/
structure RefreshHooks (ω : Type) where
  initPropertySources : Environment → ω → Except ContextError Unit × Environment × ω
  postProcessRegistry : Registry → ω → Except ContextError Unit × Registry × ω
  onRefresh : Registry → ω → Except ContextError Unit × ω

def RefreshHooks.none : RefreshHooks Unit where
  initPropertySources env w := (.ok (), env, w)
  postProcessRegistry registry w := (.ok (), registry, w)
  onRefresh _ w := (.ok (), w)

def refreshStep : StepName := ⟨"spring.context.refresh", by decide⟩
def postProcessStep : StepName := ⟨"spring.context.beans.post-process", by decide⟩

/-- The configurations that a condition keeps out now. All are judged by one registry, before any is removed. -/
def skippedNames (c : Context) : List String :=
  (c.registry.definitions.filter fun d =>
    d.isConfiguration && d.isSkipped c.environment c.registry .register).map (·.name)

def removeSkipped (c : Context) : Context :=
  { c with registry := c.skippedNames.foldl Registry.remove c.registry }

/-- What part of a refresh has come to. -/
structure Refresh (ω α : Type) where
  outcome : Except ContextError α
  context : Context
  hooks : ω

/-- Lets the hooks work on the registry, and then removes the configurations that are kept out. -/
def postProcess {ω : Type} (c : Context) (hooks : RefreshHooks ω) (w : ω) : Refresh ω (List String) :=
  match hooks.postProcessRegistry c.registry w with
  | (.error e, registry, w) => ⟨.error e, { c with registry }, w⟩
  | (.ok (), registry, w) =>
    let c := { c with registry }
    ⟨.ok c.skippedNames, c.removeSkipped, w⟩

def skippedTags {ω : Type} (r : Refresh ω (List String)) : List (String × String) :=
  match r.outcome with
  | .ok skipped => [("skipped", Text.quoteList skipped)]
  | .error _ => []

/-- Whether the environment has all that a refresh demands. -/
def checkRequired (env : Environment) : Except ContextError Unit :=
  if env.missing = [] then .ok () else .error (.missingRequiredProperties env.missing)

/-- The phases of a refresh: property sources, required properties, registry, and what the hooks do at the end. -/
def runRefresh {ω : Type} (c : Context) (hooks : RefreshHooks ω) (w : ω) (s : Startup) :
    Refresh ω Unit × Startup :=
  match hooks.initPropertySources c.environment w with
  | (.error e, environment, w) => (⟨.error e, { c with environment }, w⟩, s)
  | (.ok (), environment, w) =>
    let c := { c with environment }
    match checkRequired environment with
    | .error e => (⟨.error e, c, w⟩, s)
    | .ok () =>
      let (r, s) := s.within postProcessStep [] (fun s => (c.postProcess hooks w, s)) skippedTags
      match r.outcome with
      | .error e => (⟨.error e, r.context, r.hooks⟩, s)
      | .ok _ =>
        let (outcome, w) := hooks.onRefresh r.context.registry r.hooks
        (⟨outcome, r.context, w⟩, s)

/-- The context after a refresh is active if all went well. -/
def settle {ω : Type} (r : Refresh ω Unit) : Refresh ω Unit :=
  match r.outcome with
  | .ok () => { r with context := { r.context with state := .active } }
  | .error _ => { r with context := { r.context with state := .failed } }

def refreshTags {ω : Type} (r : Refresh ω Unit) : List (String × String) :=
  match r.outcome with
  | .ok () => [("components", toString r.context.registry.size)]
  | .error e => [("failure", e.message)]

/-- Refreshes a context that was only created, at the time given. Any other is left as it is. -/
def refreshWith {ω : Type} (c : Context) (hooks : RefreshHooks ω) (w : ω) (now : Timestamp) (s : Startup) :
    Refresh ω Unit × Startup :=
  match c.state with
  | .closed => (⟨.error .closed, c, w⟩, s)
  | .active | .failed => (⟨.error .alreadyRefreshed, c, w⟩, s)
  | .created =>
    s.within refreshStep []
      (fun s =>
        let (r, s) := { c with startedAt := some now }.runRefresh hooks w s
        (settle r, s))
      refreshTags

def refresh (c : Context) (now : Timestamp) (s : Startup) : Refresh Unit Unit × Startup :=
  c.refreshWith .none () now s

end Context
end LaunchTrace
