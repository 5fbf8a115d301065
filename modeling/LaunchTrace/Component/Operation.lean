import LaunchTrace.Component.Registry

/-! A program that works with a registry, and the replies that it gets. -/
namespace LaunchTrace

inductive RegistryOperation where
  | register (definition : ComponentDefinition)
  | remove (name : String)
  | setOverriding (allowed : Bool)
  | registerSingleton (name description : String)
  | registerScope (scope : String)

inductive RegistryReply where
  | registered (outcome : Except ContextError Unit)
  /-- The definition that is gone, if there was one. -/
  | removed (definition : Option ComponentDefinition)
  | done

namespace Registry

/-- A registration that is refused leaves the registry as it was. -/
def apply (r : Registry) : RegistryOperation → RegistryReply × Registry
  | .register d =>
    match r.register d with
    | .error e => (.registered (.error e), r)
    | .ok r => (.registered (.ok ()), r)
  | .remove name => (.removed (r.get? name), r.remove name)
  | .setOverriding allowed => (.done, { r with overriding := allowed })
  | .registerSingleton name description => (.done, r.registerSingleton name description)
  | .registerScope scope => (.done, r.registerScope scope)

/-- Carries out operations one after the other, with the replies in their order. -/
def run (r : Registry) : List RegistryOperation → List RegistryReply × Registry
  | [] => ([], r)
  | op :: ops =>
    let (reply, r) := r.apply op
    let (replies, r) := r.run ops
    (reply :: replies, r)

end Registry
end LaunchTrace
