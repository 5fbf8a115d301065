import LaunchTrace.Startup.Error

/-! Why an operation on a context failed. -/
namespace LaunchTrace

inductive ArgumentFault where
  | emptyComponentName
  | noComponentClass
  | noBasePackage
deriving DecidableEq, Repr

def ArgumentFault.message : ArgumentFault → String
  | .emptyComponentName => "component name must not be empty"
  | .noComponentClass => "At least one component class must be specified"
  | .noBasePackage => "At least one base package must be specified"

inductive ContextError where
  | invalidArgument (fault : ArgumentFault)
  | duplicateComponent (name typeName existing : String)
  | alreadyRefreshed
  | closed
  | missingRequiredProperties (keys : List String)
  | unsupported (context operation : String)
  | noServletContext
  | catalogFile (error : FileError)
  | malformedCatalog
  | startup (error : StartupError)
deriving DecidableEq, Repr

namespace ContextError

def message : ContextError → String
  | .invalidArgument fault => fault.message
  | .duplicateComponent name typeName existing =>
    "component name " ++ Text.quote name ++ " for " ++ typeName ++ " conflicts with existing " ++ existing
  | .alreadyRefreshed => "context does not support multiple refresh attempts: just call 'refresh' once"
  | .closed => "context has been closed already"
  | .missingRequiredProperties keys => "required properties not found: " ++ Text.quoteList keys
  | .unsupported context operation => context ++ " does not support " ++ operation
  | .noServletContext => "no servlet context available"
  | .catalogFile e => "catalog i/o failed: " ++ e.message
  | .malformedCatalog => "catalog is malformed"
  | .startup e => "startup instrumentation error: " ++ e.message

/-- Whether the context was in the wrong state. -/
def isLifecycle : ContextError → Bool
  | .alreadyRefreshed | .closed => true
  | _ => false

def isUnsupported : ContextError → Bool
  | .unsupported .. => true
  | _ => false

/-- The messages of the error and of what caused it. -/
def chain : ContextError → List String
  | .catalogFile e => [message (.catalogFile e), e.message]
  | e => [e.message]

end ContextError
end LaunchTrace
