import LaunchTrace.Context.Basic
import LaunchTrace.Context.Servlet

/-! Contexts of web applications. A refresh brings in the parameters of the servlet context, and registers the web
scopes and what stands for the container. -/
namespace LaunchTrace

structure WebContext where
  context : Context
  servlet : Option ServletContext

namespace WebContext

def typeName : String := "GenericWebApplicationContext"

/-- A web context is named after the path it is served under. -/
def applicationName (w : WebContext) : String :=
  (w.servlet.map (·.path)).getD ""

/-- The source that is kept for the parameters of the servlet context gets them now, if it is still there. -/
def initPropertySources (servlet : Option ServletContext) (env : Environment) : Environment :=
  match servlet with
  | none => env
  | some s => (env.replace ⟨Environment.servletContextSource, s.parameters⟩).2

def registerWeb (servlet : Option ServletContext) (registry : Registry) : Registry :=
  let registry := (registry.registerScope "request").registerScope "session"
  match servlet with
  | none => registry
  | some s =>
    ((registry.registerScope "application").registerSingleton "servletContext"
        ("servlet context at " ++ Text.quote s.path)).registerSingleton
      "contextParameters" s.parameters.debug

def hooks (servlet : Option ServletContext) : Context.RefreshHooks Unit where
  initPropertySources env w := (.ok (), WebContext.initPropertySources servlet env, w)
  postProcessRegistry registry w := (.ok (), registerWeb servlet registry, w)
  onRefresh _ w := (.ok (), w)

def refresh (w : WebContext) (now : Timestamp) (s : Startup) : (Except ContextError Unit × WebContext) × Startup :=
  let (r, s) := w.context.refreshWith (hooks w.servlet) () now s
  ((r.outcome, { w with context := r.context }), s)

def resource (w : WebContext) (path : String) : Except ContextError Resource :=
  match w.servlet with
  | none => .error .noServletContext
  | some s => .ok (s.resource path)

/-! ## What web contexts of this kind do not offer -/

def unsupported (operation : String) : ContextError :=
  .unsupported typeName operation

def servletConfig : Except ContextError Properties :=
  .error (unsupported "servlet_config()")

def configNamespace : Except ContextError String :=
  .error (unsupported "namespace()")

def configLocations : Except ContextError (List String) :=
  .error (unsupported "config_locations()")

/-- A blank location asks for nothing. -/
def setConfigLocation (location : String) : Except ContextError Unit :=
  if Text.isBlankText location.toList then .ok () else .error (unsupported "set_config_location()")

def setConfigLocations (locations : List String) : Except ContextError Unit :=
  if locations = [] then .ok () else .error (unsupported "set_config_locations()")

end WebContext
end LaunchTrace
