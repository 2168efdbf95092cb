import PluginBridge.Bridge.Error
import PluginBridge.Config
import PluginBridge.SocketAddress
import PluginBridge.Text.Blank

/-!
# Checking configurations

What a configuration must satisfy, the addresses it resolves to, and the endpoint that a command
means. The first fault is reported: sections before endpoints, endpoints in their order.
-/
namespace PluginBridge

inductive ConfigError where
  | noSection
  | listenAddress (text : String)
  | connectAddress (text : String)
  | callbackAddress (text : String)
  | modesDiffer (server host : Mode)
  | noEndpoints
  | emptyName
  | dottedName (name : String)
  | noImplementation (name : String)
  | configNotTable (name : String)
  | duplicateName (name : String)
  | missingServer
  | missingHost
  | unknownEndpoint (name : String)
  | noneProvides (capability : Capability)
  | providesOther (name : String) (provided wanted : Capability)
  | unknownImplementation (name : String) (capability : Capability) (implementation : String)
deriving DecidableEq, Inhabited

namespace ConfigError

def message : ConfigError → String
  | noSection => "configuration needs a [server] or a [host] section"
  | listenAddress text => s!"invalid server listen address `{text}`"
  | connectAddress text => s!"invalid host connect address `{text}`"
  | callbackAddress text => s!"invalid callback bind address `{text}`"
  | modesDiffer server host =>
    s!"server speaks {server.name} but host expects {host.name}; " ++
      "both ends of a connection must agree"
  | noEndpoints => "at least one endpoint is required"
  | emptyName => "endpoint name must not be empty"
  | dottedName name => s!"endpoint name `{name}` must not contain `.`"
  | noImplementation name => s!"endpoint `{name}` must name an implementation"
  | configNotTable name => s!"endpoint `{name}` config must be a table"
  | duplicateName name => s!"duplicate endpoint name `{name}`"
  | missingServer => "missing [server] section"
  | missingHost => "missing [host] section"
  | unknownEndpoint name => s!"no endpoint named `{name}`"
  | noneProvides capability => s!"configuration declares no {capability.name} endpoint"
  | providesOther name provided wanted =>
    s!"endpoint `{name}` is a {provided.name}, not a {wanted.name}"
  | unknownImplementation name capability implementation =>
    s!"endpoint `{name}`: no {capability.name} implementation named `{implementation}`"

/-- An error about an address has the fault of its text as cause. -/
def toFailure : ConfigError → Failure
  | error@(listenAddress _) => .context error.message (.text SocketAddress.syntaxFault)
  | error@(connectAddress _) => .context error.message (.text SocketAddress.syntaxFault)
  | error@(callbackAddress _) => .context error.message (.text SocketAddress.syntaxFault)
  | error => .text error.message

theorem message_toFailure (error : ConfigError) : error.toFailure.message = error.message := by
  cases error <;> rfl

def ifNone {α : Type} (error : ConfigError) : Option α → Except ConfigError α
  | some a => .ok a
  | none => .error error

end ConfigError

structure ServerRole where
  listen : SocketAddress
  mode : Mode
deriving DecidableEq, Inhabited

structure HostRole where
  connect : SocketAddress
  callbackBind : SocketAddress
  mode : Mode
deriving DecidableEq, Inhabited

def ServerSection.resolve (server : ServerSection) : Except ConfigError ServerRole := do
  let listen ← ConfigError.ifNone (.listenAddress server.listen)
    (SocketAddress.parseBind? server.listen)
  return ⟨listen, server.mode⟩

def HostSection.resolve (host : HostSection) : Except ConfigError HostRole := do
  let connect ← ConfigError.ifNone (.connectAddress host.connect)
    (SocketAddress.parseConnect? host.connect)
  let callbackBind ← ConfigError.ifNone (.callbackAddress host.callbackBind)
    (SocketAddress.parseBind? host.callbackBind)
  return ⟨connect, callbackBind, host.mode⟩

def Endpoint.validate (endpoint : Endpoint) : Except ConfigError Unit :=
  if Text.trim endpoint.name = "" then .error .emptyName
  else if '.' ∈ endpoint.name.toList then .error (.dottedName endpoint.name)
  else if Text.trim endpoint.implementation = "" then .error (.noImplementation endpoint.name)
  else match endpoint.config with
    | .null | .object _ => .ok ()
    | _ => .error (.configNotTable endpoint.name)

namespace Config

/-- Checks endpoints one after another; their names must differ, also from those seen before. -/
def validateEndpoints (seen : List String) : List Endpoint → Except ConfigError Unit
  | [] => .ok ()
  | endpoint :: rest => do
    endpoint.validate
    if endpoint.name ∈ seen then .error (.duplicateName endpoint.name)
    else validateEndpoints (endpoint.name :: seen) rest

/-- Checks that some section is there, that its addresses can be read, and that both ends of a
connection agree on the mode. -/
def validateSections (server : Option ServerSection) (host : Option HostSection) :
    Except ConfigError Unit :=
  match server, host with
  | none, none => .error .noSection
  | some server, none => do let _ ← server.resolve
  | none, some host => do let _ ← host.resolve
  | some server, some host => do
    let _ ← server.resolve
    let _ ← host.resolve
    if server.mode = host.mode then .ok ()
    else .error (.modesDiffer server.mode host.mode)

def validate (config : Config) : Except ConfigError Unit := do
  validateSections config.server config.host
  if config.endpoints.isEmpty then .error .noEndpoints
  else validateEndpoints [] config.endpoints

def serverRole (config : Config) : Except ConfigError ServerRole := do
  let server ← ConfigError.ifNone .missingServer config.server
  server.resolve

def hostRole (config : Config) : Except ConfigError HostRole := do
  let host ← ConfigError.ifNone .missingHost config.host
  host.resolve

/-- The endpoint with a name, or the first for a capability if none is given; it must provide that
capability. -/
def pickEndpoint (config : Config) (name? : Option String) (capability : Capability) :
    Except ConfigError Endpoint := do
  let endpoint ← match name? with
    | some name => ConfigError.ifNone (.unknownEndpoint name) (config.endpoint? name)
    | none => ConfigError.ifNone (.noneProvides capability) (config.firstEndpoint? capability)
  if endpoint.capability = capability then return endpoint
  else throw (.providesOther endpoint.name endpoint.capability capability)

end Config

end PluginBridge
