import PluginBridge.Config.Validation
import PluginBridge.Datasource.Serving
import PluginBridge.PluginServer
import PluginBridge.Rehearsal.ScriptedBuilder
import PluginBridge.Rehearsal.ScriptedDatasource
import PluginBridge.Sample.EchoBuilder
import PluginBridge.Sample.StaticDatasource

/-!
# Implementations

The implementations that come with the library, each with its state, and how those that a
configuration names are served.
-/
namespace PluginBridge

open Rehearsal

inductive Implementation where
  | static (hosted : HostedDatasource (Fields Value))
  | echo (plan : EchoBuilder.Plan)
  | datasource (hosted : HostedDatasource ScriptedDatasource)
  | builder (scripted : ScriptedBuilder)

namespace Implementation

/-- The names by which a configuration can ask for an implementation. -/
def names : Capability → List String
  | .datasource => ["static"]
  | .builder => ["echo"]

def fresh? : Capability → String → Option Implementation
  | .datasource, "static" => some (static ⟨[], {}⟩)
  | .builder, "echo" => some (echo {})
  | _, _ => none

def capability : Implementation → Capability
  | static _ | datasource _ => .datasource
  | echo _ | builder _ => .builder

def handle (codec : Codec) (method : String) (body : Bytes) :
    Implementation → Handling Implementation
  | static hosted => (staticDatasource.service codec method body hosted).within static
  | echo plan => (echoBuilder.service codec method body plan).within echo
  | datasource hosted => (scriptedDatasource.service codec method body hosted).within datasource
  | builder scripted => (scriptedBuilder.service codec method body scripted).within builder

/-- Uses the implementation as a datasource, without a connection; none if it is a builder. -/
def asDatasource? {α : Type} (use : {σ : Type} → Datasource σ → σ → σ × α) :
    Implementation → Option (Implementation × α)
  | static hosted =>
    let (state, a) := use staticDatasource hosted.state
    some (static { hosted with state := state }, a)
  | datasource hosted =>
    let (state, a) := use scriptedDatasource hosted.state
    some (datasource { hosted with state := state }, a)
  | echo _ | builder _ => none

def asBuilder? {α : Type} (use : {σ : Type} → Builder σ → σ → σ × α) :
    Implementation → Option (Implementation × α)
  | echo plan =>
    let (plan, a) := use echoBuilder plan
    some (echo plan, a)
  | builder scripted =>
    let (scripted, a) := use scriptedBuilder scripted
    some (builder scripted, a)
  | static _ | datasource _ => none

end Implementation

def Endpoint.instantiate (endpoint : Endpoint) : Except ConfigError Implementation :=
  match Implementation.fresh? endpoint.capability endpoint.implementation with
  | some implementation => .ok implementation
  | none =>
    .error (.unknownImplementation endpoint.name endpoint.capability endpoint.implementation)

abbrev Deployment := List (String × Implementation)

namespace Deployment

def replace (name : String) (implementation : Implementation) (deployment : Deployment) :
    Deployment :=
  deployment.map fun entry => if entry.1 = name then (name, implementation) else entry

/-- The service of one endpoint over the states of all. -/
def service (codec : Codec) (name : String) : Service Deployment := fun method body deployment =>
  match deployment.lookup name with
  | some implementation =>
    (implementation.handle codec method body).within fun next => deployment.replace name next
  | none => .reply deployment (.error (.unknownService name))

end Deployment

structure PluginHost where
  server : PluginServer (Service Deployment)
  deployment : Deployment := []

namespace PluginHost

def empty (mode : Mode) : PluginHost :=
  ⟨{ mode := mode }, []⟩

def deploy (host : PluginHost) (name : String) (implementation : Implementation) :
    Except TransportError PluginHost := do
  let service := Deployment.service (Codec.ofMode host.server.mode) name
  let server ← host.server.serve name implementation.capability service
  return ⟨server, host.deployment ++ [(name, implementation)]⟩

def deployAll (host : PluginHost) : List Endpoint → Except Failure PluginHost
  | [] => .ok host
  | endpoint :: rest => do
    let implementation ← endpoint.instantiate.mapError ConfigError.toFailure
    let host ← (host.deploy endpoint.name implementation).mapError .transport
    host.deployAll rest

def link (host : PluginHost) : Link Deployment :=
  .connect host.server.registry host.deployment

end PluginHost

def Config.pluginHost (config : Config) (mode : Mode) : Except Failure PluginHost :=
  (PluginHost.empty mode).deployAll config.endpoints

end PluginBridge
