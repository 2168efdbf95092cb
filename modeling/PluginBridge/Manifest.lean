import PluginBridge.Config.Document
import PluginBridge.Document.Json
import PluginBridge.Version.Requirement

/-!
# Plugin manifests

What a plugin says about itself in a JSON file beside it.
-/
namespace PluginBridge

/-- A capability that a plugin provides, at an endpoint if it names one. -/
structure Provision where
  capability : Capability
  endpoint? : Option String := none
deriving DecidableEq, Inhabited

def Provision.endpoint (provision : Provision) : String :=
  provision.endpoint?.getD provision.capability.defaultEndpoint

structure Manifest where
  name : String := ""
  version : String := ""
  description : Option String := none
  /-- The host versions that the plugin was made for, any if it does not say. -/
  hosts : Option Version.Requirement := none
  mode : Mode := .standard
  provisions : List Provision := []
deriving Inhabited

namespace Manifest

def hostVersion : Version :=
  ⟨0, 1, 0, []⟩

def provides (manifest : Manifest) (capability : Capability) : Bool :=
  manifest.provisions.any fun provision => provision.capability == capability

def endpoints (manifest : Manifest) (capability : Capability) : List String :=
  (manifest.provisions.filter fun provision => provision.capability == capability).map
    (·.endpoint)

def isCompatible (manifest : Manifest) (host : Version) : Bool :=
  match manifest.hosts with
  | some requirement => requirement.isSatisfied host
  | none => true

end Manifest

def Provision.ofDocument? (document : Document) : Option Provision := do
  match ← document.fields? .json ["kind", "endpoint"] with
  | [kind, endpoint] =>
    some {
      capability := ← Document.need? (Capability.ofDocument? .json) kind
      endpoint? := ← Document.fieldOr? none (Document.optional? Document.string?) endpoint }
  | _ => none

def Version.Requirement.ofDocument? (document : Document) : Option Version.Requirement :=
  document.string?.bind Version.Requirement.parse?

def Manifest.ofDocument? (document : Document) : Option Manifest := do
  match ← document.fields? .json
      ["name", "version", "description", "api_version", "mode", "capabilities"] with
  | [name, version, description, hosts, mode, provisions] =>
    some {
      name := ← Document.fieldOr? "" Document.string? name
      version := ← Document.fieldOr? "" Document.string? version
      description := ← Document.fieldOr? none (Document.optional? Document.string?) description
      hosts := ← Document.fieldOr? none
        (Document.optional? Version.Requirement.ofDocument?) hosts
      mode := ← Document.fieldOr? .standard (Mode.ofDocument? .json) mode
      provisions := ← Document.fieldOr? []
        (Document.itemsOf? Provision.ofDocument?) provisions }
  | _ => none

def Manifest.parse? (text : String) : Option Manifest :=
  (Document.ofJson? text).bind Manifest.ofDocument?

end PluginBridge
