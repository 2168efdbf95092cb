/-!
# Capabilities and modes

What a plugin can provide, and the two encodings a connection can speak.
-/
namespace PluginBridge

inductive Capability where
  | builder
  | datasource
deriving DecidableEq, Inhabited

namespace Capability

def name : Capability → String
  | builder => "builder"
  | datasource => "datasource"

def ofName? : String → Option Capability
  | "builder" => some builder
  | "datasource" => some datasource
  | _ => none

/-- The endpoint of a plugin that provides a capability once and does not name it. -/
def defaultEndpoint : Capability → String
  | builder => "Builder"
  | datasource => "Datasource"

end Capability

/-- The encoding of a connection: the compact one with registered types, kept for older plugins, or
the self-describing one. -/
inductive Mode where
  | legacy
  | current
deriving DecidableEq, Inhabited

namespace Mode

def standard : Mode := current

def name : Mode → String
  | legacy => "legacy"
  | current => "current"

def ofName? : String → Option Mode
  | "legacy" => some legacy
  | "current" => some current
  | _ => none

def ofFlag (useCurrent : Bool) : Mode :=
  if useCurrent then current else legacy

def codecName : Mode → String
  | legacy => "postcard"
  | current => "cbor"

end Mode

end PluginBridge
