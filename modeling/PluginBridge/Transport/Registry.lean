import PluginBridge.Transport.Error

/-!
# Registries

Services by endpoint name. A call names its endpoint and method as `<endpoint>.<method>`; the last
point separates them.
-/
namespace PluginBridge

/-- Services in the order of registration, each endpoint name once. -/
abbrev Registry (ς : Type) := List (String × ς)

namespace Registry

variable {ς : Type}

def find? (registry : Registry ς) (endpoint : String) : Option ς :=
  registry.lookup endpoint

def register (registry : Registry ς) (endpoint : String) (service : ς) :
    Except TransportError (Registry ς) :=
  if (registry.find? endpoint).isSome then .error (.duplicateService endpoint)
  else .ok (registry ++ [(endpoint, service)])

/-- The registry after services were offered one after another; a service whose endpoint name is
taken is not added. -/
def collect (offered : List (String × ς)) : Registry ς :=
  offered.foldl (fun registry (endpoint, service) =>
    match registry.register endpoint service with
    | .ok registry => registry
    | .error _ => registry) []

def endpoints (registry : Registry ς) : List String :=
  registry.map (·.1)

/-- The parts before and behind the last point. -/
def splitName? (name : List Char) : Option (List Char × List Char) :=
  match name with
  | [] => none
  | c :: rest =>
    match splitName? rest with
    | some (endpoint, method) => some (c :: endpoint, method)
    | none => if c = '.' then some ([], rest) else none

def route (registry : Registry ς) (name : String) : Except TransportError (ς × String) :=
  match splitName? name.toList with
  | none => .error (.malformedMethod name)
  | some (endpoint, method) =>
    match registry.find? (String.ofList endpoint) with
    | some service => .ok (service, String.ofList method)
    | none => .error (.unknownService (String.ofList endpoint))

def methodName (endpoint method : String) : String :=
  endpoint ++ "." ++ method

end Registry

end PluginBridge
