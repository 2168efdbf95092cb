import PluginBridge.Config
import PluginBridge.Document

/-!
# Reading configurations

A configuration as a document, and as the JSON of diagnostics. Members that are not known are
ignored; most of those that are missing have a standard value.
-/
namespace PluginBridge

def Mode.ofDocument? (language : Document.Language) (document : Document) : Option Mode :=
  (document.choice? language).bind Mode.ofName?

def Capability.ofDocument? (language : Document.Language) (document : Document) :
    Option Capability :=
  (document.choice? language).bind Capability.ofName?

namespace Document

def strings? (document : Document) : Option (List String) :=
  document.items?.bind fun items => items.mapM string?

def itemsOf? {α : Type} (read? : Document → Option α) (document : Document) : Option (List α) :=
  document.items?.bind fun items => items.mapM read?

end Document

def ServerSection.ofDocument? (language : Document.Language) (document : Document) :
    Option ServerSection := do
  match ← document.fields? language ["listen", "mode"] with
  | [listen, mode] =>
    some {
      listen := ← Document.fieldOr? "" Document.string? listen
      mode := ← Document.fieldOr? .standard (Mode.ofDocument? language) mode }
  | _ => none

def HostSection.ofDocument? (language : Document.Language) (document : Document) :
    Option HostSection := do
  match ← document.fields? language ["connect", "callback_bind", "mode"] with
  | [connect, callbackBind, mode] =>
    some {
      connect := ← Document.fieldOr? "" Document.string? connect
      callbackBind := ← Document.fieldOr? "127.0.0.1:0" Document.string? callbackBind
      mode := ← Document.fieldOr? .standard (Mode.ofDocument? language) mode }
  | _ => none

def Endpoint.ofDocument? (language : Document.Language) (document : Document) :
    Option Endpoint := do
  match ← document.fields? language ["name", "capability", "implementation", "config"] with
  | [name, capability, implementation, config] =>
    some {
      name := ← Document.need? Document.string? name
      capability := ← Document.need? (Capability.ofDocument? language) capability
      implementation := ← Document.need? Document.string? implementation
      config := ← Document.fieldOr? .null Document.toJson? config }
  | _ => none

def Config.searchPathsOf? (language : Document.Language) (document : Document) :
    Option (List String) := do
  match ← document.fields? language ["search_paths"] with
  | [paths] => Document.fieldOr? [] Document.strings? paths
  | _ => none

def Config.ofDocument? (language : Document.Language) (document : Document) : Option Config := do
  match ← document.fields? language ["server", "host", "endpoints", "plugins"] with
  | [server, host, endpoints, plugins] =>
    some {
      server := ← Document.fieldOr? none
        (Document.optional? (ServerSection.ofDocument? language)) server
      host := ← Document.fieldOr? none (Document.optional? (HostSection.ofDocument? language)) host
      endpoints := ← Document.fieldOr? []
        (Document.itemsOf? (Endpoint.ofDocument? language)) endpoints
      searchPaths := ← Document.fieldOr? none
        (Document.optional? (Config.searchPathsOf? language)) plugins }
  | _ => none

def ServerSection.toJson (server : ServerSection) : Json :=
  .object [("listen", .string server.listen), ("mode", .string server.mode.name)]

def HostSection.toJson (host : HostSection) : Json :=
  .object [("callback_bind", .string host.callbackBind), ("connect", .string host.connect),
    ("mode", .string host.mode.name)]

def Endpoint.toJson (endpoint : Endpoint) : Json :=
  .object [("capability", .string endpoint.capability.name), ("config", endpoint.config),
    ("implementation", .string endpoint.implementation), ("name", .string endpoint.name)]

def Config.toJson (config : Config) : Json :=
  let orNull {α : Type} (write : α → Json) : Option α → Json
    | some a => write a
    | none => .null
  let plugins (paths : List String) : Json :=
    .object [("search_paths", .array (paths.map .string))]
  .object [
    ("endpoints", .array (config.endpoints.map Endpoint.toJson)),
    ("host", orNull HostSection.toJson config.host),
    ("plugins", orNull plugins config.searchPaths),
    ("server", orNull ServerSection.toJson config.server)]

end PluginBridge
