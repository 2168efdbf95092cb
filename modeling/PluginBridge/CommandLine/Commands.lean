import PluginBridge.CommandLine.Command
import PluginBridge.CommandLine.Console
import PluginBridge.CommandLine.Example
import PluginBridge.CommandLine.Program
import PluginBridge.CommandLine.Report
import PluginBridge.CommandLine.Request
import PluginBridge.Config.Document
import PluginBridge.Document.Toml
import PluginBridge.Interpolation
import PluginBridge.Json.Printer
import PluginBridge.Manifest
import PluginBridge.Overrides

/-!
# Carrying out commands

Each command as a program. A command that fails reports why and ends with the code one.
-/
namespace PluginBridge

def Config.parse? (read? : String → Option String) (text : String) : Option Config :=
  (Document.ofToml? (Interpolation.expand read? text)).bind (Config.ofDocument? .toml)

namespace CommandLine

open Program (OrFail orFail printing)

def versionText : String := "0.1.0"

def loadConfig (path : String) : OrFail Config := do
  let read ← ExceptT.lift (Program.readFile path .done)
  let text ← orFail (fun error => .context s!"failed to read config file {path}" (.io error)) read
  let settings ← ExceptT.lift (Program.lookUp (Interpolation.names text) .done)
  match Config.parse? (fun name => settings.lookup name) text with
  | some config => return config
  | none => throw (.context s!"failed to parse {path}" (.text "malformed configuration"))

def loadValid (path : String) : OrFail Config := do
  let config ← loadConfig path
  orFail ConfigError.toFailure config.validate
  return config

def serve (path : String) : OrFail Unit := do
  let config ← loadValid path
  let role ← orFail ConfigError.toFailure config.serverRole
  let host ← orFail id (config.pluginHost role.mode)
  let result ← ExceptT.lift (Program.listen role host .done)
  orFail (fun error => .transport (.io error)) result

def connect (role : HostRole) : OrFail (Link Deployment) := do
  let result ← ExceptT.lift (Program.reach role.connect .done)
  let failure (error : IoError) : Failure :=
    .context s!"failed to reach plugin at {role.connect.text}"
      (.transport (.dial role.connect.text error))
  orFail failure result

/-- The result of calls on a fresh link, and what they did to the world. Calls that never return
count as a lost connection. -/
def converse {τ α : Type} (link : Link Deployment) (state : τ)
    (calls : Calls Deployment τ (Except Failure α)) : τ × Except Failure α :=
  match calls (link, state) with
  | (some result, (_, state)) => (state, result)
  | (none, (_, state)) => (state, .error (.transport .connectionClosed))

def query (path : String) (endpoint? : Option String) (pairs : List String) : OrFail Unit := do
  let config ← loadValid path
  let endpoint ← orFail ConfigError.toFailure (config.pickEndpoint endpoint? .datasource)
  let overrides ← orFail (fun error => .text error.message) (Overrides.parse pairs)
  let role ← orFail ConfigError.toFailure config.hostRole
  let link ← connect role
  let remote : RemoteEndpoint := ⟨endpoint.name, Codec.ofMode role.mode⟩
  let calls := remote.query World.unreachable endpoint.configValue (.object overrides)
  let answer ← orFail id (converse link () calls).2
  printing (answer.sorted.pretty ++ "\n")

def showLine : ConsoleLine → Program Unit
  | .output text => .print text (.done ())
  | .error text => .complain text (.done ())

def build (path : String) (endpoint? : Option String) (pairs : List String) (name : String) :
    OrFail Unit := do
  let config ← loadValid path
  let endpoint ← orFail ConfigError.toFailure (config.pickEndpoint endpoint? .builder)
  let overrides ← orFail (fun error => .text error.message) (Overrides.parse pairs)
  let prepared := Overrides.merge endpoint.configValue (.object overrides)
  let role ← orFail ConfigError.toFailure config.hostRole
  let link ← connect role
  let remote : RemoteEndpoint := ⟨endpoint.name, Codec.ofMode role.mode⟩
  let calls := remote.build World.unreachable (consoleHost name) (.ok role.callbackBind) prepared
  let (lines, result) := converse link [] calls
  ExceptT.lift (lines.forM showLine)
  orFail id result

def validate (path : String) : OrFail Unit := do
  let config ← loadValid path
  let _ ← config.endpoints.mapM fun endpoint => orFail ConfigError.toFailure endpoint.instantiate
  printing s!"configuration OK: {path}\n"

def join (folder name : String) : String :=
  if folder.toList.getLast? = some '/' then folder ++ name else folder ++ "/" ++ name

/-- Whether the name of a file ends in `.json` behind something else. -/
def isManifestName (name : String) : Bool :=
  let chars := name.toList
  ".json".toList.isSuffixOf chars && 5 < chars.length

/-- The manifests in a folder by the names of their plugins; none if there is no such folder. -/
def discover (folder : String) : OrFail (List Manifest) := do
  match ← ExceptT.lift (Program.listFolder folder .done) with
  | none => return []
  | some listed =>
    let names ← orFail .io listed
    let manifests ← (names.filter isManifestName).mapM fun name => do
      let path := join folder name
      let text ← orFail .io (← ExceptT.lift (Program.readFile path .done))
      match Manifest.parse? text with
      | some manifest => pure manifest
      | none =>
        throw (.context s!"failed to parse manifest {path}" (.text "malformed manifest"))
    return manifests.mergeSort fun left right => decide (left.name ≤ right.name)

def describe (manifest : Manifest) : String :=
  let description := match manifest.description with
    | some text => s!": {text}"
    | none => ""
  let warning := if manifest.isCompatible Manifest.hostVersion then ""
    else s!" (incompatible with host API {Manifest.hostVersion.text})"
  let provisions := manifest.provisions.map fun provision =>
    s!"    {provision.capability.name} at {provision.endpoint}\n"
  s!"- {manifest.name} v{manifest.version} [{manifest.mode.name}]" ++ description ++ warning ++
    "\n" ++ String.join provisions

def listPlugins (folder : String) : OrFail Unit := do
  match ← discover folder with
  | [] => printing s!"no plugin manifests found under {folder}\n"
  | manifests => printing (String.join (manifests.map describe))

def diagnose (path : String) : OrFail Unit := do
  let config ← loadConfig path
  let codec (mode : Mode) : String × Json := (mode.name, .string mode.codecName)
  let implementations (capability : Capability) : String × Json :=
    (capability.name, .array ((Implementation.names capability).map .string))
  let json : Json := .object [
    ("version", .string versionText),
    ("api_version", .string Manifest.hostVersion.text),
    ("codecs", .object [codec .legacy, codec .current]),
    ("implementations", .object [implementations .datasource, implementations .builder]),
    ("config", config.toJson)]
  printing (json.sorted.pretty ++ "\n")

def Command.perform : Command → OrFail Unit
  | serve config => CommandLine.serve config
  | query config endpoint? overrides _ => CommandLine.query config endpoint? overrides
  | build config endpoint? overrides name => CommandLine.build config endpoint? overrides name
  | validate config => CommandLine.validate config
  | showExample => printing (exampleConfig ++ "\n")
  | listPlugins folder => CommandLine.listPlugins folder
  | diagnose config => CommandLine.diagnose config

def Command.run (command : Command) : Program Nat := do
  match ← command.perform.run with
  | .ok () => return 0
  | .error failure => .complain (Report.render failure) (.done 1)

/-- Carries out the command of a command line. One that is misused ends with the code two. -/
def run (words : List String) : Program Nat :=
  match Command.parse words with
  | .ok command => command.run
  | .error .help => .done 0
  | .error .version => .print s!"ferry {versionText}\n" (.done 0)
  | .error .misuse => .done 2

end CommandLine

end PluginBridge
