import PluginBridge.CommandLine.Options
import PluginBridge.Text.Digit

/-!
# Commands

What can be asked for on the command line.
-/
namespace PluginBridge.CommandLine

inductive Command where
  | serve (config : String)
  | query (config : String) (endpoint? : Option String) (overrides : List String)
      (timeout? : Option Nat)
  | build (config : String) (endpoint? : Option String) (overrides : List String) (name : String)
  | validate (config : String)
  | showExample
  | listPlugins (folder : String)
  /-- Shows the configuration and what the bridge can do. -/
  | diagnose (config : String)
deriving DecidableEq, Inhabited

namespace Command

def defaultConfig : String := "demos/config/minimal.ferry.toml"

def defaultFolder : String := "demos/plugins"

def defaultBuildName : String := "ferry"

/-- A natural number of at most 64 bits, perhaps with a plus sign. -/
def number? (text : String) : Option Nat :=
  let unsigned := match text.toList with
    | '+' :: rest => rest
    | all => all
  match Text.digits 10 unsigned with
  | ([], _) => none
  | (digits, []) =>
    let n := Text.ofDigits 10 digits
    if n < (1 <<< 64) then some n else none
  | _ => none

def isPath (text : String) : Bool :=
  text != ""

/-- The option that every level has. -/
def logLevel : Flag := { long := "log-level" }

def configFlag : Flag := { long := "config", short := some 'c', accepts := isPath }

def endpointFlag : Flag := { long := "endpoint" }

def overrideFlag : Flag := { long := "set", repeats := true }

def timeoutFlag : Flag := { long := "timeout-ms", accepts := fun text => (number? text).isSome }

def nameFlag : Flag := { long := "name" }

def folderFlag : Flag := { long := "dir", accepts := isPath }

def configOf (reading : Reading) : String :=
  (reading.value? "config").getD defaultConfig

/-- What help can be asked about, besides the whole. -/
def helpTopics : List (List String) :=
  [["serve"], ["query"], ["build"], ["config"], ["config", "validate"], ["config", "example"],
    ["plugins"], ["plugins", "list"], ["diag"], ["help"], ["config", "help"], ["plugins", "help"]]

def help (before topic : List String) : Stop :=
  if topic = [] ∨ before ++ topic ∈ helpTopics then .help else .misuse

def parseConfig (words : List String) : Except Stop Command := do
  let level : Level := { flags := [logLevel], commands := ["validate", "example", "help"] }
  match (← level.read {} words).command with
  | some ("validate", rest) =>
    let level : Level := { flags := [logLevel], operand := some isPath }
    match (← level.read {} rest).operand with
    | some config => return validate config
    | none => throw .misuse
  | some ("example", rest) =>
    let _ ← Level.read { flags := [logLevel] } {} rest
    return showExample
  | some ("help", rest) => throw (help ["config"] rest)
  | _ => throw .misuse

def parsePlugins (words : List String) : Except Stop Command := do
  let level : Level := { flags := [logLevel], commands := ["list", "help"] }
  match (← level.read {} words).command with
  | some ("list", rest) =>
    let reading ← Level.read { flags := [logLevel, folderFlag] } {} rest
    return listPlugins ((reading.value? "dir").getD defaultFolder)
  | some ("help", rest) => throw (help ["plugins"] rest)
  | _ => throw .misuse

def parse (words : List String) : Except Stop Command := do
  let level : Level := {
    flags := [logLevel]
    commands := ["serve", "query", "build", "config", "plugins", "diag", "help"]
    version := true }
  match (← level.read {} words).command with
  | some ("serve", rest) =>
    let reading ← Level.read { flags := [logLevel, configFlag] } {} rest
    return serve (configOf reading)
  | some ("query", rest) =>
    let flags := [logLevel, configFlag, endpointFlag, overrideFlag, timeoutFlag]
    let reading ← Level.read { flags := flags } {} rest
    return query (configOf reading) (reading.value? "endpoint") (reading.all "set")
      ((reading.value? "timeout-ms").bind number?)
  | some ("build", rest) =>
    let flags := [logLevel, configFlag, endpointFlag, overrideFlag, nameFlag]
    let reading ← Level.read { flags := flags } {} rest
    return build (configOf reading) (reading.value? "endpoint") (reading.all "set")
      ((reading.value? "name").getD defaultBuildName)
  | some ("config", rest) => parseConfig rest
  | some ("plugins", rest) => parsePlugins rest
  | some ("diag", rest) =>
    let reading ← Level.read { flags := [logLevel, configFlag] } {} rest
    return diagnose (configOf reading)
  | some ("help", rest) => throw (help [] rest)
  | _ => throw .misuse

end Command

end PluginBridge.CommandLine
