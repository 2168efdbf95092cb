import PluginBridge.CommandLine.Commands

/-!
# The program

Carries out the command of the command line on the real files, folders, variables and outputs. There
is no network here: nothing is reached or served.
-/
namespace PluginBridge.Main

open CommandLine

/-- The failures that have numbers of their own; some come with the number negated. -/
def ioError : IO.Error → IoError
  | .noFileOrDirectory .. => .noSuchFile
  | .inappropriateType _ code _ =>
    if code = 21 ∨ code = -21 then .isADirectory else .notADirectory
  | .invalidArgument _ code text =>
    if code = 36 ∨ code = -36 then .nameTooLong else .other text
  | error => .other error.toString

def attempt {α : Type} (action : IO α) : IO (Except IoError α) := do
  match ← action.toBaseIO with
  | .ok a => return .ok a
  | .error error => return .error (ioError error)

def readFile (path : String) : IO (Except IoError String) := do
  match ← attempt (IO.FS.readBinFile path) with
  | .error error => return .error error
  | .ok bytes =>
    match String.fromUTF8? bytes with
    | some text => return .ok text
    | none => return .error .invalidText

def listFolder (path : String) : IO (Option (Except IoError (List String))) := do
  let names : IO (List String) := do
    let folder ← IO.FS.realPath path
    return (← folder.readDir).toList.map (·.fileName)
  match ← attempt names with
  | .ok names => return some (.ok names)
  | .error error =>
    match ← attempt (IO.FS.realPath path) with
    | .error _ => return none
    | .ok _ => return some (.error error)

def lookUp (names : List String) : IO (List (String × String)) :=
  names.filterMapM fun name => return (← IO.getEnv name).map (name, ·)

def perform {α : Type} : Program α → IO α
  | .done result => return result
  | .readFile path next => do perform (next (← readFile path))
  | .listFolder path next => do perform (next (← listFolder path))
  | .lookUp names next => do perform (next (← lookUp names))
  | .print text next => do
    IO.print text
    perform next
  | .complain text next => do
    IO.eprint text
    perform next
  | .listen _ _ next => perform (next (.error .networkUnreachable))
  | .reach _ next => perform (next (.error .networkUnreachable))

end PluginBridge.Main

def main (words : List String) : IO UInt32 := do
  let code ← PluginBridge.Main.perform (PluginBridge.CommandLine.run words)
  return UInt32.ofNat code
