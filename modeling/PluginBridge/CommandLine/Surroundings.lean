import PluginBridge.CommandLine.Program
import PluginBridge.Text.Utf8

/-!
# Surroundings

Given files, variables and plugins, and what a program does among them. The files lie in one folder,
where paths begin, and folders in it exist as far as files lie in them. What is outside of it is not
known, except that there are folders.
-/
namespace PluginBridge.CommandLine

structure Surroundings where
  files : List (String × Bytes) := []
  settings : List (String × String) := []
  plugin : SocketAddress → Except IoError (Link Deployment) := fun _ => .error .networkUnreachable

/-- What a program came to: where it listens if it does not end, and what it has printed. -/
structure Run (α : Type) where
  result : Except ServerRole α
  output : String := ""
  errors : String := ""

namespace Surroundings

/-- A place in the folder of the files, by the names that lead to it from there, or outside. -/
inductive Place where
  | inside (names : List String)
  | outside

namespace Place

def parent : Place → Place
  | inside [] => outside
  | inside names => inside names.dropLast
  | outside => outside

/-- What has a name in a folder. No name outside leads to anything. -/
def child? (name : String) : Place → Option Place
  | inside names => some (inside (names ++ [name]))
  | outside => none

end Place

inductive Content where
  | file (bytes : Bytes)
  | folder (names : List String)

def names (path : String) : List String :=
  path.splitOn "/"

def namedFiles (surroundings : Surroundings) : List (List String × Bytes) :=
  surroundings.files.map fun (path, bytes) =>
    ((names path).filter fun name => name != "" && name != ".", bytes)

/-- The names in the folder that `here` leads to, each once and in ascending order. -/
def listed (here : List String) (files : List (List String × Bytes)) : List String :=
  let inner := files.filterMap fun (names, _) =>
    if here.isPrefixOf names then (names.drop here.length).head? else none
  (inner.mergeSort fun left right => decide (left ≤ right)).eraseDups

def contentAt? (surroundings : Surroundings) : Place → Option Content
  | .outside => some (.folder [])
  | .inside here =>
    let files := surroundings.namedFiles
    match files.lookup here, listed here files with
    | some bytes, _ => some (.file bytes)
    | none, [] => if here.isEmpty then some (.folder []) else none
    | none, names => some (.folder names)

/-- The longest name, and the longest path, in bytes. -/
def longestName : Nat := 255

def longestPath : Nat := 4095

/-- Goes one name further along a path. Only a folder is left behind a slash. -/
def follow (surroundings : Surroundings) (place : Place) (name : String) :
    Except IoError Place :=
  match surroundings.contentAt? place with
  | some (.folder _) =>
    if name = "" ∨ name = "." then .ok place
    else if name = ".." then .ok place.parent
    else if longestName < (Text.utf8 name).length then .error .nameTooLong
    else match place.child? name with
      | some child =>
        if (surroundings.contentAt? child).isSome then .ok child else .error .noSuchFile
      | none => .error .noSuchFile
  | _ => .error .notADirectory

def find (surroundings : Surroundings) (path : String) : Except IoError Content := do
  if path = "" then throw .noSuchFile
  if longestPath < (Text.utf8 path).length then throw .nameTooLong
  let start := if path.toList.head? = some '/' then Place.outside else .inside []
  let place ← (names path).foldlM surroundings.follow start
  match surroundings.contentAt? place with
  | some content => return content
  | none => throw .noSuchFile

def readFile (surroundings : Surroundings) (path : String) : Except IoError String := do
  match ← surroundings.find path with
  | .folder _ => throw .isADirectory
  | .file bytes =>
    match Text.ofUtf8? bytes with
    | some text => return text
    | none => throw .invalidText

def listFolder (surroundings : Surroundings) (path : String) :
    Option (Except IoError (List String)) :=
  match surroundings.find path with
  | .error _ => none
  | .ok (.folder names) => some (.ok names)
  | .ok (.file _) => some (.error .notADirectory)

end Surroundings

def Program.carryOut {α : Type} (surroundings : Surroundings) (output errors : String) :
    Program α → Run α
  | done result => ⟨.ok result, output, errors⟩
  | readFile path next =>
    (next (surroundings.readFile path)).carryOut surroundings output errors
  | listFolder path next =>
    (next (surroundings.listFolder path)).carryOut surroundings output errors
  | lookUp names next =>
    let found := surroundings.settings.filter fun entry => names.contains entry.1
    (next found).carryOut surroundings output errors
  | print text next => next.carryOut surroundings (output ++ text) errors
  | complain text next => next.carryOut surroundings output (errors ++ text)
  | listen role _ _ => ⟨.error role, output, errors⟩
  | reach address next =>
    (next (surroundings.plugin address)).carryOut surroundings output errors

def Program.runIn {α : Type} (surroundings : Surroundings) (program : Program α) : Run α :=
  program.carryOut surroundings "" ""

end PluginBridge.CommandLine
