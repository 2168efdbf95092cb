import PluginBridge.Toml.Scalar
import PluginBridge.Toml.Table
import PluginBridge.Toml.Text

/-!
# TOML documents, read

A document is a sequence of lines: headers, which open tables, and members of the table that was
opened last.
-/
namespace PluginBridge.Toml

mutual

/-- The value at the front of a text. `depth` more levels are allowed; `fuel` bounds the steps. -/
def value? : Nat → Nat → List Char → Option (Document × List Char)
  | 0, _, _ => none
  | fuel + 1, depth, text =>
    match text with
    | '[' :: rest => if depth = 0 then none else items? fuel (depth - 1) [] rest
    | '\x7b' :: rest => if depth = 0 then none else inline? fuel (depth - 1) [] rest
    | c :: _ =>
      if c = '"' ∨ c = '\'' then (string? text).map fun (t, rest) => (.string t, rest)
      else scalar? text
    | [] => none

/-- The rest of an array behind the items that were read, the last of them first. -/
def items? : Nat → Nat → List Document → List Char → Option (Document × List Char)
  | 0, _, _, _ => none
  | fuel + 1, depth, read, text =>
    match skipLines fuel text with
    | ']' :: rest => some (.array read.reverse, rest)
    | start => do
      let (item, rest) ← value? fuel depth start
      match skipLines fuel rest with
      | ',' :: rest => items? fuel depth (item :: read) rest
      | ']' :: rest => some (.array (item :: read).reverse, rest)
      | _ => none

def inline? : Nat → Nat → Members → List Char → Option (Document × List Char)
  | 0, _, _, _ => none
  | fuel + 1, depth, read, text =>
    match skipLines fuel text with
    | '\x7d' :: rest => some (.table (membersDocument read), rest)
    | start => do
      let (name, rest) ← key? fuel start
      let ('=' :: rest) := skipLines fuel rest | none
      let (content, rest) ← value? fuel depth (skipLines fuel rest)
      let read ← read.assign content name
      match skipLines fuel rest with
      | ',' :: rest => inline? fuel depth read rest
      | '\x7d' :: rest => some (.table (membersDocument read), rest)
      | _ => none

end

/-- What was read so far: all tables, and the names that lead to the open one. -/
structure Reading where
  root : Members := []
  path : List String := []
deriving Inhabited

def Reading.header (reading : Reading) (item : Bool) (names : List String) : Option Reading := do
  let name ← names.getLast?
  let change := if item then Members.openItem name else Members.openTable name
  let root ← reading.root.changeAt change names.dropLast
  some ⟨root, names⟩

def statement? (fuel : Nat) (reading : Reading) : List Char → Option (Reading × List Char)
  | '[' :: '[' :: text => do
    let (names, rest) ← key? fuel text
    let (']' :: ']' :: rest) := rest | none
    some (← reading.header true names, rest)
  | '[' :: text => do
    let (names, rest) ← key? fuel text
    let (']' :: rest) := rest | none
    some (← reading.header false names, rest)
  | text => do
    let (names, rest) ← key? fuel text
    let ('=' :: rest) := rest | none
    let (content, rest) ← value? fuel depthLimit (skipSpace rest)
    let root ← reading.root.changeAt (Members.assign content names) reading.path
    some ({ reading with root := root }, rest)

/-- Reads all lines. Each takes one unit of fuel, and its parts may take `most`. -/
def readLines (most : Nat) : Nat → Reading → List Char → Option Members
  | 0, _, _ => none
  | fuel + 1, reading, text =>
    match skipLines most text with
    | [] => some reading.root
    | start => do
      let (reading, rest) ← statement? most reading start
      match skipComment rest with
      | [] => some reading.root
      | rest => do readLines most fuel reading (← lineEnd? rest)

end PluginBridge.Toml

namespace PluginBridge.Document

/-- The document that a whole TOML text is. A byte order mark at its start is skipped. -/
def ofToml? (text : String) : Option Document :=
  let chars := match text.toList with
    | '\ufeff' :: rest => rest
    | all => all
  let most := chars.length + 2
  (Toml.readLines most most {} chars).map fun members => .table (Toml.membersDocument members)

end PluginBridge.Document
