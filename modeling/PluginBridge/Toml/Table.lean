import PluginBridge.Document

/-!
# Tables of TOML

Tables while a text is read. A table is opened by a header of its own, implied by a longer header,
or implied by a key with points; which of these decides what may still be added to it. A value that
was written out is closed.
-/
namespace PluginBridge.Toml

inductive Origin where
  | header
  | impliedByHeader
  | impliedByKey
deriving DecidableEq, Inhabited

inductive Node where
  | closed (content : Document)
  | table (origin : Origin) (members : List (String × Node))
  | tables (items : List (List (String × Node)))
deriving Inhabited

/-- The members of a table, in the order of their first mention. -/
abbrev Members := List (String × Node)

namespace Members

def replace (name : String) (node : Node) (members : Members) : Members :=
  members.map fun member => if member.1 = name then (name, node) else member

def changeLast (change : Members → Option Members) : List Members → Option (List Members)
  | [] => none
  | [last] => (change last).map fun last => [last]
  | first :: rest => (changeLast change rest).map (first :: ·)

/-- Changes the table that the names of a header lead to. Tables on the way are implied, and an
array of tables stands for its last. -/
def changeAt (change : Members → Option Members) : List String → Members → Option Members
  | [], members => change members
  | name :: path, members =>
    match members.lookup name with
    | none => do
      let inner ← changeAt change path []
      some (members ++ [(name, .table .impliedByHeader inner)])
    | some (.table origin inner) => do
      let inner ← changeAt change path inner
      some (members.replace name (.table origin inner))
    | some (.tables items) => do
      let items ← changeLast (changeAt change path) items
      some (members.replace name (.tables items))
    | some (.closed _) => none

/-- Opens a table. One that a longer header implied is opened late; any other is taken. -/
def openTable (name : String) (members : Members) : Option Members :=
  match members.lookup name with
  | none => some (members ++ [(name, .table .header [])])
  | some (.table .impliedByHeader inner) => some (members.replace name (.table .header inner))
  | some _ => none

def openItem (name : String) (members : Members) : Option Members :=
  match members.lookup name with
  | none => some (members ++ [(name, .tables [[]])])
  | some (.tables items) => some (members.replace name (.tables (items ++ [[]])))
  | some _ => none

/-- Gives a value to a key, whose last name must be new. Tables that its other names lead to must be
implied, the last of them by such a key, unless they begin here. -/
def assign (content : Document) : List String → Members → Option Members
  | [], _ => none
  | [name], members =>
    if (members.lookup name).isSome then none else some (members ++ [(name, .closed content)])
  | name :: path, members =>
    match members.lookup name with
    | none => do
      let inner ← assign content path []
      some (members ++ [(name, .table .impliedByKey inner)])
    | some (.table origin inner) =>
      if origin = .header ∨ (path.length = 1 ∧ origin ≠ .impliedByKey) then none
      else do
        let inner ← assign content path inner
        some (members.replace name (.table origin inner))
    | some (.tables items) =>
      if path.length = 1 then none
      else do
        let items ← changeLast (assign content path) items
        some (members.replace name (.tables items))
    | some (.closed _) => none

end Members

mutual

def Node.document : Node → Document
  | .closed content => content
  | .table _ members => .table (membersDocument members)
  | .tables items => .array (itemsDocument items)

def membersDocument : List (String × Node) → List (String × Document)
  | [] => []
  | (name, node) :: rest => (name, node.document) :: membersDocument rest

def itemsDocument : List (List (String × Node)) → List Document
  | [] => []
  | members :: rest => .table (membersDocument members) :: itemsDocument rest

end

end PluginBridge.Toml
