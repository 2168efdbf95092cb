import PluginBridge.Json

/-!
# Documents

What a document holds, as written: tables keep the order and the repetitions of their members. Some
parts are well formed but cannot be read, such as a number beyond all doubles; they matter only to
a reader that needs them. A structure may be written as a table or as the array of its fields, an
alternative by its name or as a table of one member.
-/
namespace PluginBridge

inductive Document where
  | null
  | bool (truth : Bool)
  | integer (n : Int)
  | real (number : Binary64)
  | string (text : String)
  | array (items : List Document)
  | table (members : List (String × Document))
  | unreadable
deriving Inhabited

inductive Document.Language where
  | json
  | toml
deriving DecidableEq, Inhabited

namespace Document

def string? : Document → Option String
  | string text => some text
  | _ => none

def bool? : Document → Option Bool
  | bool truth => some truth
  | _ => none

def items? : Document → Option (List Document)
  | array items => some items
  | _ => none

def number? : Document → Option Binary64
  | integer n => some (.ofInt n)
  | real number => some number
  | _ => none

def word32? : Document → Option UInt32
  | integer n => if 0 ≤ n ∧ n < 0x100000000 then some (UInt32.ofNat n.toNat) else none
  | _ => none

def optional? {α : Type} (read? : Document → Option α) : Document → Option (Option α)
  | null => some none
  | document => (read? document).map some

/-- The content of the field with a name, none if it is absent; fails if it occurs twice. -/
def field? (members : List (String × Document)) (name : String) : Option (Option Document) :=
  match members.filter fun member => member.1 == name with
  | [] => some none
  | [(_, content)] => some (some content)
  | _ => none

mutual

def isReadable : Document → Bool
  | array items => areReadable items
  | table members => membersAreReadable members
  | unreadable => false
  | _ => true

def areReadable : List Document → Bool
  | [] => true
  | item :: rest => item.isReadable && areReadable rest

def membersAreReadable : List (String × Document) → Bool
  | [] => true
  | (_, content) :: rest => content.isReadable && membersAreReadable rest

end

/-- The contents of the named fields of a structure. In JSON there are no items beyond the fields,
and other members are passed over unread; in TOML these are read. -/
def fields? (language : Language) (names : List String) :
    Document → Option (List (Option Document))
  | table members =>
    let others := members.filter fun member => !names.contains member.1
    if language = .toml ∧ !membersAreReadable others then none else names.mapM (field? members)
  | array items =>
    if language = .json ∧ names.length < items.length then none
    else some ((List.range names.length).map fun position => items[position]?)
  | _ => none

def fieldOr? {α : Type} (absent : α) (read? : Document → Option α) : Option Document → Option α
  | none => some absent
  | some document => read? document

def need? {α : Type} (read? : Document → Option α) (field : Option Document) : Option α :=
  field.bind read?

/-- The name of an alternative without content. Behind the name a table may hold null in JSON and
an empty table or array in TOML. -/
def choice? (language : Language) : Document → Option String
  | string name => some name
  | table [(name, content)] =>
    match language, content with
    | .json, null => some name
    | .toml, table [] => some name
    | .toml, array [] => some name
    | _, _ => none
  | _ => none

mutual

/-- The JSON value of a document; of two members with one name the last counts. -/
def toJson? : Document → Option Json
  | null => some .null
  | bool truth => some (.bool truth)
  | integer n =>
    if -0x8000000000000000 ≤ n ∧ n < 0x10000000000000000 then some (.integer n) else none
  | real number => some (.ofNumber number)
  | string text => some (.string text)
  | array items => (toJsonItems? items).map .array
  | table members => (toJsonMembers? members).map fun members => .object (Fields.ofList members)
  | unreadable => none

def toJsonItems? : List Document → Option (List Json)
  | [] => some []
  | item :: rest => do
    let json ← toJson? item
    let jsons ← toJsonItems? rest
    some (json :: jsons)

def toJsonMembers? : List (String × Document) → Option (List (String × Json))
  | [] => some []
  | (name, document) :: rest => do
    let json ← toJson? document
    let jsons ← toJsonMembers? rest
    some ((name, json) :: jsons)

end

mutual

def ofJson : Json → Document
  | .null => null
  | .bool truth => bool truth
  | .integer n => integer n
  | .real number => real number
  | .string text => string text
  | .array items => array (ofJsonItems items)
  | .object members => table (ofJsonMembers members)

def ofJsonItems : List Json → List Document
  | [] => []
  | item :: rest => ofJson item :: ofJsonItems rest

def ofJsonMembers : List (String × Json) → List (String × Document)
  | [] => []
  | (name, json) :: rest => (name, ofJson json) :: ofJsonMembers rest

end

end Document

end PluginBridge
