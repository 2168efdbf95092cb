import PluginBridge.Document.Json
import PluginBridge.Value

/-!
# Values as tagged JSON

JSON that keeps the kind of every value: `"Null"`, or an object of one member from the name of the
kind to the content.
-/
namespace PluginBridge.Value

def tag (name : String) (content : Json) : Json :=
  .object [(name, content)]

mutual

def toTagged : Value → Json
  | null => .string "Null"
  | bool truth => tag "Bool" (.bool truth)
  | number x => tag "Number" (.ofNumber x)
  | string text => tag "String" (.string text)
  | list items => tag "List" (.array (toTaggedItems items))
  | set items => tag "Set" (.array (toTaggedItems items))
  | tuple items => tag "Tuple" (.array (toTaggedItems items))
  | map members => tag "Map" (.object (toTaggedMembers members))
  | object members => tag "Object" (.object (toTaggedMembers members))

def toTaggedItems : List Value → List Json
  | [] => []
  | item :: rest => toTagged item :: toTaggedItems rest

def toTaggedMembers : List (String × Value) → List (String × Json)
  | [] => []
  | (name, value) :: rest => (name, toTagged value) :: toTaggedMembers rest

end

mutual

def ofTagged? : Document → Option Value
  | .string "Null" => some null
  | .table [(kind, content)] =>
    match kind, content with
    | "Null", .null => some null
    | "Bool", .bool truth => some (bool truth)
    | "Number", content => content.number?.map number
    | "String", .string text => some (string text)
    | "List", .array items => (ofTaggedItems? items).map list
    | "Set", .array items => (ofTaggedItems? items).map set
    | "Tuple", .array items => (ofTaggedItems? items).map tuple
    | "Map", .table members =>
      (ofTaggedMembers? members).map fun members => map (Fields.ofList members)
    | "Object", .table members => (ofTaggedMembers? members).map ofMembers
    | _, _ => none
  | _ => none

def ofTaggedItems? : List Document → Option (List Value)
  | [] => some []
  | item :: rest => do
    let value ← ofTagged? item
    let values ← ofTaggedItems? rest
    some (value :: values)

def ofTaggedMembers? : List (String × Document) → Option (List (String × Value))
  | [] => some []
  | (name, document) :: rest => do
    let value ← ofTagged? document
    let values ← ofTaggedMembers? rest
    some ((name, value) :: values)

end

end PluginBridge.Value
