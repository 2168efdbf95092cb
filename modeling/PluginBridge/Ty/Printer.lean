import PluginBridge.Ty

/-!
# Type expressions, written

A type as text: `list(string)`, `tuple([bool, any])`, `object({name=string, "a b"=number})`. An
attribute name of letters, digits, `_` and `-` stands bare; any other is quoted, with a backslash
before each quote and each backslash.
-/
namespace PluginBridge.Ty

def isNameChar (c : Char) : Bool :=
  ('a' ≤ c && c ≤ 'z') || ('A' ≤ c && c ≤ 'Z') || ('0' ≤ c && c ≤ '9') || c == '_' || c == '-'

def isBareName (name : List Char) : Bool :=
  !name.isEmpty && name.all isNameChar

def escapeName : List Char → List Char
  | [] => []
  | c :: rest => if c = '"' ∨ c = '\\' then '\\' :: c :: escapeName rest else c :: escapeName rest

def writeName (name : String) : List Char :=
  if isBareName name.toList then name.toList else '"' :: (escapeName name.toList ++ ['"'])

mutual

def write : Ty → List Char
  | any => "any".toList
  | bool => "bool".toList
  | number => "number".toList
  | string => "string".toList
  | list item => "list(".toList ++ write item ++ [')']
  | set item => "set(".toList ++ write item ++ [')']
  | map item => "map(".toList ++ write item ++ [')']
  | tuple [] => "tuple([])".toList
  | tuple (item :: rest) => "tuple([".toList ++ write item ++ writeItems rest ++ "])".toList
  | object [] => "object(\x7b\x7d)".toList
  | object ((name, ty) :: rest) =>
    "object(\x7b".toList ++ writeName name ++ '=' :: write ty ++ writeAttributes rest ++
      "\x7d)".toList

/-- The items after the first, each behind a comma. -/
def writeItems : List Ty → List Char
  | [] => []
  | item :: rest => ", ".toList ++ write item ++ writeItems rest

def writeAttributes : List (String × Ty) → List Char
  | [] => []
  | (name, ty) :: rest =>
    ", ".toList ++ writeName name ++ '=' :: write ty ++ writeAttributes rest

end

def expression (ty : Ty) : String :=
  String.ofList ty.write

end PluginBridge.Ty
