import PluginBridge.Text.Blank
import PluginBridge.Ty.Printer

/-!
# Type expressions, read

Reading a type from text. Blank characters may stand before every token and at the end. A failure
says what was expected and how many bytes of the text stand before the fault.
-/
namespace PluginBridge.Ty

inductive ParseReason where
  | trailingInput
  | expected (token : Char)
  | expectedKeyword
  | unknownType (keyword : String)
  | expectedName
  | unterminatedName
deriving DecidableEq, Inhabited

def ParseReason.message : ParseReason → String
  | trailingInput => "trailing input"
  | expected token => s!"expected `{token}`"
  | expectedKeyword => "expected type keyword"
  | unknownType keyword => s!"unknown type `{keyword}`"
  | expectedName => "expected attribute name"
  | unterminatedName => "unterminated attribute name"

/-- Why a text is no type expression, and the bytes before the fault. -/
structure ParseError where
  offset : Nat
  reason : ParseReason
deriving DecidableEq, Inhabited

def ParseError.message (error : ParseError) : String :=
  s!"invalid type expression at offset {error.offset}: {error.reason.message}"

structure Fault where
  reason : ParseReason
  rest : List Char
deriving Inhabited

def eat? (token : Char) (text : List Char) : Option (List Char) :=
  match Text.dropBlank text with
  | c :: rest => if c = token then some rest else none
  | [] => none

def expect (token : Char) (text : List Char) : Except Fault (List Char) :=
  match eat? token text with
  | some rest => .ok rest
  | none => .error ⟨.expected token, Text.dropBlank text⟩

def quotedName? : List Char → Option (List Char × List Char)
  | [] => none
  | '"' :: rest => some ([], rest)
  | '\\' :: c :: rest => (quotedName? rest).map fun (name, rest) => (c :: name, rest)
  | c :: rest =>
    if c = '\\' then none else (quotedName? rest).map fun (name, rest) => (c :: name, rest)

def parseName (text : List Char) : Except Fault (String × List Char) :=
  match eat? '"' text with
  | some rest =>
    match quotedName? rest with
    | some (name, rest) => .ok (String.ofList name, rest)
    | none => .error ⟨.unterminatedName, []⟩
  | none =>
    let start := Text.dropBlank text
    let name := start.takeWhile isNameChar
    if name.isEmpty then .error ⟨.expectedName, start⟩
    else .ok (String.ofList name, start.dropWhile isNameChar)

mutual

/-- Reads a type. Each call of a reader for a part takes one unit of fuel. -/
def parseTy : Nat → List Char → Except Fault (Ty × List Char)
  | 0, text => .error ⟨.expectedKeyword, text⟩
  | fuel + 1, text =>
    let start := Text.dropBlank text
    let keyword := String.ofList (start.takeWhile isNameChar)
    let rest := start.dropWhile isNameChar
    match keyword with
    | "any" => .ok (any, rest)
    | "bool" => .ok (bool, rest)
    | "number" => .ok (number, rest)
    | "string" => .ok (string, rest)
    | "list" => parseElement list fuel rest
    | "set" => parseElement set fuel rest
    | "map" => parseElement map fuel rest
    | "tuple" => do
      let rest ← expect '(' rest
      let rest ← expect '[' rest
      match eat? ']' rest with
      | some rest => do
        let rest ← expect ')' rest
        .ok (tuple [], rest)
      | none => do
        let (items, rest) ← parseItems fuel rest
        let rest ← expect ')' rest
        .ok (tuple items, rest)
    | "object" => do
      let rest ← expect '(' rest
      let rest ← expect '\x7b' rest
      match eat? '\x7d' rest with
      | some rest => do
        let rest ← expect ')' rest
        .ok (object [], rest)
      | none => do
        let (attributes, rest) ← parseAttributes fuel rest
        let rest ← expect ')' rest
        .ok (object (Fields.ofList attributes), rest)
    | "" => .error ⟨.expectedKeyword, rest⟩
    | other => .error ⟨.unknownType other, rest⟩

def parseElement (container : Ty → Ty) : Nat → List Char → Except Fault (Ty × List Char)
  | 0, text => .error ⟨.expectedKeyword, text⟩
  | fuel + 1, text => do
    let rest ← expect '(' text
    let (item, rest) ← parseTy fuel rest
    let rest ← expect ')' rest
    .ok (container item, rest)

def parseItems : Nat → List Char → Except Fault (List Ty × List Char)
  | 0, text => .error ⟨.expectedKeyword, text⟩
  | fuel + 1, text => do
    let (item, rest) ← parseTy fuel text
    match eat? ']' rest with
    | some rest => .ok ([item], rest)
    | none => do
      let rest ← expect ',' rest
      let (items, rest) ← parseItems fuel rest
      .ok (item :: items, rest)

/-- Reads the attributes of an object, as written, up to the closing brace. -/
def parseAttributes : Nat → List Char → Except Fault (List (String × Ty) × List Char)
  | 0, text => .error ⟨.expectedKeyword, text⟩
  | fuel + 1, text => do
    let (name, rest) ← parseName text
    let rest ← expect '=' rest
    let (ty, rest) ← parseTy fuel rest
    match eat? '\x7d' rest with
    | some rest => .ok ([(name, ty)], rest)
    | none => do
      let rest ← expect ',' rest
      let (attributes, rest) ← parseAttributes fuel rest
      .ok ((name, ty) :: attributes, rest)

end

def byteLength : List Char → Nat
  | [] => 0
  | c :: rest => c.utf8Size + byteLength rest

def parseAll (text : List Char) : Except Fault Ty := do
  let (ty, rest) ← parseTy (2 * text.length + 2) text
  match Text.dropBlank rest with
  | [] => .ok ty
  | rest => .error ⟨.trailingInput, rest⟩

def parse (text : String) : Except ParseError Ty :=
  match parseAll text.toList with
  | .ok ty => .ok ty
  | .error fault =>
    .error ⟨byteLength text.toList - byteLength fault.rest, fault.reason⟩

end PluginBridge.Ty
