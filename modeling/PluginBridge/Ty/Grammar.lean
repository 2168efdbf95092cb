import PluginBridge.Text.Blank
import PluginBridge.Ty.Printer

/-!
# The grammar of type expressions

Which texts are type expressions, and for which types, said without a parser. A text is spelled from
tokens, with blank characters in front of each of them and at the end, and tokens follow the rules

    type ::= any | bool | number | string | (list | set | map) ( type )
           | tuple ( [ [type {, type}] ] ) | object ( { [name = type {, name = type}] } )

where a name is a word or stands in quotes.
-/
namespace PluginBridge.Ty

inductive Token where
  | word (letters : List Char)
  | quoted (name : List Char)
  | mark (sign : Char)

def signs : List Char :=
  ['(', ')', '[', ']', '\x7b', '\x7d', ',', '=']

/-- How a name is written between quotes: a character behind a backslash stands for itself, and any
other but the quote and the backslash does without one. -/
inductive Quotes : List Char → List Char → Prop where
  | nil : Quotes [] []
  | plain {c : Char} {written name : List Char} (unquoted : c ≠ '"') (unescaped : c ≠ '\\')
      (rest : Quotes written name) : Quotes (c :: written) (c :: name)
  | escaped (c : Char) {written name : List Char} (rest : Quotes written name) :
      Quotes ('\\' :: c :: written) (c :: name)

/-- A text begins with the tokens, and the second text is what follows them. Blank characters may
stand in front of each token. No character of a word follows a word. -/
inductive Spells : List Char → List Token → List Char → Prop where
  | done (rest : List Char) : Spells rest [] rest
  | word {gap letters after rest : List Char} {tokens : List Token}
      (blank : ∀ c ∈ gap, Text.isBlank c = true) (filled : letters ≠ [])
      (named : ∀ c ∈ letters, isNameChar c = true)
      (maximal : ∀ c ∈ after.head?, isNameChar c = false) (later : Spells after tokens rest) :
      Spells (gap ++ (letters ++ after)) (.word letters :: tokens) rest
  | quoted {gap written name after rest : List Char} {tokens : List Token}
      (blank : ∀ c ∈ gap, Text.isBlank c = true) (quotes : Quotes written name)
      (later : Spells after tokens rest) :
      Spells (gap ++ '"' :: (written ++ '"' :: after)) (.quoted name :: tokens) rest
  | mark {gap after rest : List Char} {sign : Char} {tokens : List Token}
      (blank : ∀ c ∈ gap, Text.isBlank c = true) (known : sign ∈ signs)
      (later : Spells after tokens rest) :
      Spells (gap ++ sign :: after) (.mark sign :: tokens) rest

/-- The name of an attribute: a word or a name in quotes. -/
inductive Names : Token → String → Prop where
  | word (letters : List Char) : Names (.word letters) (String.ofList letters)
  | quoted (name : List Char) : Names (.quoted name) (String.ofList name)

def separated : List (List Token) → List Token
  | [] => []
  | [part] => part
  | part :: next :: rest => part ++ .mark ',' :: separated (next :: rest)

structure Attribute where
  label : Token
  name : String
  tokens : List Token
  ty : Ty

namespace Attribute

def written (attr : Attribute) : List Token :=
  attr.label :: .mark '=' :: attr.tokens

def member (attr : Attribute) : String × Ty :=
  (attr.name, attr.ty)

end Attribute

/-- The tokens follow the rules and stand for the type. Of several attributes with one name the last
counts. -/
inductive Denotes : List Token → Ty → Prop where
  | any : Denotes [.word "any".toList] .any
  | bool : Denotes [.word "bool".toList] .bool
  | number : Denotes [.word "number".toList] .number
  | string : Denotes [.word "string".toList] .string
  | list {tokens : List Token} {item : Ty} (inside : Denotes tokens item) :
      Denotes (.word "list".toList :: .mark '(' :: (tokens ++ [.mark ')'])) (.list item)
  | set {tokens : List Token} {item : Ty} (inside : Denotes tokens item) :
      Denotes (.word "set".toList :: .mark '(' :: (tokens ++ [.mark ')'])) (.set item)
  | map {tokens : List Token} {item : Ty} (inside : Denotes tokens item) :
      Denotes (.word "map".toList :: .mark '(' :: (tokens ++ [.mark ')'])) (.map item)
  | tuple {parts : List (List Token × Ty)} (each : ∀ part ∈ parts, Denotes part.1 part.2) :
      Denotes (.word "tuple".toList :: .mark '(' :: .mark '[' ::
        (separated (parts.map (·.1)) ++ [.mark ']', .mark ')'])) (.tuple (parts.map (·.2)))
  | object {attributes : List Attribute} {members : List (String × Ty)}
      (named : ∀ attr ∈ attributes, Names attr.label attr.name)
      (each : ∀ attr ∈ attributes, Denotes attr.tokens attr.ty)
      (ascending : Fields.Ascending members)
      (last : ∀ name, Fields.find? name members =
        (attributes.map Attribute.member).reverse.lookup name) :
      Denotes (.word "object".toList :: .mark '(' :: .mark '\x7b' ::
        (separated (attributes.map Attribute.written) ++ [.mark '\x7d', .mark ')']))
        (.object members)

def IsExpression (text : List Char) (ty : Ty) : Prop :=
  ∃ tokens rest, Denotes tokens ty ∧ Spells text tokens rest ∧ ∀ c ∈ rest, Text.isBlank c = true

end PluginBridge.Ty
