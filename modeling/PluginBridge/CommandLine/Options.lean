/-!
# Options on a command line

How the words of a command line are told apart: options and their values, operands, and the name of
a command that takes the rest. `--option value`, `--option=value`, `-o value`, `-ovalue` and
`-o=value` mean the same; behind `--` all words are operands. A value that stands alone does not
begin with a hyphen, unless it is one.
-/
namespace PluginBridge.CommandLine

structure Flag where
  long : String
  short : Option Char := none
  repeats : Bool := false
  accepts : String → Bool := fun _ => true

/-- What may stand on one level of a command line. -/
structure Level where
  flags : List Flag
  /-- Which operand is accepted, if any. -/
  operand : Option (String → Bool) := none
  commands : List String := []
  version : Bool := false

inductive Stop where
  | help
  | version
  | misuse
deriving DecidableEq, Inhabited

/-- What was read on one level: the values of options, an operand, and a command with the words that
are left for it. -/
structure Reading where
  values : List (String × String) := []
  operand : Option String := none
  command : Option (String × List String) := none

namespace Reading

def all (reading : Reading) (long : String) : List String :=
  (reading.values.filter fun entry => entry.1 == long).map (·.2)

def value? (reading : Reading) (long : String) : Option String :=
  reading.values.lookup long

end Reading

namespace Level

def setFlag (reading : Reading) (flag : Flag) (value : String) : Except Stop Reading :=
  if !flag.accepts value ∨ (!flag.repeats ∧ (reading.value? flag.long).isSome) then .error .misuse
  else .ok { reading with values := reading.values ++ [(flag.long, value)] }

def setOperand (level : Level) (reading : Reading) (word : String) : Except Stop Reading :=
  match level.operand, reading.operand with
  | some accepts, none =>
    if accepts word then .ok { reading with operand := some word } else .error .misuse
  | _, _ => .error .misuse

def splitLong (text : List Char) : String × Option String :=
  match text.dropWhile (· != '=') with
  | _ :: value => (String.ofList (text.takeWhile (· != '=')), some (String.ofList value))
  | [] => (String.ofList text, none)

def flag? (level : Level) : List Char → Except Stop (Flag × Option String)
  | '-' :: text =>
    match splitLong text with
    | ("help", none) => .error .help
    | ("version", none) => .error (if level.version then .version else .misuse)
    | (name, value?) =>
      match level.flags.find? fun flag => flag.long == name with
      | some flag => .ok (flag, value?)
      | none => .error .misuse
  | 'h' :: _ => .error .help
  | c :: text =>
    if c = 'V' ∧ level.version then .error .version
    else match level.flags.find? fun flag => flag.short == some c with
      | none => .error .misuse
      | some flag =>
        match text with
        | [] => .ok (flag, none)
        | '=' :: value => .ok (flag, some (String.ofList value))
        | value => .ok (flag, some (String.ofList value))
  | [] => .error .misuse

def isFlag (word : String) : Bool :=
  match word.toList with
  | '-' :: _ :: _ => true
  | _ => false

/-- Reads the words of a level from left to right; the first fault or request for help counts. -/
def read (level : Level) (reading : Reading) : List String → Except Stop Reading
  | [] => .ok reading
  | word :: rest =>
    if word = "--" then rest.foldlM level.setOperand reading
    else if isFlag word then
      match level.flag? (word.toList.drop 1) with
      | .error stop => .error stop
      | .ok (flag, some value) =>
        match setFlag reading flag value with
        | .ok reading => level.read reading rest
        | .error stop => .error stop
      | .ok (flag, none) =>
        match rest with
        | [] => .error .misuse
        | value :: rest =>
          if isFlag value then .error .misuse
          else match setFlag reading flag value with
            | .ok reading => level.read reading rest
            | .error stop => .error stop
    else if word ∈ level.commands then .ok { reading with command := some (word, rest) }
    else match level.setOperand reading word with
      | .ok reading => level.read reading rest
      | .error stop => .error stop

end Level

end PluginBridge.CommandLine
