import PluginBridge.Document.Json
import PluginBridge.Text.Blank
import PluginBridge.Value.Json

/-!
# Overrides

Attributes that a command gives as `key=value`, and how they are laid over a configuration.
-/
namespace PluginBridge

inductive OverrideError where
  | noEquals (pair : String)
  | emptyKey (pair : String)
deriving DecidableEq, Inhabited

def OverrideError.message : OverrideError → String
  | noEquals pair => s!"expected KEY=VALUE, got `{pair}`"
  | emptyKey pair => s!"empty key in `{pair}`"

namespace Overrides

/-- The parts before and behind the first equals sign. -/
def split? : List Char → Option (List Char × List Char)
  | [] => none
  | c :: rest =>
    if c = '=' then some ([], rest) else (split? rest).map fun (key, text) => (c :: key, text)

/-- The value that a text stands for: as JSON where it is JSON, else the text itself. -/
def valueOf (text : String) : Value :=
  match Json.parse? text with
  | some json => .ofJson json
  | none => .string text

def parsePair (pair : String) : Except OverrideError (String × Value) :=
  match split? pair.toList with
  | none => .error (.noEquals pair)
  | some (key, text) =>
    let key := Text.trim (String.ofList key)
    if key = "" then .error (.emptyKey pair)
    else .ok (key, valueOf (String.ofList text))

/-- The attributes of all overrides; of two with one key the last counts. -/
def parse (pairs : List String) : Except OverrideError (Fields Value) :=
  (pairs.mapM parsePair).map Fields.ofList

/-- Lays one value over another. Objects are merged attribute by attribute; an empty object on top
changes nothing. -/
def merge : Value → Value → Value
  | .object base, .object top => .object (Fields.overlay base top)
  | base, .object [] => base
  | _, top => top

end Overrides

end PluginBridge
