import PluginBridge.Overrides

/-!
# Precedence of overrides

What an argument `key=value` sets, what is wrong with one that sets nothing, and which of many
arguments counts, said without going through them.
-/
namespace PluginBridge.Overrides

/-- The argument sets a name to a text: in front of its first equals sign stands the name, maybe
with blanks around it, and behind that the text. -/
def Sets (pair name text : String) : Prop :=
  ∃ key : String, pair = key ++ "=" ++ text ∧ '=' ∉ key.toList ∧ Text.trim key = name

/-- What is wrong with an argument: it has no equals sign, or nothing but blanks in front of the
first one. -/
inductive Faulty (pair : String) : OverrideError → Prop where
  | noEquals (plain : '=' ∉ pair.toList) : Faulty pair (.noEquals pair)
  | emptyKey {key text : String} (written : pair = key ++ "=" ++ text) (first : '=' ∉ key.toList)
      (blank : ∀ c ∈ key.toList, Text.isBlank c = true) : Faulty pair (.emptyKey pair)

/-- Of the arguments that set a name the last one sets it to this text. -/
def SetLast (pairs : List String) (name text : String) : Prop :=
  ∃ before pair after, pairs = before ++ pair :: after ∧ Sets pair name text ∧
    ∀ later ∈ after, ∀ other, ¬ Sets later name other

end PluginBridge.Overrides
