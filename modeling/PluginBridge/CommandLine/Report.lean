import PluginBridge.Bridge.Error

/-!
# Reports of failures

The text that a command ends with when it fails: what failed, and what caused it. A single cause is
indented; several are numbered from zero. The lines of a cause stand under its first.
-/
namespace PluginBridge.Report

def indent (first others : String) (text : String) : String :=
  first ++ ("\n" ++ others).intercalate (text.splitOn "\n")

def numbered : Nat → List String → List String
  | _, [] => []
  | n, cause :: rest =>
    let number := String.ofList (Nat.toDigits 10 n)
    let margin := "".pushn ' ' (5 - number.length)
    indent (margin ++ number ++ ": ") "       " cause :: numbered (n + 1) rest

def causes : List String → List String
  | [cause] => [indent "    " "    " cause]
  | several => numbered 0 several

/-- The report of the texts of a failure, the outermost first. -/
def ofChain : List String → String
  | [] => "Error: \n"
  | [text] => "Error: " ++ text ++ "\n"
  | text :: below =>
    "Error: " ++ text ++ "\n\nCaused by:\n" ++ "\n".intercalate (causes below) ++ "\n"

def render (failure : Failure) : String :=
  ofChain failure.chain

end PluginBridge.Report
