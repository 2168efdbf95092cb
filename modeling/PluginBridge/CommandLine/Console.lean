import PluginBridge.Builder

/-!
# The console

A host that shows what a builder tells it. Progress is not shown.
-/
namespace PluginBridge.CommandLine

inductive ConsoleLine where
  | output (text : String)
  | error (text : String)
deriving DecidableEq, Inhabited

/-- A host over the lines that it has shown so far. -/
def consoleHost (name : String) : Host (List ConsoleLine) where
  name lines := (lines, .ok name)
  tell sink text lines :=
    let shown : List ConsoleLine := match sink with
      | .progress => []
      | .say => [.output s!"==> {text}\n"]
      | .message => [.output s!"    {text}\n"]
      | .error => [.error s!"!!  {text}\n"]
    (lines ++ shown, .ok ())

end PluginBridge.CommandLine
