import PluginBridge.Datasource
import PluginBridge.Value.Typing

/-!
# The static datasource

A datasource that answers from its own configuration: with `lookup` and `name` the member of that
name, else `value`, else the whole configuration. Answers take no time here, so that `delay_ms` is
checked but not waited for.
-/
namespace PluginBridge

namespace StaticDatasource

/-- Merges configurations from left to right, later attributes winning; null has none. `index` is
the position of the first. -/
def merge (index : Nat) (merged : Fields Value) : List Value → Except Failure (Fields Value)
  | [] => .ok merged
  | .null :: rest => merge (index + 1) merged rest
  | .object members :: rest => merge (index + 1) (merged.overlay members) rest
  | .map members :: rest => merge (index + 1) (merged.overlay members) rest
  | other :: _ =>
    .error (.text s!"configuration {index} must be an object, got {other.ty.expression}")

def spec : ObjectSpec :=
  Fields.ofList [
    ("name", .attr "name" .string false),
    ("lookup", .attr "lookup" .any false),
    ("value", .attr "value" .any false),
    ("delay_ms", .attr "delay_ms" .number false)]

def checkMember (member : String × Value) : Except Failure Unit :=
  match spec.find? member.1 with
  | some (.attr _ ty _) =>
    if member.2.conforms ty then .ok ()
    else
      .error (.text
        s!"attribute `{member.1}` must be {ty.expression}, got {member.2.ty.expression}")
  | _ => .ok ()

def accept (configs : List Value) : Except Failure (Fields Value) := do
  let merged ← merge 0 [] configs
  merged.forM checkMember
  .ok merged

def configure (configs : List Value) (state : Fields Value) : Fields Value × Except Failure Unit :=
  match accept configs with
  | .ok merged => (merged, .ok ())
  | .error failure => (state, .error failure)

def execute (state : Fields Value) : Except Failure Value :=
  match state.find? "lookup", state.find? "name" with
  | some table, some name =>
    match name.text? with
    | none => .error (.text "attribute `name` must be a string")
    | some name =>
      match table.get? name with
      | some value => .ok value
      | none => .error (.text s!"no record for `{name}`")
  | _, _ =>
    match state.find? "value" with
    | some value => .ok value
    | none => .ok (.object state)

end StaticDatasource

def staticDatasource : Datasource (Fields Value) where
  configure := StaticDatasource.configure
  outputSpec _ := StaticDatasource.spec
  execute state := (state, StaticDatasource.execute state)
  cancel state := state

end PluginBridge
