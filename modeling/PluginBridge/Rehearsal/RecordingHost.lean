import PluginBridge.Builder

/-!
# The recording host

A host that keeps a record of every call and fails those it is told to fail.
-/
namespace PluginBridge.Rehearsal

inductive HostCall where
  | askName
  | tell (sink : Sink) (text : String)
deriving DecidableEq, Inhabited

/-- A host over the calls that it has taken so far. Without a sink, `failure?` is about the name. -/
def recordingHost (name : String) (failure? : Option Sink → Option Failure) :
    Host (List HostCall) where
  name calls :=
    (calls ++ [.askName],
      match failure? none with
      | some failure => .error failure
      | none => .ok name)
  tell sink text calls :=
    (calls ++ [.tell sink text],
      match failure? (some sink) with
      | some failure => .error failure
      | none => .ok ())

end PluginBridge.Rehearsal
