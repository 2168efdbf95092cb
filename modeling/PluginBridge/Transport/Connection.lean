import PluginBridge.Transport.Service

/-!
# The serving side of a connection

Each request that is read becomes a task of its own, so a long call does not hold up the others.
The tasks share one writer, and a task writes its reply while it holds the writer. When the stream
ends, or a request cannot be read, the tasks are stopped where they are.
-/
namespace PluginBridge

/-- The results that a call may come to, whatever it learns from outside. -/
inductive Handling.Returns {σ : Type} : Handling σ → Except TransportError Bytes → Prop where
  | reply (state : σ) (result : Except TransportError Bytes) : Returns (.reply state result) result
  | dial (address : String) {next : Except TransportError Unit → Handling σ}
      (answer : Except TransportError Unit) {result : Except TransportError Bytes}
      (later : Returns (next answer) result) : Returns (.dial address next) result
  | call (method : String) (body : Bytes) {next : Except TransportError ResponseFrame → Handling σ}
      (answer : Except TransportError ResponseFrame) {result : Except TransportError Bytes}
      (later : Returns (next answer) result) : Returns (.call method body next) result
  | hangUp {next : Handling σ} {result : Except TransportError Bytes}
      (later : Returns next result) : Returns (.hangUp next) result

structure Answer where
  request : RequestFrame
  result : Except TransportError Bytes

def Answer.reply (answer : Answer) : ResponseFrame :=
  Server.replyFrame answer.request.seq answer.result

/-- The call of the request may come to this result, in some state of the services. -/
def Server.MayReturn {σ : Type} (server : Server σ) (answer : Answer) : Prop :=
  ∃ state, (server.handle answer.request.method answer.request.body state).Returns answer.result

/-- A connection that is served. The calls that run have not returned; those that are ready have
returned and wait for the writer. `writing` is what the task that holds the writer has yet to write.
`returned` is a record of the calls that have returned. -/
structure Connection where
  unread : Bytes
  running : List RequestFrame := []
  ready : List Answer := []
  writing : Option Bytes := none
  written : Bytes := []
  returned : List Answer := []
  ended : Bool := false

namespace Connection

variable {σ : Type} {server : Server σ}

inductive Step (server : Server σ) : Connection → Connection → Prop where
  | read {connection : Connection} {request : RequestFrame} {rest : Bytes}
      (found : Frame.read RequestFrame.form connection.unread = (.frame request, rest)) :
      Step server connection
        { connection with unread := rest, running := connection.running ++ [request] }
  | returns {connection : Connection} (before : List RequestFrame) (answer : Answer)
      (after : List RequestFrame)
      (running : connection.running = before ++ answer.request :: after)
      (result : server.MayReturn answer) :
      Step server connection
        { connection with
          running := before ++ after
          ready := connection.ready ++ [answer]
          returned := connection.returned ++ [answer] }
  | acquire {connection : Connection} (before : List Answer) (answer : Answer)
      (after : List Answer) {bytes : Bytes} (free : connection.writing = none)
      (ready : connection.ready = before ++ answer :: after)
      (framed : Frame.write ResponseFrame.form answer.reply = .ok bytes) :
      Step server connection
        { connection with ready := before ++ after, writing := some bytes }
  /-- The reply cannot be framed: the failure is logged, and nothing is written. -/
  | refuse {connection : Connection} (before : List Answer) (answer : Answer)
      (after : List Answer) {error : TransportError} (free : connection.writing = none)
      (ready : connection.ready = before ++ answer :: after)
      (refused : Frame.write ResponseFrame.form answer.reply = .error error) :
      Step server connection { connection with ready := before ++ after }
  | write {connection : Connection} (chunk rest : Bytes)
      (writing : connection.writing = some (chunk ++ rest)) :
      Step server connection
        { connection with writing := some rest, written := connection.written ++ chunk }
  | release {connection : Connection} (done : connection.writing = some []) :
      Step server connection { connection with writing := none }
  | hangUp {connection : Connection}
      (found : ∀ request, (Frame.read RequestFrame.form connection.unread).1 ≠ .frame request) :
      Step server connection
        { connection with unread := [], running := [], ready := [], writing := none, ended := true }

inductive Run (server : Server σ) (start : Connection) : Connection → Prop where
  | start : Run server start start
  | step {middle last : Connection} (before : Run server start middle)
      (next : Step server middle last) : Run server start last

def requestStream (requests : List RequestFrame) : Bytes :=
  requests.flatMap fun request => Frame.frame (RequestFrame.form.write request)

def accepted (requests : List RequestFrame) : Connection :=
  { unread := requestStream requests }

/-- The connection is open, all its requests are read, their calls have returned, and no task waits
for the writer or holds it. -/
def Quiet (connection : Connection) : Prop :=
  connection.ended = false ∧ connection.unread = [] ∧ connection.running = [] ∧
    connection.ready = [] ∧ connection.writing = none

end Connection

end PluginBridge
