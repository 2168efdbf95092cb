import PluginBridge.Transport.Error

/-!
# Frames

A connection carries frames: four bytes with the length of the payload, the lowest first, and the
payload. A payload has at most `Frame.limit` bytes. A stream that ends before a length is complete
has ended between frames.
-/
namespace PluginBridge

structure RequestFrame where
  seq : UInt64
  method : String
  body : Bytes
deriving DecidableEq, Inhabited

/-- A reply. The error, if any, is one of the transport; others are inside the body. -/
structure ResponseFrame where
  seq : UInt64
  body : Bytes
  error : Option String
deriving DecidableEq, Inhabited

def RequestFrame.form : Compact.Form RequestFrame :=
  (Compact.Form.pair .word64 (.pair .text .bytes)).as
    (fun frame => (frame.seq, frame.method, frame.body))
    (fun (seq, method, body) => ⟨seq, method, body⟩)

def ResponseFrame.form : Compact.Form ResponseFrame :=
  (Compact.Form.pair .word64 (.pair .bytes (.option .text))).as
    (fun frame => (frame.seq, frame.body, frame.error))
    (fun (seq, body, error) => ⟨seq, body, error⟩)

namespace Frame

def limit : Nat := 64 * 1024 * 1024

def checkSize (size : Nat) : Except TransportError Unit :=
  if limit < size then .error (.frameTooLarge size) else .ok ()

def frame (payload : Bytes) : Bytes :=
  Bytes.littleEndian 4 payload.length ++ payload

variable {α : Type}

/-- The bytes of a frame; nothing is written of a frame that is too large. -/
def write (form : Compact.Form α) (a : α) : Except TransportError Bytes := do
  let payload := form.write a
  checkSize payload.length
  .ok (frame payload)

def writeTo (form : Compact.Form α) (stream : Bytes) (a : α) :
    Bytes × Except TransportError Unit :=
  match write form a with
  | .ok bytes => (stream ++ bytes, .ok ())
  | .error error => (stream, .error error)

/-- Writes one frame after another, whatever became of those before. -/
def writeAll (form : Compact.Form α) :
    Bytes → List α → Bytes × List (Except TransportError Unit)
  | stream, [] => (stream, [])
  | stream, a :: later =>
    let (stream, result) := writeTo form stream a
    let (stream, results) := writeAll form stream later
    (stream, result :: results)

/-- What is found at the front of a stream that has ended behind the bytes. -/
inductive Found (α : Type) where
  | frame (a : α)
  | closed
  | failed (error : TransportError)
deriving Inhabited

def read (form : Compact.Form α) (bytes : Bytes) : Found α × Bytes :=
  if bytes.length < 4 then (.closed, [])
  else
    let size := Bytes.ofLittleEndian (bytes.take 4)
    let rest := bytes.drop 4
    match checkSize size with
    | .error error => (.failed error, rest)
    | .ok () =>
      if rest.length < size then (.failed (.io .earlyEof), [])
      else
        match form.decode (rest.take size) with
        | .ok a => (.frame a, rest.drop size)
        | .error error => (.failed (.compact error), rest.drop size)

def readAllWithin (form : Compact.Form α) :
    Nat → Bytes → List α × Option TransportError × Bytes
  | 0, bytes => ([], none, bytes)
  | fuel + 1, bytes =>
    match read form bytes with
    | (.frame a, rest) =>
      let (frames, ending) := readAllWithin form fuel rest
      (a :: frames, ending)
    | (.closed, rest) => ([], none, rest)
    | (.failed error, rest) => ([], some error, rest)

/-- Reads all frames of a stream. Each takes four bytes or more, so the bytes bound their number. -/
def readAll (form : Compact.Form α) (bytes : Bytes) : List α × Option TransportError × Bytes :=
  readAllWithin form (bytes.length + 1) bytes

end Frame

end PluginBridge
