import PluginBridge.Bytes

/-!
# Readers

A reader takes an item from the front of a sequence of bytes and leaves the rest, or fails.
-/
namespace PluginBridge

abbrev Reader (ε α : Type) := StateT Bytes (Except ε) α

namespace Reader

variable {ε α : Type}

/-- Reads one byte; `empty` is the failure at the end of the bytes. -/
def byte (empty : ε) : Reader ε UInt8 := fun bytes =>
  match bytes with
  | [] => .error empty
  | b :: rest => .ok (b, rest)

/-- Reads `count` bytes; `short` is the failure if there are fewer. -/
def take (short : ε) (count : Nat) : Reader ε Bytes := fun bytes =>
  if bytes.length < count then .error short
  else .ok (bytes.take count, bytes.drop count)

def exactly (item : Reader ε α) : Nat → Reader ε (List α)
  | 0 => pure []
  | count + 1 => do
    let a ← item
    let rest ← exactly item count
    pure (a :: rest)

/-- What a reader finds at the front of the bytes; the rest is ignored. -/
def front (reader : Reader ε α) (bytes : Bytes) : Except ε α :=
  (reader bytes).map (·.1)

end Reader

end PluginBridge
