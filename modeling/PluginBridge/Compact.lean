import PluginBridge.Binary64
import PluginBridge.Reader
import PluginBridge.Text.Utf8

/-!
# The compact encoding

An encoding without names or types: numbers in groups of seven bits, lengths before sequences, the
position of an alternative before its content. The reader has to know what it reads.
-/
namespace PluginBridge.Compact

inductive Error where
  | endOfBuffer
  | badBool
  | badOption
  | badVarint
  | badUtf8
  | unknownVariant
deriving DecidableEq, Inhabited

def Error.message : Error → String
  | endOfBuffer => "Hit the end of buffer, expected more data"
  | badBool => "Found a bool that wasn't 0 or 1"
  | badOption => "Found an Option discriminant that wasn't 0 or 1"
  | badVarint =>
    "Found a varint that didn't terminate. Is the usize too big for this platform?"
  | badUtf8 => "Tried to parse invalid utf-8"
  | unknownVariant => "Serde Deserialization Error"

/-- Groups of seven bits, the lowest first, each but the last with its high bit set. -/
def varintGroups : Nat → Nat → Bytes
  | 0, _ => []
  | groups + 1, n =>
    if n < 128 then [UInt8.ofNat n]
    else UInt8.ofNat (n % 128 + 128) :: varintGroups groups (n / 128)

def varint (n : Nat) : Bytes :=
  varintGroups (n + 1) n

def byte : Reader Error UInt8 :=
  Reader.byte .endOfBuffer

def take (count : Nat) : Reader Error Bytes :=
  Reader.take .endOfBuffer count

def readGroups : Nat → Reader Error Nat
  | 0 => throw .badVarint
  | groups + 1 => do
    let group ← byte
    if group.toNat < 128 then pure group.toNat
    else do
      let rest ← readGroups groups
      pure (group.toNat - 128 + 128 * rest)

def readVarint (bits : Nat) : Reader Error Nat := do
  let n ← readGroups ((bits + 6) / 7)
  if n < (1 <<< bits) then pure n else throw .badVarint

/-- How one kind of data is written and read. -/
structure Form (α : Type) where
  write : α → Bytes
  read : Reader Error α

namespace Form

variable {α β : Type}

def as (form : Form β) (into : α → β) (from? : β → α) : Form α where
  write a := form.write (into a)
  read := do
    let b ← form.read
    pure (from? b)

def nothing : Form Unit where
  write _ := []
  read := pure ()

def pair (first : Form α) (second : Form β) : Form (α × β) where
  write both := first.write both.1 ++ second.write both.2
  read := do
    let a ← first.read
    let b ← second.read
    pure (a, b)

def word32 : Form UInt32 where
  write n := varint n.toNat
  read := do
    let n ← readVarint 32
    pure (UInt32.ofNat n)

def word64 : Form UInt64 where
  write n := varint n.toNat
  read := do
    let n ← readVarint 64
    pure (UInt64.ofNat n)

def size : Form Nat where
  write n := varint n
  read := readVarint 64

def bool : Form Bool where
  write truth := [if truth then 1 else 0]
  read := do
    match ← byte with
    | 0 => pure false
    | 1 => pure true
    | _ => throw .badBool

def number : Form Binary64 where
  write x := Bytes.littleEndian 8 x.bits.toNat
  read := do
    let bytes ← take 8
    pure ⟨UInt64.ofNat (Bytes.ofLittleEndian bytes)⟩

def bytes : Form Bytes where
  write content := size.write content.length ++ content
  read := do
    let count ← size.read
    take count

def text : Form String where
  write content := bytes.write (Text.utf8 content)
  read := do
    match Text.ofUtf8? (← bytes.read) with
    | some content => pure content
    | none => throw .badUtf8

def option (form : Form α) : Form (Option α) where
  write
    | none => [0]
    | some a => 1 :: form.write a
  read := do
    match ← byte with
    | 0 => pure none
    | 1 => do
      let a ← form.read
      pure (some a)
    | _ => throw .badOption

def list (form : Form α) : Form (List α) where
  write items := size.write items.length ++ items.flatMap form.write
  read := do
    let count ← size.read
    Reader.exactly form.read count

/-- One of a few alternatives, by its position among them. -/
def choice [BEq α] (alternatives : List α) : Form α where
  write a := varint (alternatives.idxOf a)
  read := do
    let position ← readVarint 32
    match alternatives[position]? with
    | some a => pure a
    | none => throw .unknownVariant

def decode (form : Form α) (bytes : Bytes) : Except Error α :=
  form.read.front bytes

end Form

end PluginBridge.Compact
