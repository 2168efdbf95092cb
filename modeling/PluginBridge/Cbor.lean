import PluginBridge.Binary64.Narrow
import PluginBridge.Reader
import PluginBridge.Text.Utf8

/-!
# The self-describing encoding

Items of CBOR. Each begins with a header: the kind of item and a number, which is a value, a length
or a count. Text and byte strings may come in segments, arrays and maps may end with a break.
Headers are written in as few bytes as possible, and a number in the narrowest format that keeps
its bits. A reader enters at most `depthLimit` nested items.
-/
namespace PluginBridge.Cbor

inductive Error where
  | endOfInput
  | malformed
  | unexpected
  | tooDeep
deriving DecidableEq, Inhabited

def Error.message : Error → String
  | endOfInput => "Io"
  | malformed => "Syntax"
  | unexpected => "Semantic"
  | tooDeep => "RecursionLimitExceeded"

def depthLimit : Nat := 256

inductive Header where
  | positive (n : Nat)
  | negative (n : Nat)
  | bytes (length? : Option Nat)
  | text (length? : Option Nat)
  | array (count? : Option Nat)
  | map (count? : Option Nat)
  | tag (n : Nat)
  | float (number : Binary64)
  | simple (n : Nat)
  | stop
deriving DecidableEq, Inhabited

/-! ## Writing -/

def header (major n : Nat) : Bytes :=
  if n < 24 then [UInt8.ofNat (major * 32 + n)]
  else if n < (1 <<< 8) then UInt8.ofNat (major * 32 + 24) :: Bytes.bigEndian 1 n
  else if n < (1 <<< 16) then UInt8.ofNat (major * 32 + 25) :: Bytes.bigEndian 2 n
  else if n < (1 <<< 32) then UInt8.ofNat (major * 32 + 26) :: Bytes.bigEndian 4 n
  else UInt8.ofNat (major * 32 + 27) :: Bytes.bigEndian 8 n

def writeNat (n : Nat) : Bytes :=
  header 0 n

def writeText (text : String) : Bytes :=
  header 3 (Text.utf8 text).length ++ Text.utf8 text

def arrayHeader (count : Nat) : Bytes :=
  header 4 count

def mapHeader (count : Nat) : Bytes :=
  header 5 count

def writeBool (truth : Bool) : Bytes :=
  [if truth then 0xf5 else 0xf4]

def writeNumber (x : Binary64) : Bytes :=
  match x.toHalf? with
  | some half => 0xf9 :: Bytes.bigEndian 2 half.toNat
  | none =>
    match x.toSingle? with
    | some single => 0xfa :: Bytes.bigEndian 4 single.toNat
    | none => 0xfb :: Bytes.bigEndian 8 x.bits.toNat

/-! ## Reading headers -/

/-- The number in or after an initial byte; none for an open length. -/
def readArgument (low : Nat) : Reader Error (Option Nat) :=
  if low < 24 then pure (some low)
  else
    match low with
    | 24 => (some ∘ Bytes.ofBigEndian) <$> Reader.take .endOfInput 1
    | 25 => (some ∘ Bytes.ofBigEndian) <$> Reader.take .endOfInput 2
    | 26 => (some ∘ Bytes.ofBigEndian) <$> Reader.take .endOfInput 4
    | 27 => (some ∘ Bytes.ofBigEndian) <$> Reader.take .endOfInput 8
    | 31 => pure none
    | _ => throw .malformed

def headerOf? (major low : Nat) (argument : Option Nat) : Option Header :=
  match major, argument with
  | 0, some n => some (.positive n)
  | 1, some n => some (.negative n)
  | 2, length? => some (.bytes length?)
  | 3, length? => some (.text length?)
  | 4, count? => some (.array count?)
  | 5, count? => some (.map count?)
  | 6, some n => some (.tag n)
  | 7, none => some .stop
  | 7, some n =>
    match low with
    | 25 => some (.float (.ofHalf (UInt16.ofNat n)))
    | 26 => some (.float (.ofSingle (UInt32.ofNat n)))
    | 27 => some (.float ⟨UInt64.ofNat n⟩)
    | _ => some (.simple n)
  | _, _ => none

def readHeader : Reader Error Header := do
  let initial ← Reader.byte .endOfInput
  let low := initial.toNat % 32
  let argument ← readArgument low
  match headerOf? (initial.toNat / 32) low argument with
  | some header => pure header
  | none => throw .malformed

/-- Reads a header, skipping tags; `fuel` bounds their number. -/
def skipTags : Nat → Reader Error Header
  | 0 => throw .endOfInput
  | fuel + 1 => do
    match ← readHeader with
    | .tag _ => skipTags fuel
    | header => pure header

def readUntagged : Reader Error Header := fun bytes =>
  skipTags (bytes.length + 1) bytes

def readStop : Reader Error Bool := fun bytes =>
  match readHeader bytes with
  | .ok (.stop, rest) => .ok (true, rest)
  | .ok _ => .ok (false, bytes)
  | .error error => .error error

/-- Runs `step` once for each item of a container: as often as announced, or up to the break. Every
step reads at least a byte, so the bytes bound the steps. -/
def foldItems {σ : Type} (step : σ → Reader Error σ) : Nat → Option Nat → σ → Reader Error σ
  | 0, _, _ => throw .endOfInput
  | _ + 1, some 0, state => pure state
  | fuel + 1, some (count + 1), state => do
    let next ← step state
    foldItems step fuel (some count) next
  | fuel + 1, none, state => do
    if ← readStop then pure state
    else do
      let next ← step state
      foldItems step fuel none next

def forItems {σ : Type} (count? : Option Nat) (start : σ) (step : σ → Reader Error σ) :
    Reader Error σ := fun bytes =>
  foldItems step (bytes.length + 1) count? start bytes

def collect {α : Type} (count? : Option Nat) (item : Reader Error α) : Reader Error (List α) := do
  let items ← forItems count? [] fun items => do
    let a ← item
    pure (a :: items)
  pure items.reverse

/-! ## Reading text and bytes -/

/-- Text is read in blocks of this many bytes. -/
def blockSize : Nat := 4096

/-- Whether a block of a text that is too long for the input shows that it is malformed: more bytes
than an unfinished character can have stand behind its well-formed part. `pending` are the bytes
kept from the block before. -/
def brokenBlock : Nat → Bytes → Bytes → Bool
  | 0, _, _ => false
  | fuel + 1, pending, bytes =>
    let fresh := blockSize - pending.length
    if bytes.length < fresh then false
    else
      let left := Text.afterValid (pending ++ bytes.take fresh)
      if 3 < left.length then true else brokenBlock fuel left (bytes.drop fresh)

def readTextSegment (length : Nat) : Reader Error String := fun bytes =>
  if bytes.length < length then
    .error (if brokenBlock bytes.length [] bytes then .malformed else .endOfInput)
  else
    match Text.ofUtf8? (bytes.take length) with
    | some text => .ok (text, bytes.drop length)
    | none => .error .malformed

/-- Runs `step` for the length of each segment of an open string, up to the break that closes it.
`length?` says whether a header is a segment of the right kind; an open string may hold open
strings, and `nested` of them are entered. -/
def foldSegments {σ : Type} (length? : Header → Option (Option Nat))
    (step : σ → Nat → Reader Error σ) : Nat → Nat → σ → Reader Error σ
  | 0, _, _ => throw .endOfInput
  | fuel + 1, nested, state => do
    match ← readHeader with
    | .stop =>
      if nested = 0 then pure state else foldSegments length? step fuel (nested - 1) state
    | header =>
      match length? header with
      | none => throw .malformed
      | some none => foldSegments length? step fuel (nested + 1) state
      | some (some length) => do
        let next ← step state length
        foldSegments length? step fuel nested next

def readSegments {α : Type} (length? : Header → Option (Option Nat))
    (segment : Nat → Reader Error α) : Reader Error (List α) := fun bytes =>
  let step (segments : List α) (length : Nat) : Reader Error (List α) :=
    (· :: segments) <$> segment length
  (List.reverse <$> foldSegments length? step (bytes.length + 1) 0 []) bytes

def textLength? : Header → Option (Option Nat)
  | .text length? => some length?
  | _ => none

def bytesLength? : Header → Option (Option Nat)
  | .bytes length? => some length?
  | _ => none

def readTextContent : Option Nat → Reader Error String
  | some length => readTextSegment length
  | none => String.join <$> readSegments textLength? readTextSegment

def readBytesContent : Option Nat → Reader Error Bytes
  | some length => Reader.take .endOfInput length
  | none => List.flatten <$> readSegments bytesLength? (Reader.take .endOfInput)

/-! ## Reading items of one kind -/

def readText : Reader Error String := do
  match ← readUntagged with
  | .text length? => readTextContent length?
  | _ => throw .unexpected

/-- Reads the name of a field or of an alternative: a text or byte string of at most one block. -/
def readName : Reader Error Bytes := do
  match ← readUntagged with
  | .text (some length) =>
    if blockSize < length then throw .unexpected
    else do
      let bytes ← Reader.take .endOfInput length
      if (Text.ofUtf8? bytes).isSome then pure bytes else throw .malformed
  | .bytes (some length) =>
    if blockSize < length then throw .unexpected else Reader.take .endOfInput length
  | _ => throw .unexpected

def readBool : Reader Error Bool := do
  match ← readUntagged with
  | .simple 20 => pure false
  | .simple 21 => pure true
  | _ => throw .unexpected

def readNumber : Reader Error Binary64 := do
  match ← readUntagged with
  | .float number => pure number
  | _ => throw .unexpected

def bigNumberSize : Nat := 16

/-- Reads on in the bytes of a big number, so many at a time. Zeros before its first byte that is
not zero do not count. -/
def readBigBytes : Nat → Bytes → Nat → Reader Error Bytes
  | 0, known, _ => pure known
  | fuel + 1, known, length =>
    if length = 0 then pure known
    else do
      let next ← Reader.take .endOfInput (min bigNumberSize length)
      let known := (known ++ next).dropWhile (· == 0)
      if bigNumberSize < known.length then throw .unexpected
      else readBigBytes fuel known (length - bigNumberSize)

def readBigNumber : Reader Error Nat := do
  let step (known : Bytes) (length : Nat) : Reader Error Bytes := readBigBytes length known length
  match ← readHeader with
  | .bytes (some length) => Bytes.ofBigEndian <$> step [] length
  | .bytes none => fun bytes =>
    (Bytes.ofBigEndian <$> foldSegments bytesLength? step (bytes.length + 1) 0 []) bytes
  | _ => throw .unexpected

/-- Reads an integer: whether it is below zero, and its distance from zero or from minus one. Tags
other than those of big numbers are skipped; `fuel` bounds their number. -/
def readIntegerWithin : Nat → Reader Error (Bool × Nat)
  | 0 => throw .endOfInput
  | fuel + 1 => do
    match ← readHeader with
    | .positive n => pure (false, n)
    | .negative n => pure (true, n)
    | .tag 2 => do
      let n ← readBigNumber
      pure (false, n)
    | .tag 3 => do
      let n ← readBigNumber
      pure (true, n)
    | .tag _ => readIntegerWithin fuel
    | _ => throw .unexpected

def readNat (limit : Nat) : Reader Error Nat := do
  let (negative, n) ← fun bytes => readIntegerWithin (bytes.length + 1) bytes
  if negative ∨ limit < n then throw .unexpected else pure n

/-- Reads null or undefined as none, and anything else with `content`. -/
def readOption {α : Type} (content : Reader Error α) : Reader Error (Option α) := fun bytes =>
  match readHeader bytes with
  | .ok (.simple 22, rest) => .ok (none, rest)
  | .ok (.simple 23, rest) => .ok (none, rest)
  | .ok _ => (some <$> content) bytes
  | .error error => .error error

/-- Reads up to the name of an alternative: a map of one entry, or a text that is the name. -/
def openChoice : Reader Error Unit := fun bytes =>
  match readUntagged bytes with
  | .ok (.map (some 1), rest) => .ok ((), rest)
  | .ok (.text _, _) => .ok ((), bytes)
  | .ok _ => .error .unexpected
  | .error error => .error error

def openMap : Reader Error (Option Nat) := do
  match ← readUntagged with
  | .map count? => pure count?
  | _ => throw .unexpected

/-- Reads the header of an array. A byte string stands for an array of small numbers: there is
nothing to enter if it is empty, and nothing that reads its items if it is not. -/
def openArray : Reader Error (Option (Option Nat)) := do
  match ← readUntagged with
  | .array count? => pure (some count?)
  | .bytes length? => do
    let bytes ← readBytesContent length?
    if bytes.isEmpty then pure none else throw .unexpected
  | _ => throw .unexpected

/-- Passes over the big number behind its tag, and says whether one was there. Only bytes of a short
announced length are taken for one, and below zero it must fit into as many bits. -/
def ignoreBigNumber (negative : Bool) : Reader Error Bool := fun bytes =>
  match readHeader bytes with
  | .ok (.bytes (some length), rest) =>
    if bigNumberSize < length then .ok (false, bytes)
    else if rest.length < length then .error .endOfInput
    else if negative ∧ (1 <<< 127) ≤ Bytes.ofBigEndian (rest.take length) then .error .unexpected
    else .ok (true, rest.drop length)
  | .ok _ => .ok (false, bytes)
  | .error error => .error error

/-- Passes over an item without items inside. The header of any other is returned. -/
def ignoreLeaf : Reader Error (Option Header) := do
  match ← readHeader with
  | .positive _ | .negative _ | .float _ => pure none
  | .bytes length? => do
    let _ ← readBytesContent length?
    pure none
  | .text length? => do
    let _ ← readTextContent length?
    pure none
  | .simple n => if 20 ≤ n ∧ n ≤ 23 then pure none else throw .unexpected
  | .stop => throw .unexpected
  | .tag n =>
    if n = 2 ∨ n = 3 then do
      if ← ignoreBigNumber (n == 3) then pure none else pure (some (.tag n))
    else pure (some (.tag n))
  | header => pure (some header)

def ignore : Nat → Reader Error Unit
  | 0 => do if (← ignoreLeaf).isSome then throw .tooDeep
  | depth + 1 => do
    match ← ignoreLeaf with
    | some (.array count?) => forItems count? () fun _ => ignore depth
    | some (.map count?) => forItems count? () fun _ => do
      ignore depth
      ignore depth
    | some _ => ignore depth
    | none => pure ()

end PluginBridge.Cbor
