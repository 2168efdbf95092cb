import PluginBridge.Text.Digit

/-!
# Texts of TOML

Blanks, line ends, comments, strings and keys at the front of a text. A reader gives what it found
and what follows, or nothing if the text is malformed.
-/
namespace PluginBridge.Toml

def isSpace (c : Char) : Bool :=
  c == ' ' || c == '\t'

def skipSpace (text : List Char) : List Char :=
  text.dropWhile isSpace

def isPrintable (c : Char) : Bool :=
  c == '\t' || (0x20 ≤ c.toNat && c.toNat != 0x7f)

def lineEnd? : List Char → Option (List Char)
  | '\n' :: rest => some rest
  | '\r' :: '\n' :: rest => some rest
  | _ => none

def skipComment (text : List Char) : List Char :=
  match skipSpace text with
  | '#' :: rest => rest.dropWhile isPrintable
  | start => start

/-- The text behind blanks, comments and line ends. Each round takes one unit of fuel. -/
def skipLines : Nat → List Char → List Char
  | 0, text => text
  | fuel + 1, text =>
    match lineEnd? (skipComment text) with
    | some rest => skipLines fuel rest
    | none => skipComment text

def skipBlank : Nat → List Char → List Char
  | 0, text => text
  | fuel + 1, text =>
    match lineEnd? (skipSpace text) with
    | some rest => skipBlank fuel rest
    | none => skipSpace text

def codePoint? (count : Nat) (text : List Char) : Option (Char × List Char) := do
  let digits ← (text.take count).mapM (Text.digit? 16)
  let n := Text.ofDigits 16 digits
  if digits.length = count ∧ n.isValidChar then some (Char.ofNat n, text.drop count) else none

def escape? : List Char → Option (Char × List Char)
  | 'b' :: rest => some ('\x08', rest)
  | 't' :: rest => some ('\t', rest)
  | 'n' :: rest => some ('\n', rest)
  | 'f' :: rest => some ('\x0c', rest)
  | 'r' :: rest => some ('\r', rest)
  | 'e' :: rest => some ('\x1b', rest)
  | '"' :: rest => some ('"', rest)
  | '\\' :: rest => some ('\\', rest)
  | 'x' :: rest => codePoint? 2 rest
  | 'u' :: rest => codePoint? 4 rest
  | 'U' :: rest => codePoint? 8 rest
  | _ => none

/-- The rest of a string of one line. `escapes` says whether a backslash has a meaning. -/
def line? (quote : Char) (escapes : Bool) : Nat → List Char → Option (List Char × List Char)
  | 0, _ => none
  | _ + 1, [] => none
  | fuel + 1, c :: rest =>
    if c = quote then some ([], rest)
    else if escapes ∧ c = '\\' then do
      let (c, rest) ← escape? rest
      let (content, rest) ← line? quote escapes fuel rest
      some (c :: content, rest)
    else if isPrintable c then do
      let (content, rest) ← line? quote escapes fuel rest
      some (c :: content, rest)
    else none

/-- The rest of a string of several lines. Up to two quotes may stand right before the three that
close it. A backslash at the end of a line skips the blanks and line ends behind it. -/
def lines? (quote : Char) (escapes : Bool) : Nat → List Char → Option (List Char × List Char)
  | 0, _ => none
  | _ + 1, [] => none
  | fuel + 1, c :: rest =>
    let quotes := ((c :: rest).takeWhile (· == quote)).length
    if 3 ≤ quotes then
      let inside := min quotes 5 - 3
      some (List.replicate inside quote, (c :: rest).drop (inside + 3))
    else if escapes ∧ c = '\\' then
      match lineEnd? (skipSpace rest) with
      | some rest => lines? quote escapes fuel (skipBlank fuel rest)
      | none => do
        let (c, rest) ← escape? rest
        let (content, rest) ← lines? quote escapes fuel rest
        some (c :: content, rest)
    else if isPrintable c ∨ (lineEnd? (c :: rest)).isSome then do
      let (content, rest) ← lines? quote escapes fuel rest
      some (c :: content, rest)
    else none

def lineString? : List Char → Option (String × List Char)
  | '"' :: rest => (line? '"' true (rest.length + 1) rest).map fun (t, rest) => (.ofList t, rest)
  | '\'' :: rest => (line? '\'' false (rest.length + 1) rest).map fun (t, rest) => (.ofList t, rest)
  | _ => none

/-- A string of several lines; a line end right behind the opening quotes does not belong to it. -/
def linesString? (quote : Char) (escapes : Bool) (text : List Char) :
    Option (String × List Char) := do
  let text := (lineEnd? text).getD text
  let (content, rest) ← lines? quote escapes (text.length + 1) text
  some (String.ofList content, rest)

def string? : List Char → Option (String × List Char)
  | '"' :: '"' :: '"' :: rest => linesString? '"' true rest
  | '\'' :: '\'' :: '\'' :: rest => linesString? '\'' false rest
  | text => lineString? text

def isBareKey (c : Char) : Bool :=
  c.isAlphanum || c == '_' || c == '-'

def simpleKey? (text : List Char) : Option (String × List Char) :=
  match text.takeWhile isBareKey with
  | [] => lineString? text
  | name => some (String.ofList name, text.dropWhile isBareKey)

/-- Names with points between them. Behind them blanks are skipped. -/
def names? : Nat → List Char → Option (List String × List Char)
  | 0, _ => none
  | fuel + 1, text => do
    let (name, rest) ← simpleKey? (skipSpace text)
    match skipSpace rest with
    | '.' :: rest => do
      let (names, rest) ← names? fuel rest
      some (name :: names, rest)
    | rest => some ([name], rest)

/-- At most so many arrays and inline tables are nested, and so many names make a key. -/
def depthLimit : Nat := 80

def key? (fuel : Nat) (text : List Char) : Option (List String × List Char) := do
  let (names, rest) ← names? fuel text
  if depthLimit < names.length then none else some (names, rest)

end PluginBridge.Toml
