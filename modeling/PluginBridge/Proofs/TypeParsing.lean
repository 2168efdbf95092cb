import PluginBridge.Proofs.TypeTokens

/-! The parser of type expressions as a plan of what to take off the text next. A run of the plan
needs no fuel, every plan has one run on a text, and the parser's outcome is that of its run. What
holds of every run therefore holds of the parser. -/

namespace PluginBridge.Ty

/-! ## Plans -/

inductive Part where
  | ty
  | items
  | attributes

@[reducible]
def Part.Result : Part → Type
  | ty => Ty
  | items => List Ty
  | attributes => List (String × Ty)

/-- What is left to read before a result is known. A plan takes a sign or fails, goes one of two ways
as a sign comes next or not, or goes on with a word (which may be empty), with the name of an
attribute, or with the result of a call. -/
inductive Plan (α : Type) where
  | done (a : α)
  | fail (reason : ParseReason)
  | take (sign : Char) (next : Plan α)
  | choose (sign : Char) (yes no : Plan α)
  | word (next : List Char → Plan α)
  | name (next : String → Plan α)
  | call (part : Part) (next : part.Result → Plan α)

inductive Announced where
  | scalar (ty : Ty)
  | container (make : Ty → Ty)
  | tuple
  | object
  | nothing
  | unknown

def announced (letters : List Char) : Announced :=
  match String.ofList letters with
  | "any" => .scalar any
  | "bool" => .scalar bool
  | "number" => .scalar number
  | "string" => .scalar string
  | "list" => .container list
  | "set" => .container set
  | "map" => .container map
  | "tuple" => .tuple
  | "object" => .object
  | "" => .nothing
  | _ => .unknown

variable {α β : Type}

namespace Plan

def container (make : Ty → Ty) : Plan Ty :=
  .take '(' (.call .ty fun item => .take ')' (.done (make item)))

def listed (opening closing : Char) (part : Part) (nothing : α) (make : part.Result → α) : Plan α :=
  .take '(' (.take opening (.choose closing (.take ')' (.done nothing))
    (.call part fun found => .take ')' (.done (make found)))))

def tuple : Plan Ty :=
  listed '[' ']' .items (.tuple []) .tuple

def object : Plan Ty :=
  listed '\x7b' '\x7d' .attributes (.object []) fun attributes => .object (Fields.ofList attributes)

def behind (letters : List Char) : Plan Ty :=
  match announced letters with
  | .scalar ty => .done ty
  | .container make => container make
  | .tuple => tuple
  | .object => object
  | .nothing => .fail .expectedKeyword
  | .unknown => .fail (.unknownType (String.ofList letters))

def others (closing : Char) (part : Part) (only : α) (more : part.Result → α) : Plan α :=
  .choose closing (.done only) (.take ',' (.call part fun rest => .done (more rest)))

def of : (part : Part) → Plan part.Result
  | .ty => .word behind
  | .items => .call .ty fun item => others ']' .items [item] (item :: ·)
  | .attributes => .name fun name => .take '=' (.call .ty fun ty =>
      others '\x7d' .attributes [(name, ty)] ((name, ty) :: ·))

end Plan

/-! ## Runs -/

/-- The plan comes to the outcome on the text. -/
inductive Runs : {α : Type} → Plan α → List Char → Except Fault (α × List Char) → Prop where
  | done {α : Type} (a : α) (text : List Char) : Runs (.done a) text (.ok (a, text))
  | fail {α : Type} (reason : ParseReason) (text : List Char) :
      Runs (α := α) (.fail reason) text (.error ⟨reason, text⟩)
  | taken {α : Type} {sign : Char} {next : Plan α} {text rest : List Char}
      {outcome : Except Fault (α × List Char)} (eaten : eat? sign text = some rest)
      (later : Runs next rest outcome) : Runs (.take sign next) text outcome
  | absent {α : Type} {sign : Char} {next : Plan α} {text : List Char}
      (missing : eat? sign text = none) :
      Runs (.take sign next) text (.error ⟨.expected sign, Text.dropBlank text⟩)
  | yes {α : Type} {sign : Char} {yes no : Plan α} {text rest : List Char}
      {outcome : Except Fault (α × List Char)} (eaten : eat? sign text = some rest)
      (later : Runs yes rest outcome) : Runs (.choose sign yes no) text outcome
  | no {α : Type} {sign : Char} {yes no : Plan α} {text : List Char}
      {outcome : Except Fault (α × List Char)} (missing : eat? sign text = none)
      (later : Runs no text outcome) : Runs (.choose sign yes no) text outcome
  | word {α : Type} {next : List Char → Plan α} {text : List Char}
      {outcome : Except Fault (α × List Char)}
      (later : Runs (next (wordOf text)) (afterWord text) outcome) : Runs (.word next) text outcome
  | named {α : Type} {next : String → Plan α} {text rest : List Char} {name : String}
      {outcome : Except Fault (α × List Char)} (read : parseName text = .ok (name, rest))
      (later : Runs (next name) rest outcome) : Runs (.name next) text outcome
  | unnamed {α : Type} {next : String → Plan α} {text : List Char} {fault : Fault}
      (read : parseName text = .error fault) : Runs (.name next) text (.error fault)
  | called {α : Type} {part : Part} {next : part.Result → Plan α} {text rest : List Char}
      {a : part.Result} {outcome : Except Fault (α × List Char)}
      (first : Runs (Plan.of part) text (.ok (a, rest))) (later : Runs (next a) rest outcome) :
      Runs (.call part next) text outcome
  | failed {α : Type} {part : Part} {next : part.Result → Plan α} {text : List Char}
      {fault : Fault} (first : Runs (Plan.of part) text (.error fault)) :
      Runs (.call part next) text (.error fault)

/-- A plan comes to one outcome. -/
theorem Runs.unique {plan : Plan α} {text : List Char} {one other : Except Fault (α × List Char)}
    (first : Runs plan text one) (second : Runs plan text other) : one = other := by
  induction first with
  | done | fail =>
    cases second
    rfl
  | taken eaten _ ih =>
    cases second with
    | taken again later =>
      rw [eaten, Option.some.injEq] at again
      subst again
      exact ih later
    | absent missing => cases eaten.symm.trans missing
  | absent missing =>
    cases second with
    | taken again => cases missing.symm.trans again
    | absent => rfl
  | yes eaten _ ih =>
    cases second with
    | yes again later =>
      rw [eaten, Option.some.injEq] at again
      subst again
      exact ih later
    | no missing => cases eaten.symm.trans missing
  | no missing _ ih =>
    cases second with
    | yes again => cases missing.symm.trans again
    | no _ later => exact ih later
  | word _ ih =>
    cases second with
    | word later => exact ih later
  | named read _ ih =>
    cases second with
    | named again later =>
      cases read.symm.trans again
      exact ih later
    | unnamed again => cases read.symm.trans again
  | unnamed read =>
    cases second with
    | named again => cases read.symm.trans again
    | unnamed again =>
      cases read.symm.trans again
      rfl
  | called _ _ ihFirst ihLater =>
    cases second with
    | called again later =>
      cases ihFirst again
      exact ihLater later
    | failed again => cases ihFirst again
  | failed _ ih =>
    cases second with
    | called again => cases ih again
    | failed again =>
      cases ih again
      rfl

/-! ## What is left -/

def left : Except Fault (α × List Char) → List Char
  | .ok (_, rest) => rest
  | .error fault => fault.rest

theorem dropBlank_suffix (text : List Char) : Text.dropBlank text <:+ text :=
  List.dropWhile_suffix _

theorem suffix_of_eat {sign : Char} {text rest : List Char} (eaten : eat? sign text = some rest) :
    rest <:+ Text.dropBlank text := by
  rw [eat_eq_some_iff.mp eaten]
  exact List.suffix_cons sign rest

theorem length_of_eat {sign : Char} {text rest : List Char} (eaten : eat? sign text = some rest) :
    rest.length < text.length := by
  have shorter := (dropBlank_suffix text).length_le
  rwa [eat_eq_some_iff.mp eaten, List.length_cons] at shorter

theorem suffix_of_parseName {text : List Char} {outcome : Except Fault (String × List Char)}
    (read : parseName text = outcome) : left outcome <:+ Text.dropBlank text := by
  subst read
  unfold parseName
  split
  next inner eaten =>
    split
    next name rest read =>
      obtain ⟨written, _, rfl⟩ := quotedName_eq_some_iff.mp read
      exact ((List.suffix_cons '"' rest).trans (List.suffix_append ..)).trans (suffix_of_eat eaten)
    next => exact List.nil_suffix
  next =>
    dsimp only
    split
    next => exact List.suffix_rfl
    next => exact List.dropWhile_suffix _

/-- Plans that take something off the text before they are done. -/
def Plan.Filled : Plan α → Prop
  | .done _ | .fail _ => False
  | .take _ _ | .word _ | .name _ | .call _ _ => True
  | .choose _ _ no => no.Filled

theorem filled_of (part : Part) : (Plan.of part).Filled := by
  cases part <;> trivial

/-- A run only goes forward, and a filled plan first drops the blank characters. -/
theorem Runs.suffix {plan : Plan α} {text : List Char} {outcome : Except Fault (α × List Char)}
    (runs : Runs plan text outcome) :
    left outcome <:+ text ∧ (plan.Filled → left outcome <:+ Text.dropBlank text) := by
  have forward {text : List Char} {p : Prop} {rest : List Char}
      (shorter : rest <:+ Text.dropBlank text) : rest <:+ text ∧ (p → rest <:+ Text.dropBlank text) :=
    ⟨shorter.trans (dropBlank_suffix text), fun _ => shorter⟩
  induction runs with
  | done | fail => exact ⟨List.suffix_rfl, False.elim⟩
  | taken eaten _ ih | yes eaten _ ih => exact forward (ih.1.trans (suffix_of_eat eaten))
  | absent => exact forward List.suffix_rfl
  | no _ _ ih => exact ih
  | word _ ih => exact forward (ih.1.trans (List.dropWhile_suffix _))
  | named read _ ih => exact forward (ih.1.trans (suffix_of_parseName read))
  | unnamed read => exact forward (suffix_of_parseName read)
  | @called _ part _ _ _ _ _ _ _ ihFirst ihLater =>
    exact forward (ihLater.1.trans (ihFirst.2 (filled_of part)))
  | @failed _ part _ _ _ _ ih => exact forward (ih.2 (filled_of part))

/-! ## Blank characters in front -/

theorem dropBlank_dropBlank (text : List Char) :
    Text.dropBlank (Text.dropBlank text) = Text.dropBlank text :=
  List.dropWhile_idempotent Text.isBlank text

theorem eat_dropBlank (sign : Char) (text : List Char) :
    eat? sign (Text.dropBlank text) = eat? sign text := by
  rw [eat?, dropBlank_dropBlank, ← eat?]

theorem parseName_dropBlank (text : List Char) : parseName (Text.dropBlank text) = parseName text := by
  unfold parseName
  rw [eat_dropBlank, dropBlank_dropBlank]

/-- A filled plan drops the blank characters anyway. -/
theorem Runs.of_dropBlank {plan : Plan α} {text : List Char} {outcome : Except Fault (α × List Char)}
    (runs : Runs plan (Text.dropBlank text) outcome) (filled : plan.Filled) :
    Runs plan text outcome := by
  generalize same : Text.dropBlank text = dropped at runs
  induction runs with
  | done | fail => exact filled.elim
  | taken eaten later =>
    rw [← same, eat_dropBlank] at eaten
    exact .taken eaten later
  | absent missing =>
    rw [← same, eat_dropBlank] at missing
    rw [← same, dropBlank_dropBlank]
    exact .absent missing
  | yes eaten later =>
    rw [← same, eat_dropBlank] at eaten
    exact .yes eaten later
  | no missing _ ih =>
    rw [← same, eat_dropBlank] at missing
    exact .no missing (ih filled same)
  | word later =>
    rw [← same, wordOf, afterWord, dropBlank_dropBlank] at later
    exact .word later
  | named read later =>
    rw [← same, parseName_dropBlank] at read
    exact .named read later
  | unnamed read =>
    rw [← same, parseName_dropBlank] at read
    exact .unnamed read
  | called _ later ih => exact .called (ih (filled_of _) same) later
  | failed _ ih => exact .failed (ih (filled_of _) same)

/-! ## The parser runs the plan -/

theorem Runs.take_bind {sign : Char} {next : Plan α} {text : List Char}
    {parse : List Char → Except Fault (α × List Char)}
    (later : ∀ rest, rest.length < text.length → Runs next rest (parse rest)) :
    Runs (.take sign next) text (expect sign text >>= parse) := by
  unfold expect
  split
  next rest eaten => exact .taken eaten (later rest (length_of_eat eaten))
  next missing => exact .absent missing

theorem Runs.call_bind {part : Part} {next : part.Result → Plan α} {text : List Char}
    {first : Except Fault (part.Result × List Char)}
    {parse : part.Result × List Char → Except Fault (α × List Char)}
    (runs : Runs (Plan.of part) text first)
    (later : ∀ a rest, rest.length ≤ text.length → Runs (next a) rest (parse (a, rest))) :
    Runs (.call part next) text (first >>= parse) := by
  match first, runs with
  | .ok (a, rest), runs => exact .called runs (later a rest runs.suffix.1.length_le)
  | .error fault, runs => exact .failed runs

theorem Runs.others {closing : Char} {part : Part} {only : α} {more : part.Result → α}
    {text : List Char} {many : List Char → Except Fault (part.Result × List Char)}
    (later : ∀ rest, rest.length < text.length → Runs (Plan.of part) rest (many rest)) :
    Runs (Plan.others closing part only more) text
      (match eat? closing text with
      | some rest => .ok (only, rest)
      | none => do
        let rest ← expect ',' text
        let (others, rest) ← many rest
        .ok (more others, rest)) := by
  split
  next rest eaten => exact .yes eaten (.done only rest)
  next missing =>
    exact .no missing (.take_bind fun rest shorter =>
      .call_bind (later rest shorter) fun others rest _ => .done (more others) rest)

def parseListed (opening closing : Char) (nothing : β) (make : α → β)
    (many : List Char → Except Fault (α × List Char)) (text : List Char) :
    Except Fault (β × List Char) := do
  let rest ← expect '(' text
  let rest ← expect opening rest
  match eat? closing rest with
  | some rest => do
    let rest ← expect ')' rest
    .ok (nothing, rest)
  | none => do
    let (found, rest) ← many rest
    let rest ← expect ')' rest
    .ok (make found, rest)

theorem Runs.listed {opening closing : Char} {part : Part} {nothing : α} {make : part.Result → α}
    {text : List Char} {many : List Char → Except Fault (part.Result × List Char)}
    (later : ∀ rest, rest.length < text.length → Runs (Plan.of part) rest (many rest)) :
    Runs (Plan.listed opening closing part nothing make) text
      (parseListed opening closing nothing make many text) := by
  refine .take_bind fun rest shorter => .take_bind fun inner inside => ?_
  split
  next after eaten => exact .yes eaten (.take_bind fun rest _ => .done nothing rest)
  next missing =>
    refine .no missing (.call_bind (later inner (by omega)) fun found after _ => ?_)
    exact .take_bind fun rest _ => .done (make found) rest

def parseBehind (fuel : Nat) (letters rest : List Char) : Except Fault (Ty × List Char) :=
  match announced letters with
  | .scalar ty => .ok (ty, rest)
  | .container make => parseElement make fuel rest
  | .tuple => parseListed '[' ']' (tuple []) tuple (parseItems fuel) rest
  | .object => parseListed '\x7b' '\x7d' (object []) (fun attributes =>
      object (Fields.ofList attributes)) (parseAttributes fuel) rest
  | .nothing => .error ⟨.expectedKeyword, rest⟩
  | .unknown => .error ⟨.unknownType (String.ofList letters), rest⟩

theorem parseTy_succ (fuel : Nat) (text : List Char) :
    parseTy (fuel + 1) text = parseBehind fuel (wordOf text) (afterWord text) := by
  rw [parseTy]
  unfold parseBehind announced parseListed wordOf afterWord
  generalize String.ofList ((Text.dropBlank text).takeWhile isNameChar) = keyword
  dsimp only
  split
  case h_11 => simp only [*]
  all_goals rfl

/-- With more units of fuel than characters, twice, the parser's outcomes are those of runs. -/
structure Faithful (fuel : Nat) : Prop where
  ty : ∀ text, 2 * text.length < fuel → Runs (Plan.of .ty) text (parseTy fuel text)
  element : ∀ make text, 2 * text.length + 1 < fuel →
    Runs (Plan.container make) text (parseElement make fuel text)
  items : ∀ text, 2 * text.length + 1 < fuel → Runs (Plan.of .items) text (parseItems fuel text)
  attributes : ∀ text, 2 * text.length + 1 < fuel →
    Runs (Plan.of .attributes) text (parseAttributes fuel text)

section Faithful

variable {fuel : Nat} (faithful : Faithful fuel) {text : List Char}
include faithful

theorem faithful_ty (enough : 2 * text.length < fuel + 1) :
    Runs (Plan.of .ty) text (parseTy (fuel + 1) text) := by
  have whole := (dropBlank_suffix text).length_le
  rw [← wordOf_append_afterWord, List.length_append] at whole
  rw [parseTy_succ]
  apply Runs.word
  unfold parseBehind Plan.behind
  split
  next ty _ => exact .done ty _
  next make container =>
    have filled : 0 < (wordOf text).length := by
      rw [List.length_pos_iff]
      intro empty
      rw [empty] at container
      cases container
    exact faithful.element make _ (by omega)
  next => exact .listed fun rest shorter => faithful.items rest (by omega)
  next => exact .listed fun rest shorter => faithful.attributes rest (by omega)
  next => exact .fail _ _
  next => exact .fail _ _

theorem faithful_element (make : Ty → Ty) (enough : 2 * text.length + 1 < fuel + 1) :
    Runs (Plan.container make) text (parseElement make (fuel + 1) text) := by
  rw [parseElement]
  refine .take_bind fun inner shorter => .call_bind (faithful.ty inner (by omega)) fun item after _ => ?_
  exact .take_bind fun rest _ => .done _ rest

theorem faithful_items (enough : 2 * text.length + 1 < fuel + 1) :
    Runs (Plan.of .items) text (parseItems (fuel + 1) text) := by
  rw [parseItems]
  refine .call_bind (faithful.ty text (by omega)) fun item rest shorter => ?_
  exact .others fun rest less => faithful.items rest (by omega)

theorem faithful_attributes (enough : 2 * text.length + 1 < fuel + 1) :
    Runs (Plan.of .attributes) text (parseAttributes (fuel + 1) text) := by
  rw [parseAttributes]
  match read : parseName text with
  | .error fault => exact .unnamed read
  | .ok (name, spelled) =>
    have shorter : spelled.length ≤ text.length :=
      ((suffix_of_parseName read).trans (dropBlank_suffix text)).length_le
    refine .named read (.take_bind fun inner inside => ?_)
    refine .call_bind (faithful.ty inner (by omega)) fun ty after _ => ?_
    exact .others fun rest less => faithful.attributes rest (by omega)

end Faithful

theorem faithful (fuel : Nat) : Faithful fuel := by
  induction fuel with
  | zero => constructor <;> intros <;> omega
  | succ fuel ih =>
    exact ⟨fun _ => faithful_ty ih, fun make _ => faithful_element ih make, fun _ => faithful_items ih,
      fun _ => faithful_attributes ih⟩

/-- The parser's outcome is that of a run and, behind a type, of a look at what is left. -/
theorem parseAll_eq {text : List Char} {outcome : Except Fault (Ty × List Char)}
    (runs : Runs (Plan.of .ty) text outcome) : parseAll text = (do
      let (ty, rest) ← outcome
      match Text.dropBlank rest with
      | [] => .ok ty
      | rest => .error ⟨.trailingInput, rest⟩) := by
  rw [runs.unique ((faithful (2 * text.length + 2)).ty text (by omega))]
  rfl

theorem parseAll_of_error {text : List Char} {fault : Fault}
    (runs : Runs (Plan.of .ty) text (.error fault)) : parseAll text = .error fault :=
  parseAll_eq runs

theorem parseAll_of_blank {text rest : List Char} {ty : Ty}
    (runs : Runs (Plan.of .ty) text (.ok (ty, rest))) (blank : Text.dropBlank rest = []) :
    parseAll text = .ok ty := by
  simp only [parseAll_eq runs, bind, Except.bind, blank]

theorem parseAll_of_cons {text rest more : List Char} {ty : Ty} {c : Char}
    (runs : Runs (Plan.of .ty) text (.ok (ty, rest))) (visible : Text.dropBlank rest = c :: more) :
    parseAll text = .error ⟨.trailingInput, c :: more⟩ := by
  simp only [parseAll_eq runs, bind, Except.bind, visible]

theorem exists_run (text : List Char) : ∃ outcome, Runs (Plan.of .ty) text outcome :=
  ⟨_, (faithful (2 * text.length + 1)).ty text (by omega)⟩

end PluginBridge.Ty
