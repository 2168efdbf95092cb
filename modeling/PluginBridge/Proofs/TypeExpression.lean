import PluginBridge.Proofs.Fields
import PluginBridge.Ty.Parser

/-! Type expressions, read back. What follows a type in an expression never continues a keyword, and
each unit of the parser's fuel stands for at least one character of the expression. -/

namespace PluginBridge.Ty

/-- The text goes on with no character of a keyword or a bare name. -/
def Closes (text : List Char) : Prop :=
  ∀ c ∈ text.head?, isNameChar c = false

theorem closes_nil : Closes [] := by
  simp [Closes]

theorem closes_cons {c : Char} (rest : List Char) (closing : isNameChar c = false) :
    Closes (c :: rest) := by
  simpa [Closes] using closing

theorem takeWhile_closes {rest : List Char} (closes : Closes rest) :
    rest.takeWhile isNameChar = [] := by
  cases rest with
  | nil => rfl
  | cons c rest => simp [closes c rfl]

theorem dropWhile_closes {rest : List Char} (closes : Closes rest) :
    rest.dropWhile isNameChar = rest := by
  cases rest with
  | nil => rfl
  | cons c rest => simp [closes c rfl]

/-- A name is taken as far as it goes. -/
theorem takeWhile_name {name rest : List Char} (named : ∀ c ∈ name, isNameChar c = true)
    (closes : Closes rest) : (name ++ rest).takeWhile isNameChar = name := by
  rw [List.takeWhile_append_of_pos named, takeWhile_closes closes, List.append_nil]

theorem dropWhile_name {name rest : List Char} (named : ∀ c ∈ name, isNameChar c = true)
    (closes : Closes rest) : (name ++ rest).dropWhile isNameChar = rest := by
  rw [List.dropWhile_append_of_pos named, dropWhile_closes closes]

theorem dropBlank_cons {c : Char} (rest : List Char) (visible : Text.isBlank c = false) :
    Text.dropBlank (c :: rest) = c :: rest := by
  simp [Text.dropBlank, visible]

theorem dropBlank_space (text : List Char) : Text.dropBlank (' ' :: text) = Text.dropBlank text := by
  simp [Text.dropBlank, show Text.isBlank ' ' = true by decide]

theorem eat_self (token : Char) (rest : List Char) (visible : Text.isBlank token = false) :
    eat? token (token :: rest) = some rest := by
  simp [eat?, dropBlank_cons rest visible]

theorem eat_other {token c : Char} (rest : List Char) (visible : Text.isBlank c = false)
    (distinct : c ≠ token) : eat? token (c :: rest) = none := by
  simp [eat?, dropBlank_cons rest visible, distinct]

theorem expect_self (token : Char) (rest : List Char) (visible : Text.isBlank token = false) :
    expect token (token :: rest) = .ok rest := by
  simp [expect, eat_self token rest visible]

/-! ## Attribute names -/

theorem quotedName_escapeName (name rest : List Char) :
    quotedName? (escapeName name ++ '"' :: rest) = some (name, rest) := by
  induction name with
  | nil => simp [escapeName, quotedName?]
  | cons c name ih =>
    by_cases special : c = '"' ∨ c = '\\'
    · rw [escapeName, if_pos special]
      simp [quotedName?, ih]
    · rw [escapeName, if_neg special]
      rw [not_or] at special
      simp [quotedName?, special.1, special.2, ih]

theorem isBlank_of_isNameChar {c : Char} (named : isNameChar c = true) : Text.isBlank c = false := by
  have code : (97 ≤ c.toNat ∧ c.toNat ≤ 122) ∨ (65 ≤ c.toNat ∧ c.toNat ≤ 90) ∨
      (48 ≤ c.toNat ∧ c.toNat ≤ 57) ∨ c.toNat = 95 ∨ c.toNat = 45 := by
    simp only [isNameChar, Bool.or_eq_true, Bool.and_eq_true, decide_eq_true_eq, beq_iff_eq,
      Char.le_def, UInt32.le_iff_toNat_le] at named
    rcases named with (((lower | upper) | digit) | rfl) | rfl
    · exact .inl lower
    · exact .inr (.inl upper)
    · exact .inr (.inr (.inl digit))
    · exact .inr (.inr (.inr (.inl rfl)))
    · exact .inr (.inr (.inr (.inr rfl)))
  simp only [Text.isBlank, Bool.or_eq_false_iff, Bool.and_eq_false_iff, decide_eq_false_iff_not,
    beq_eq_false_iff_ne]
  omega

/-- A name begins with a character of its own or with a quote. -/
theorem writeName_front (name : String) :
    ∃ c rest, writeName name = c :: rest ∧ (isNameChar c = true ∨ c = '"') := by
  unfold writeName
  split
  next bare =>
    simp only [isBareName, Bool.and_eq_true, Bool.not_eq_true', List.isEmpty_eq_false_iff,
      List.all_eq_true] at bare
    obtain ⟨c, others, spelled⟩ := List.exists_cons_of_ne_nil bare.1
    rw [spelled] at bare ⊢
    exact ⟨c, others, rfl, .inl (bare.2 c (List.mem_cons_self ..))⟩
  next => exact ⟨'"', _, rfl, .inr rfl⟩

theorem dropBlank_writeName (name : String) (rest : List Char) :
    Text.dropBlank (writeName name ++ rest) = writeName name ++ rest := by
  obtain ⟨c, others, spelled, named | rfl⟩ := writeName_front name
  · rw [spelled]
    exact dropBlank_cons _ (isBlank_of_isNameChar named)
  · rw [spelled]
    exact dropBlank_cons _ (by decide)

theorem parseName_writeName (name : String) (text rest : List Char)
    (dropped : Text.dropBlank text = writeName name ++ rest) (closes : Closes rest) :
    parseName text = .ok (name, rest) := by
  unfold writeName at dropped
  split at dropped
  next bare =>
    simp only [isBareName, Bool.and_eq_true, Bool.not_eq_true', List.isEmpty_eq_false_iff,
      List.all_eq_true] at bare
    obtain ⟨c, others, spelled⟩ := List.exists_cons_of_ne_nil bare.1
    have first : c ≠ '"' := by
      have named := bare.2 c (by simp [spelled])
      intro same
      rw [same] at named
      exact absurd named (by decide)
    have unquoted : eat? '"' text = none := by
      simp [eat?, dropped, spelled, first]
    unfold parseName
    rw [unquoted, dropped]
    dsimp only
    rw [takeWhile_name bare.2 closes, dropWhile_name bare.2 closes]
    rw [if_neg (by simp [bare.1]), String.ofList_toList]
  next =>
    have quoted : eat? '"' text = some (escapeName name.toList ++ '"' :: rest) := by
      simp [eat?, dropped]
    unfold parseName
    rw [quoted]
    dsimp only
    rw [quotedName_escapeName]
    simp

/-! ## Types -/

def listItems : List Ty → List Char
  | [] => []
  | item :: rest => write item ++ writeItems rest

def listAttributes : List (String × Ty) → List Char
  | [] => []
  | (name, ty) :: rest => writeName name ++ '=' :: (write ty ++ writeAttributes rest)

theorem write_list (item : Ty) : write (list item) = "list".toList ++ '(' :: (write item ++ [')']) :=
  rfl

theorem write_set (item : Ty) : write (set item) = "set".toList ++ '(' :: (write item ++ [')']) :=
  rfl

theorem write_map (item : Ty) : write (map item) = "map".toList ++ '(' :: (write item ++ [')']) :=
  rfl

theorem write_tuple (items : List Ty) : write (tuple items) =
    "tuple".toList ++ '(' :: '[' :: (listItems items ++ [']', ')']) := by
  cases items with
  | nil => rfl
  | cons item rest =>
    calc
      write (tuple (item :: rest))
        = "tuple([".toList ++ write item ++ writeItems rest ++ "])".toList := rfl
      _ = "tuple([".toList ++ (listItems (item :: rest) ++ "])".toList) := by
        simp only [listItems, List.append_assoc]

theorem write_object (attributes : List (String × Ty)) : write (object attributes) =
    "object".toList ++ '(' :: '\x7b' :: (listAttributes attributes ++ ['\x7d', ')']) := by
  cases attributes with
  | nil => rfl
  | cons member rest =>
    obtain ⟨name, ty⟩ := member
    calc
      write (object ((name, ty) :: rest))
        = "object(\x7b".toList ++ writeName name ++ '=' :: write ty ++ writeAttributes rest ++
            "\x7d)".toList := rfl
      _ = "object(\x7b".toList ++ (listAttributes ((name, ty) :: rest) ++ "\x7d)".toList) := by
        simp only [listAttributes, List.append_assoc, List.cons_append]

theorem writeItems_cons (item : Ty) (rest : List Ty) :
    writeItems (item :: rest) = ',' :: ' ' :: listItems (item :: rest) :=
  rfl

theorem writeAttributes_cons (member : String × Ty) (rest : List (String × Ty)) :
    writeAttributes (member :: rest) = ',' :: ' ' :: listAttributes (member :: rest) := by
  obtain ⟨name, ty⟩ := member
  calc
    writeAttributes ((name, ty) :: rest)
      = ',' :: ' ' :: (writeName name ++ '=' :: write ty ++ writeAttributes rest) := rfl
    _ = ',' :: ' ' :: listAttributes ((name, ty) :: rest) := by
      simp only [listAttributes, List.append_assoc, List.cons_append]

/-- A type begins with a character of its keyword. -/
theorem write_front (ty : Ty) : ∃ c rest, write ty = c :: rest ∧ isNameChar c = true := by
  cases ty with
  | tuple items => exact ⟨'t', _, write_tuple items, by decide⟩
  | object attributes => exact ⟨'o', _, write_object attributes, by decide⟩
  | _ => exact ⟨_, _, rfl, by decide⟩

theorem dropBlank_write (ty : Ty) (rest : List Char) :
    Text.dropBlank (write ty ++ rest) = write ty ++ rest := by
  obtain ⟨c, others, spelled, named⟩ := write_front ty
  rw [spelled]
  exact dropBlank_cons _ (isBlank_of_isNameChar named)

theorem dropBlank_listItems (item : Ty) (others : List Ty) (rest : List Char) :
    Text.dropBlank (listItems (item :: others) ++ rest) = listItems (item :: others) ++ rest := by
  rw [listItems, List.append_assoc]
  exact dropBlank_write item _

theorem dropBlank_listAttributes (member : String × Ty) (others : List (String × Ty))
    (rest : List Char) : Text.dropBlank (listAttributes (member :: others) ++ rest) =
      listAttributes (member :: others) ++ rest := by
  rw [listAttributes, List.append_assoc]
  exact dropBlank_writeName member.1 _

/-- No tuple with items looks like one that ends at once. -/
theorem eat_listItems (item : Ty) (others : List Ty) (rest : List Char) :
    eat? ']' (listItems (item :: others) ++ rest) = none := by
  obtain ⟨c, spelled, front, named⟩ := write_front item
  have distinct : c ≠ ']' := by
    rintro rfl
    exact absurd named (by decide)
  rw [listItems, front]
  exact eat_other _ (isBlank_of_isNameChar named) distinct

theorem eat_listAttributes (member : String × Ty) (others : List (String × Ty))
    (rest : List Char) : eat? '\x7d' (listAttributes (member :: others) ++ rest) = none := by
  obtain ⟨c, spelled, front, named | rfl⟩ := writeName_front member.1
  · have distinct : c ≠ '\x7d' := by
      rintro rfl
      exact absurd named (by decide)
    rw [listAttributes, front]
    exact eat_other _ (isBlank_of_isNameChar named) distinct
  · rw [listAttributes, front]
    exact eat_other _ (by decide) (by decide)

/-! ## The parser, rule by rule -/

attribute [local simp] parseTy parseElement parseItems parseAttributes

/-- The keyword in front of what does not continue it. -/
theorem keyword_taken {text after : List Char} (keyword : String)
    (spelled : keyword.toList.all isNameChar = true) (closes : Closes after)
    (dropped : Text.dropBlank text = keyword.toList ++ after) :
    String.ofList ((Text.dropBlank text).takeWhile isNameChar) = keyword ∧
      (Text.dropBlank text).dropWhile isNameChar = after := by
  have named : ∀ c ∈ keyword.toList, isNameChar c = true := List.all_eq_true.mp spelled
  rw [dropped, takeWhile_name named closes, dropWhile_name named closes, String.ofList_toList]
  exact ⟨rfl, rfl⟩

def scalars : List (String × Ty) :=
  [("any", any), ("bool", bool), ("number", number), ("string", string)]

theorem parseTy_scalar {keyword : String} {ty : Ty} {fuel : Nat} {text rest : List Char}
    (known : (keyword, ty) ∈ scalars) (closes : Closes rest)
    (dropped : Text.dropBlank text = keyword.toList ++ rest) :
    parseTy (fuel + 1) text = .ok (ty, rest) := by
  simp only [scalars, List.mem_cons, Prod.mk.injEq, List.not_mem_nil, or_false] at known
  rw [parseTy]
  rcases known with ⟨rfl, rfl⟩ | ⟨rfl, rfl⟩ | ⟨rfl, rfl⟩ | ⟨rfl, rfl⟩
  all_goals
    obtain ⟨word, left⟩ := keyword_taken _ (by decide) closes dropped
    simp only [word, left]

def containers : List (String × (Ty → Ty)) :=
  [("list", list), ("set", set), ("map", map)]

theorem parseElement_inside (container : Ty → Ty) {fuel : Nat} {item : Ty} {text rest : List Char}
    (inside : parseTy fuel text = .ok (item, ')' :: rest)) :
    parseElement container (fuel + 1) ('(' :: text) = .ok (container item, rest) := by
  have opened : expect '(' ('(' :: text) = .ok text := expect_self _ _ (by decide)
  have closed : expect ')' (')' :: rest) = .ok rest := expect_self _ _ (by decide)
  simp [opened, inside, closed, bind, Except.bind]

theorem parseTy_container {keyword : String} {container : Ty → Ty} {item : Ty} {fuel : Nat}
    {text inner rest : List Char} (known : (keyword, container) ∈ containers)
    (inside : parseTy fuel inner = .ok (item, ')' :: rest))
    (dropped : Text.dropBlank text = keyword.toList ++ '(' :: inner) :
    parseTy (fuel + 2) text = .ok (container item, rest) := by
  have closes : Closes ('(' :: inner) := closes_cons inner (by decide)
  simp only [containers, List.mem_cons, Prod.mk.injEq, List.not_mem_nil, or_false] at known
  rw [parseTy]
  rcases known with ⟨rfl, rfl⟩ | ⟨rfl, rfl⟩ | ⟨rfl, rfl⟩
  all_goals
    obtain ⟨word, left⟩ := keyword_taken _ (by decide) closes dropped
    simp only [word, left]
    exact parseElement_inside _ inside

/-- A container is parsed if its item type is parsed with enough fuel. -/
theorem parseTy_contained {keyword : String} {container : Ty → Ty} {item : Ty} {fuel : Nat}
    {text rest : List Char} (known : (keyword, container) ∈ containers)
    (spelled : write (container item) = keyword.toList ++ '(' :: (write item ++ [')']))
    (inside : ∀ fuel, (write item).length ≤ fuel →
      parseTy fuel (write item ++ ')' :: rest) = .ok (item, ')' :: rest))
    (enough : (write (container item)).length ≤ fuel + 1)
    (dropped : Text.dropBlank text = write (container item) ++ rest) :
    parseTy (fuel + 1) text = .ok (container item, rest) := by
  rw [spelled] at enough dropped
  simp only [List.length_append, List.length_cons] at enough
  obtain ⟨less, rfl⟩ : ∃ less, fuel = less + 1 := ⟨fuel - 1, by omega⟩
  apply parseTy_container known (inside less (by omega))
  simpa only [List.cons_append, List.append_assoc, List.nil_append] using dropped

theorem parseTy_tuple_nil {fuel : Nat} {text rest : List Char}
    (dropped : Text.dropBlank text = "tuple".toList ++ '(' :: '[' :: ']' :: ')' :: rest) :
    parseTy (fuel + 1) text = .ok (tuple [], rest) := by
  obtain ⟨word, left⟩ := keyword_taken "tuple" (by decide) (closes_cons _ (by decide)) dropped
  have opened := expect_self '(' ('[' :: ']' :: ')' :: rest) (by decide)
  have begun := expect_self '[' (']' :: ')' :: rest) (by decide)
  have ended := eat_self ']' (')' :: rest) (by decide)
  have closed := expect_self ')' rest (by decide)
  simp [word, left, opened, begun, ended, closed, bind, Except.bind]

theorem parseTy_tuple {fuel : Nat} {items : List Ty} {text inner rest : List Char}
    (more : eat? ']' inner = none) (inside : parseItems fuel inner = .ok (items, ')' :: rest))
    (dropped : Text.dropBlank text = "tuple".toList ++ '(' :: '[' :: inner) :
    parseTy (fuel + 1) text = .ok (tuple items, rest) := by
  obtain ⟨word, left⟩ := keyword_taken "tuple" (by decide) (closes_cons _ (by decide)) dropped
  have opened := expect_self '(' ('[' :: inner) (by decide)
  have begun := expect_self '[' inner (by decide)
  have closed := expect_self ')' rest (by decide)
  simp [word, left, opened, begun, more, inside, closed, bind, Except.bind]

theorem parseTy_object_nil {fuel : Nat} {text rest : List Char}
    (dropped : Text.dropBlank text = "object".toList ++ '(' :: '\x7b' :: '\x7d' :: ')' :: rest) :
    parseTy (fuel + 1) text = .ok (object [], rest) := by
  obtain ⟨word, left⟩ := keyword_taken "object" (by decide) (closes_cons _ (by decide)) dropped
  have opened := expect_self '(' ('\x7b' :: '\x7d' :: ')' :: rest) (by decide)
  have begun := expect_self '\x7b' ('\x7d' :: ')' :: rest) (by decide)
  have ended := eat_self '\x7d' (')' :: rest) (by decide)
  have closed := expect_self ')' rest (by decide)
  simp [word, left, opened, begun, ended, closed, bind, Except.bind]

theorem parseTy_object {fuel : Nat} {attributes : List (String × Ty)} {text inner rest : List Char}
    (more : eat? '\x7d' inner = none)
    (inside : parseAttributes fuel inner = .ok (attributes, ')' :: rest))
    (dropped : Text.dropBlank text = "object".toList ++ '(' :: '\x7b' :: inner) :
    parseTy (fuel + 1) text = .ok (object (Fields.ofList attributes), rest) := by
  obtain ⟨word, left⟩ := keyword_taken "object" (by decide) (closes_cons _ (by decide)) dropped
  have opened := expect_self '(' ('\x7b' :: inner) (by decide)
  have begun := expect_self '\x7b' inner (by decide)
  have closed := expect_self ')' rest (by decide)
  simp [word, left, opened, begun, more, inside, closed, bind, Except.bind]

/-- The item in front of a comma is followed by the other items. -/
theorem parseItems_more {fuel : Nat} {item : Ty} {items : List Ty} {text others rest : List Char}
    (first : parseTy fuel text = .ok (item, ',' :: others))
    (later : parseItems fuel others = .ok (items, rest)) :
    parseItems (fuel + 1) text = .ok (item :: items, rest) := by
  have more : eat? ']' (',' :: others) = none := eat_other _ (by decide) (by decide)
  have comma : expect ',' (',' :: others) = .ok others := expect_self _ _ (by decide)
  simp [first, more, comma, later, bind, Except.bind]

theorem parseItems_last {fuel : Nat} {item : Ty} {text rest : List Char}
    (only : parseTy fuel text = .ok (item, ']' :: rest)) :
    parseItems (fuel + 1) text = .ok ([item], rest) := by
  have ended : eat? ']' (']' :: rest) = some rest := eat_self _ _ (by decide)
  simp [only, ended, bind, Except.bind]

theorem parseAttributes_more {fuel : Nat} {name : String} {ty : Ty}
    {attributes : List (String × Ty)} {text spelled others rest : List Char}
    (named : parseName text = .ok (name, '=' :: spelled))
    (first : parseTy fuel spelled = .ok (ty, ',' :: others))
    (later : parseAttributes fuel others = .ok (attributes, rest)) :
    parseAttributes (fuel + 1) text = .ok ((name, ty) :: attributes, rest) := by
  have equals : expect '=' ('=' :: spelled) = .ok spelled := expect_self _ _ (by decide)
  have more : eat? '\x7d' (',' :: others) = none := eat_other _ (by decide) (by decide)
  have comma : expect ',' (',' :: others) = .ok others := expect_self _ _ (by decide)
  simp [named, equals, first, more, comma, later, bind, Except.bind]

theorem parseAttributes_last {fuel : Nat} {name : String} {ty : Ty} {text spelled rest : List Char}
    (named : parseName text = .ok (name, '=' :: spelled))
    (only : parseTy fuel spelled = .ok (ty, '\x7d' :: rest)) :
    parseAttributes (fuel + 1) text = .ok ([(name, ty)], rest) := by
  have equals : expect '=' ('=' :: spelled) = .ok spelled := expect_self _ _ (by decide)
  have ended : eat? '\x7d' ('\x7d' :: rest) = some rest := eat_self _ _ (by decide)
  simp [named, equals, only, ended, bind, Except.bind]

/-! ## Reading back -/

mutual

theorem parseTy_write (ty : Ty) (fuel : Nat) (text rest : List Char) (ordered : ty.Ordered)
    (closes : Closes rest) (enough : (write ty).length ≤ fuel)
    (dropped : Text.dropBlank text = write ty ++ rest) : parseTy fuel text = .ok (ty, rest) := by
  obtain ⟨c, others, spelled, _⟩ := write_front ty
  obtain ⟨less, rfl⟩ : ∃ less, fuel = less + 1 := ⟨fuel - 1, by
    rw [spelled, List.length_cons] at enough
    omega⟩
  cases ty with
  | any => exact parseTy_scalar (by simp [scalars]) closes dropped
  | bool => exact parseTy_scalar (by simp [scalars]) closes dropped
  | number => exact parseTy_scalar (by simp [scalars]) closes dropped
  | string => exact parseTy_scalar (by simp [scalars]) closes dropped
  | list item =>
    have inside := fun fuel enough => parseTy_write item fuel _ (')' :: rest) ordered
      (closes_cons rest (by decide)) enough (dropBlank_write item _)
    exact parseTy_contained (by simp [containers]) (write_list item) inside enough dropped
  | set item =>
    have inside := fun fuel enough => parseTy_write item fuel _ (')' :: rest) ordered
      (closes_cons rest (by decide)) enough (dropBlank_write item _)
    exact parseTy_contained (by simp [containers]) (write_set item) inside enough dropped
  | map item =>
    have inside := fun fuel enough => parseTy_write item fuel _ (')' :: rest) ordered
      (closes_cons rest (by decide)) enough (dropBlank_write item _)
    exact parseTy_contained (by simp [containers]) (write_map item) inside enough dropped
  | tuple items =>
    rw [write_tuple, List.append_assoc] at dropped
    rw [write_tuple] at enough
    simp only [List.length_append, List.length_cons] at enough
    cases items with
    | nil => exact parseTy_tuple_nil dropped
    | cons item others =>
      have more := eat_listItems item others (']' :: ')' :: rest)
      have inside := parseItems_list (item :: others) less _ (')' :: rest) (by simp) ordered
        (by omega) (dropBlank_listItems item others _)
      apply parseTy_tuple more inside
      simpa only [List.cons_append, List.append_assoc, List.nil_append] using dropped
  | object attributes =>
    rw [write_object, List.append_assoc] at dropped
    rw [write_object] at enough
    simp only [List.length_append, List.length_cons] at enough
    cases attributes with
    | nil => exact parseTy_object_nil dropped
    | cons member others =>
      have more := eat_listAttributes member others ('\x7d' :: ')' :: rest)
      have inside := parseAttributes_list (member :: others) less _ (')' :: rest) (by simp)
        ordered.2 (by omega) (dropBlank_listAttributes member others _)
      rw [← Fields.ofList_ascending _ ordered.1]
      apply parseTy_object more inside
      simpa only [List.cons_append, List.append_assoc, List.nil_append] using dropped
termination_by structural ty

theorem parseItems_list (items : List Ty) (fuel : Nat) (text rest : List Char)
    (filled : items ≠ []) (ordered : OrderedItems items) (enough : (listItems items).length < fuel)
    (dropped : Text.dropBlank text = listItems items ++ ']' :: rest) :
    parseItems fuel text = .ok (items, rest) := by
  obtain ⟨less, rfl⟩ : ∃ less, fuel = less + 1 := ⟨fuel - 1, by omega⟩
  cases items with
  | nil => exact absurd rfl filled
  | cons item others =>
    simp only [listItems, List.length_append] at enough
    rw [listItems, List.append_assoc] at dropped
    cases others with
    | nil =>
      have only := parseTy_write item less text (']' :: rest) ordered.1 (closes_cons _ (by decide))
        (by omega) dropped
      exact parseItems_last only
    | cons next others =>
      rw [writeItems_cons] at enough dropped
      simp only [List.length_cons] at enough
      have first := parseTy_write item less text _ ordered.1 (closes_cons _ (by decide))
        (by omega) dropped
      have later := parseItems_list (next :: others) less
        (' ' :: listItems (next :: others) ++ ']' :: rest) rest (by simp) ordered.2 (by omega) (by
          rw [List.cons_append, dropBlank_space]
          exact dropBlank_listItems next others _)
      exact parseItems_more first later
termination_by structural items

theorem parseAttributes_list (attributes : List (String × Ty)) (fuel : Nat) (text rest : List Char)
    (filled : attributes ≠ []) (ordered : OrderedAttributes attributes)
    (enough : (listAttributes attributes).length < fuel)
    (dropped : Text.dropBlank text = listAttributes attributes ++ '\x7d' :: rest) :
    parseAttributes fuel text = .ok (attributes, rest) := by
  obtain ⟨less, rfl⟩ : ∃ less, fuel = less + 1 := ⟨fuel - 1, by omega⟩
  cases attributes with
  | nil => exact absurd rfl filled
  | cons member others =>
    obtain ⟨name, ty⟩ := member
    simp only [listAttributes, List.length_append, List.length_cons] at enough
    simp only [listAttributes, List.append_assoc, List.cons_append] at dropped
    have named := parseName_writeName name text _ dropped (closes_cons _ (by decide))
    cases others with
    | nil =>
      have only := parseTy_write ty less _ ('\x7d' :: rest) ordered.1 (closes_cons _ (by decide))
        (by omega) (dropBlank_write ty _)
      exact parseAttributes_last named only
    | cons next others =>
      rw [writeAttributes_cons] at enough named
      simp only [List.length_cons] at enough
      have first := parseTy_write ty less _
        (',' :: ' ' :: listAttributes (next :: others) ++ '\x7d' :: rest) ordered.1
        (closes_cons _ (by decide)) (by omega) (dropBlank_write ty _)
      have later := parseAttributes_list (next :: others) less
        (' ' :: listAttributes (next :: others) ++ '\x7d' :: rest) rest (by simp) ordered.2
        (by omega) (by
          rw [List.cons_append, dropBlank_space]
          exact dropBlank_listAttributes next others _)
      exact parseAttributes_more named first later
termination_by structural attributes

end

/-- The whole text of a type is read as the type, with nothing left. -/
theorem parseAll_write (ty : Ty) (ordered : ty.Ordered) : parseAll ty.write = .ok ty := by
  have whole : parseTy (2 * (write ty).length + 2) (write ty) = .ok (ty, []) :=
    parseTy_write ty _ _ [] ordered closes_nil (by omega) (by
      simpa only [List.append_nil] using dropBlank_write ty [])
  simp only [parseAll, whole]
  rfl

/-- A type expression stands for the type it was written for, whatever the names of its
attributes. -/
theorem parse_expression (ty : Ty) (ordered : ty.Ordered) : Ty.parse ty.expression = .ok ty := by
  simp only [Ty.parse, expression, String.toList_ofList, parseAll_write ty ordered]

section Example

/-- Names that are empty, blank, keywords, or hold quotes, backslashes and closing characters. -/
def awkward : Ty :=
  .object [("", .any), (" \t", .list .bool), ("\"", .string),
    ("\\\"=any\x7d)", .tuple [.number, .tuple []]), ("a b", .set .any),
    ("any", .map (.object [])), ("ключ", .number)]

theorem parse_expression_awkward : awkward.Ordered ∧ Ty.parse awkward.expression = .ok awkward := by
  have ordered : awkward.Ordered := by
    simp only [awkward, Ordered, OrderedAttributes, OrderedItems]
    decide
  exact ⟨ordered, parse_expression awkward ordered⟩

end Example

end PluginBridge.Ty
