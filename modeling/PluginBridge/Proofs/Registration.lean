import PluginBridge.Proofs.Codec

/-! Registries after any registrations. Data are written under the name that their type got last, and
are read as data of the type that got that name last. The two are remembered apart: a type keeps its
name when another type takes it. -/

namespace PluginBridge.TypeRegistry

section History

variable {ι : Type} {Data : ι → Type}

def registerAll (types : (i : ι) → ResultType (Data i)) (history : List (String × ι)) :
    TypeRegistry :=
  history.foldl (fun registry step => registry.register step.1 (types step.2)) empty

def holder? (history : List (String × ι)) (name : String) : Option ι :=
  history.reverse.lookup name

theorem holder?_concat (history : List (String × ι)) (name sought : String) (i : ι) :
    holder? (history ++ [(name, i)]) sought =
      if sought = name then some i else holder? history sought := by
  rw [holder?, List.reverse_concat, Fields.lookup_cons_eq_ite, holder?]

variable [DecidableEq ι]

def lastName? (history : List (String × ι)) (i : ι) : Option String :=
  (history.reverse.map Prod.swap).lookup i

theorem lastName?_concat (history : List (String × ι)) (name : String) (i sought : ι) :
    lastName? (history ++ [(name, i)]) sought =
      if sought = i then some name else lastName? history sought := by
  rw [lastName?, List.reverse_concat, List.map_cons, Prod.swap_prod_mk, Fields.lookup_cons_eq_ite,
    lastName?]

theorem lastName?_eq_none_iff {history : List (String × ι)} {i : ι} :
    lastName? history i = none ↔ ∀ step ∈ history, step.2 ≠ i := by
  induction history using List.reverseRecOn with
  | nil => simp [lastName?]
  | append_singleton history step ih =>
    obtain ⟨name, j⟩ := step
    rw [lastName?_concat, List.forall_mem_append, List.forall_mem_singleton, ← ih]
    by_cases same : i = j <;> simp [same, Ne.symm]

/-- A name that a type has is held by some type, though maybe by one that got it later. -/
theorem exists_holder_of_lastName {history : List (String × ι)} {i : ι} {name : String}
    (named : lastName? history i = some name) : ∃ j, holder? history name = some j := by
  induction history using List.reverseRecOn with
  | nil => cases named
  | append_singleton history step ih =>
    obtain ⟨taken, j⟩ := step
    rw [lastName?_concat] at named
    rw [holder?_concat]
    by_cases same : name = taken
    · exact ⟨j, if_pos same⟩
    · have other : i ≠ j := by
        rintro rfl
        rw [if_pos rfl] at named
        exact same (Option.some.inj named).symm
      rw [if_neg other] at named
      rw [if_neg same]
      exact ih named

/-- A registry remembers of the registrations the last name of every type and the last type of every
name. -/
structure Reflects (types : (i : ι) → ResultType (Data i)) (history : List (String × ι))
    (registry : TypeRegistry) : Prop where
  names : ∀ i, registry.names.lookup (types i).identifier = lastName? history i
  readers : ∀ name,
    registry.readers.lookup name = (holder? history name).map fun i => (types i).decode

variable {types : (i : ι) → ResultType (Data i)}
  (distinct : Function.Injective fun i => (types i).identifier)

include distinct

theorem Reflects.register {history : List (String × ι)} {registry : TypeRegistry}
    (reflects : Reflects types history registry) (name : String) (i : ι) :
    Reflects types (history ++ [(name, i)]) (registry.register name (types i)) where
  names sought := by
    have alike : (types sought).identifier = (types i).identifier ↔ sought = i := distinct.eq_iff
    rw [lastName?_concat, TypeRegistry.register, Fields.lookup_cons_eq_ite, reflects.names]
    simp only [alike]
  readers sought := by
    rw [holder?_concat, TypeRegistry.register, Fields.lookup_cons_eq_ite, reflects.readers]
    by_cases same : sought = name <;> simp [same]

theorem reflects_registerAll (history : List (String × ι)) :
    Reflects types history (registerAll types history) := by
  induction history using List.reverseRecOn with
  | nil => exact ⟨fun _ => rfl, fun _ => rfl⟩
  | append_singleton history step ih =>
    rw [registerAll, List.foldl_append]
    exact ih.register distinct step.1 step.2

theorem encode_registerAll (history : List (String × ι)) (i : ι) (x : Data i) :
    (registerAll types history).encode (types i) x =
      match lastName? history i with
      | some name => .ok (blob.write (name, (types i).form.write x))
      | none => .error (.unregistered (types i).identifier) := by
  have remembered := (reflects_registerAll distinct history).names i
  cases named : lastName? history i <;> simp only [encode, remembered, named]

theorem decode_registerAll (history : List (String × ι)) (name : String) (payload : Bytes)
    (fits : (blob.write (name, payload)).length < 2 ^ 64) :
    (registerAll types history).decode (blob.write (name, payload)) =
      match holder? history name with
      | some j => (types j).decode payload
      | none => .error (.unregistered name) := by
  have named := (Codec.roundTrips_blob (name, payload) fits).decode_self
  simp only [decode, named, Except.mapError, bind, Except.bind,
    (reflects_registerAll distinct history).readers]
  cases holder? history name <;> rfl

/-- After any registrations data are written exactly if their type was registered, and what is
written is read as data of the type that got the name of theirs last. If that is their own type, the
value that they stand for is read. -/
theorem decode_encode_registered (history : List (String × ι)) (i : ι) (x : Data i)
    (trip : (types i).form.RoundTrips x) :
    ((∃ bytes, (registerAll types history).encode (types i) x = .ok bytes) ↔
      ∃ step ∈ history, step.2 = i) ∧
    ∀ bytes, (registerAll types history).encode (types i) x = .ok bytes → bytes.length < 2 ^ 64 →
      ∃ name j, lastName? history i = some name ∧ holder? history name = some j ∧
        (registerAll types history).decode bytes = (types j).decode ((types i).form.write x) ∧
        (j = i → (registerAll types history).decode bytes = .ok ((types i).toValue x)) := by
  rw [encode_registerAll distinct]
  cases named : lastName? history i with
  | none =>
    have never := lastName?_eq_none_iff.mp named
    constructor
    · exact ⟨fun ⟨_, written⟩ => (by cases written),
        fun ⟨step, inside, same⟩ => absurd same (never step inside)⟩
    · intro _ written
      cases written
  | some name =>
    constructor
    · refine ⟨fun _ => ?_, fun _ => ⟨_, rfl⟩⟩
      by_contra never
      have unnamed : lastName? history i = none :=
        lastName?_eq_none_iff.mpr fun step inside same => never ⟨step, inside, same⟩
      cases unnamed.symm.trans named
    · intro bytes written fits
      obtain rfl := Except.ok.inj written
      obtain ⟨j, held⟩ := exists_holder_of_lastName named
      have read := decode_registerAll distinct history name ((types i).form.write x) fits
      simp only [held] at read
      refine ⟨name, j, rfl, held, read, ?_⟩
      rintro rfl
      rw [read, ResultType.decode, trip.decode_self]

end History

section Example

/-- Two types of results: images, with an identifier and a region, and counts. -/
inductive Sample where
  | image
  | count
deriving DecidableEq

abbrev Sample.Data : Sample → Type
  | image => String × String
  | count => UInt32

def Sample.type : (sample : Sample) → ResultType sample.Data
  | image => {
      identifier := "Image"
      form := .pair .text .text
      toValue := fun (id, region) => .ofMembers [("id", .string id), ("region", .string region)] }
  | count => {
      identifier := "Count"
      form := .word32
      toValue n := .number (.ofNat n.toNat) }

theorem Sample.distinct : Function.Injective fun sample => (type sample).identifier := by
  intro a b same
  cases a <;> cases b <;> first | rfl | exact absurd same (by decide)

theorem Sample.roundTrips_image : (type .image).form.RoundTrips ("a", "") :=
  Compact.Form.roundTrips_pair (Compact.Form.roundTrips_text "a" (by decide))
    (Compact.Form.roundTrips_text "" (by decide))

/-- The count takes the name of the image, which then gets another one. -/
def renamed : List (String × Sample) :=
  [("n", .image), ("n", .count), ("m", .image)]

theorem decode_encode_renamed :
    (Sample.type .image).form.RoundTrips ("a", "") ∧
    lastName? renamed .image = some "m" ∧ holder? renamed "m" = some .image ∧
    ∃ bytes, (registerAll Sample.type renamed).encode (Sample.type .image) ("a", "") = .ok bytes ∧
      bytes.length < 2 ^ 64 ∧
      (registerAll Sample.type renamed).decode bytes =
        .ok (.object [("id", .string "a"), ("region", .string "")]) := by
  have trip := Sample.roundTrips_image
  obtain ⟨written, read⟩ := decode_encode_registered Sample.distinct renamed .image ("a", "") trip
  obtain ⟨bytes, encoded⟩ := written.mpr ⟨("n", .image), List.mem_cons_self .., rfl⟩
  have fits : bytes.length < 2 ^ 64 := by
    obtain rfl := Except.ok.inj encoded
    decide
  obtain ⟨name, j, named, held, -, kept⟩ := read bytes encoded fits
  obtain rfl : "m" = name := Option.some.inj named
  obtain rfl : .image = j := Option.some.inj held
  exact ⟨trip, named, held, bytes, encoded, fits, kept rfl⟩

/-- Without its new name the image is written under the name that the count took, and is read as a
count. -/
theorem decode_encode_taken :
    (Sample.type .image).form.RoundTrips ("a", "") ∧
    ∃ bytes, (registerAll Sample.type (renamed.take 2)).encode (Sample.type .image) ("a", "") =
        .ok bytes ∧
      (registerAll Sample.type (renamed.take 2)).decode bytes = .ok (.number (.ofNat 1)) ∧
      (registerAll Sample.type (renamed.take 2)).decode bytes ≠
        .ok ((Sample.type .image).toValue ("a", "")) := by
  refine ⟨Sample.roundTrips_image, _, rfl, rfl, ?_⟩
  nofun

end Example

end PluginBridge.TypeRegistry
