import PluginBridge.Reader

/-! Readers that find an item at the front of any bytes that begin with it, or fail on all of them.
Every encoding is shown to round-trip in this form, since items stand one behind the other. -/

namespace PluginBridge.Reader

variable {ε α β : Type}

/-- Items of at least a byte each, written one behind the other, are no more than their bytes. -/
theorem length_le_of_cons {written : List α → Bytes} {front : α → Bytes}
    (step : ∀ item rest, written (item :: rest) = front item ++ written rest)
    (filled : ∀ item, 0 < (front item).length) (items : List α) :
    items.length ≤ (written items).length := by
  induction items with
  | nil => exact Nat.zero_le _
  | cons item rest ih =>
    have first := filled item
    rw [step, List.length_append, List.length_cons]
    omega

theorem length_le_of_members {written : List (String × α) → Bytes} {name : String → Bytes}
    {content : α → Bytes}
    (step : ∀ member rest,
      written (member :: rest) = name member.1 ++ content member.2 ++ written rest)
    (filled : ∀ a, 0 < (content a).length) (members : List (String × α)) :
    members.length ≤ (written members).length := by
  apply length_le_of_cons step
  intro member
  rw [List.length_append]
  exact Nat.add_pos_right _ (filled member.2)

/-- The reader finds the item in these bytes whatever follows them, and leaves what follows. -/
def Reads (reader : Reader ε α) (bytes : Bytes) (a : α) : Prop :=
  ∀ rest, reader (bytes ++ rest) = .ok (a, rest)

theorem Reads.front {reader : Reader ε α} {bytes : Bytes} {a : α} (reads : reader.Reads bytes a)
    (rest : Bytes) : reader.front (bytes ++ rest) = .ok a := by
  simp only [Reader.front, reads rest]
  rfl

theorem front_eq_ok {reader : Reader ε α} {bytes : Bytes} {a : α} :
    reader.front bytes = .ok a ↔ ∃ rest, reader bytes = .ok (a, rest) := by
  unfold Reader.front
  cases found : reader bytes with
  | error error => simp [Except.map]
  | ok item =>
    obtain ⟨other, rest⟩ := item
    simp [Except.map]

/-- What two readers find one behind the other, each of them finds. -/
theorem exists_of_bind_ok {first : Reader ε α} {next : α → Reader ε β} {bytes : Bytes}
    {found : β × Bytes} (ran : (first >>= next) bytes = .ok found) :
    ∃ a rest, first bytes = .ok (a, rest) ∧ next a rest = .ok found := by
  change (first bytes >>= fun item => next item.1 item.2) = _ at ran
  cases item : first bytes with
  | error error =>
    rw [item] at ran
    simp [bind, Except.bind] at ran
  | ok item' =>
    rw [item] at ran
    exact ⟨item'.1, item'.2, rfl, ran⟩

theorem reads_pure (a : α) : (pure a : Reader ε α).Reads [] a :=
  fun _ => rfl

theorem Reads.bind {first : Reader ε α} {next : α → Reader ε β} {bytes more : Bytes} {a : α} {b : β}
    (reads : first.Reads bytes a) (later : (next a).Reads more b) :
    (first >>= next).Reads (bytes ++ more) b := by
  intro rest
  rw [List.append_assoc]
  change (first (bytes ++ (more ++ rest)) >>= fun found => next found.1 found.2) = _
  rw [reads (more ++ rest)]
  exact later rest

/-- A reader that goes on without taking anything. -/
theorem Reads.bind_pure {first : Reader ε α} {next : α → Reader ε β} {bytes : Bytes} {a : α} {b : β}
    (reads : first.Reads bytes a) (later : next a = pure b) : (first >>= next).Reads bytes b := by
  rw [← List.append_nil bytes]
  exact reads.bind (later ▸ reads_pure b)

theorem Reads.map {reader : Reader ε α} {bytes : Bytes} {a : α} (reads : reader.Reads bytes a)
    (f : α → β) : (f <$> reader).Reads bytes (f a) := by
  rw [map_eq_pure_bind]
  exact reads.bind_pure rfl

theorem reads_byte (empty : ε) (b : UInt8) : (Reader.byte empty).Reads [b] b :=
  fun _ => rfl

/-- A byte in front of what is read on. -/
theorem reads_cons {next : UInt8 → Reader ε α} {b : UInt8} {more : Bytes} {a : α} (empty : ε)
    (later : (next b).Reads more a) : (Reader.byte empty >>= next).Reads (b :: more) a :=
  (reads_byte empty b).bind later

theorem reads_take (short : ε) (bytes : Bytes) :
    (Reader.take short bytes.length).Reads bytes bytes := by
  intro rest
  simp only [Reader.take, List.length_append]
  rw [if_neg (by omega), List.take_left, List.drop_left]

/-- The reader finds the items one behind the other in these bytes. -/
inductive ReadsEach (reader : Reader ε α) : List α → Bytes → Prop where
  | nil : ReadsEach reader [] []
  | cons {a : α} {rest : List α} {bytes more : Bytes} (first : reader.Reads bytes a)
      (later : ReadsEach reader rest more) : ReadsEach reader (a :: rest) (bytes ++ more)

/-- A counted sequence is found if each of its items is. -/
theorem ReadsEach.exactly {reader : Reader ε α} {items : List α} {bytes : Bytes}
    (each : ReadsEach reader items bytes) :
    (Reader.exactly reader items.length).Reads bytes items := by
  induction each with
  | nil => exact reads_pure []
  | cons first _ ih => exact first.bind (ih.bind_pure rfl)

theorem readsEach_flatMap {reader : Reader ε α} {items : List α} (write : α → Bytes)
    (each : ∀ item ∈ items, reader.Reads (write item) item) :
    ReadsEach reader items (items.flatMap write) := by
  induction items with
  | nil => exact .nil
  | cons item rest ih =>
    have first := each item (List.mem_cons_self ..)
    have later := ih fun other member => each other (List.mem_cons_of_mem _ member)
    rw [List.flatMap_cons]
    exact .cons first later

/-! ## Readers that find an item or fail -/

/-- The reader fails for this reason on these bytes whatever follows them. -/
def Fails (reader : Reader ε α) (bytes : Bytes) (error : ε) : Prop :=
  ∀ rest, reader (bytes ++ rest) = .error error

theorem Fails.front {reader : Reader ε α} {bytes : Bytes} {error : ε}
    (fails : reader.Fails bytes error) (rest : Bytes) :
    reader.front (bytes ++ rest) = .error error := by
  simp only [Reader.front, fails rest]
  rfl

theorem fails_throw (error : ε) : (throw error : Reader ε α).Fails [] error :=
  fun _ => rfl

/-- A reader that fails does so in front of anything. -/
theorem Fails.append {reader : Reader ε α} {bytes : Bytes} {error : ε}
    (fails : reader.Fails bytes error) (more : Bytes) : reader.Fails (bytes ++ more) error := by
  intro rest
  rw [List.append_assoc]
  exact fails (more ++ rest)

theorem Fails.bind {first : Reader ε α} {bytes : Bytes} {error : ε}
    (fails : first.Fails bytes error) (next : α → Reader ε β) :
    (first >>= next).Fails bytes error := by
  intro rest
  change (first (bytes ++ rest) >>= fun found => next found.1 found.2) = _
  rw [fails rest]
  rfl

theorem Fails.map {reader : Reader ε α} {bytes : Bytes} {error : ε}
    (fails : reader.Fails bytes error) (f : α → β) : (f <$> reader).Fails bytes error := by
  rw [map_eq_pure_bind]
  exact fails.bind _

theorem Reads.bind_fails {first : Reader ε α} {next : α → Reader ε β} {bytes more : Bytes} {a : α}
    {error : ε} (reads : first.Reads bytes a) (later : (next a).Fails more error) :
    (first >>= next).Fails (bytes ++ more) error := by
  intro rest
  rw [List.append_assoc]
  change (first (bytes ++ (more ++ rest)) >>= fun found => next found.1 found.2) = _
  rw [reads (more ++ rest)]
  exact later rest

/-- What goes on without taking anything fails at once. -/
theorem Reads.bind_throw {first : Reader ε α} {next : α → Reader ε β} {bytes : Bytes} {a : α}
    {error : ε} (reads : first.Reads bytes a) (later : next a = throw error) :
    (first >>= next).Fails bytes error := by
  rw [← List.append_nil bytes]
  exact reads.bind_fails (later ▸ fails_throw error)

/-- The reader finds the item in these bytes if the condition holds, and otherwise fails for this
reason, whatever follows the bytes. -/
structure ReadsIff (reader : Reader ε α) (bytes : Bytes) (a : α) (error : ε) (fine : Prop) :
    Prop where
  reads : fine → reader.Reads bytes a
  fails : ¬ fine → reader.Fails bytes error

theorem ReadsIff.front {reader : Reader ε α} {bytes : Bytes} {a : α} {error : ε} {fine : Prop}
    [Decidable fine] (settled : reader.ReadsIff bytes a error fine) (rest : Bytes) :
    reader.front (bytes ++ rest) = if fine then .ok a else .error error := by
  split
  next fine => exact (settled.reads fine).front rest
  next bad => exact (settled.fails bad).front rest

theorem Reads.always {reader : Reader ε α} {bytes : Bytes} {a : α} {fine : Prop} {error : ε}
    (reads : reader.Reads bytes a) (holds : fine) : reader.ReadsIff bytes a error fine where
  reads _ := reads
  fails bad := absurd holds bad

theorem Fails.never {reader : Reader ε α} {bytes : Bytes} {a : α} {fine : Prop} {error : ε}
    (fails : reader.Fails bytes error) (bad : ¬ fine) : reader.ReadsIff bytes a error fine where
  reads holds := absurd holds bad
  fails _ := fails

theorem ReadsIff.congr {reader : Reader ε α} {bytes : Bytes} {a : α} {error : ε}
    {fine other : Prop} (settled : reader.ReadsIff bytes a error fine) (same : other ↔ fine) :
    reader.ReadsIff bytes a error other where
  reads holds := settled.reads (same.mp holds)
  fails bad := settled.fails fun holds => bad (same.mpr holds)

/-- Of two readers the second decides only once the first has found its item. -/
theorem ReadsIff.bind {first : Reader ε α} {next : α → Reader ε β} {bytes more : Bytes} {a : α}
    {b : β} {error : ε} {here there : Prop} (settled : first.ReadsIff bytes a error here)
    (later : (next a).ReadsIff more b error there) :
    (first >>= next).ReadsIff (bytes ++ more) b error (here ∧ there) where
  reads holds := (settled.reads holds.1).bind (later.reads holds.2)
  fails bad := by
    by_cases holds : here
    · exact (settled.reads holds).bind_fails (later.fails fun other => bad ⟨holds, other⟩)
    · exact ((settled.fails holds).bind next).append more

theorem Reads.bind_iff {first : Reader ε α} {next : α → Reader ε β} {bytes more : Bytes} {a : α}
    {b : β} {error : ε} {fine : Prop} (reads : first.Reads bytes a)
    (later : (next a).ReadsIff more b error fine) :
    (first >>= next).ReadsIff (bytes ++ more) b error fine where
  reads holds := reads.bind (later.reads holds)
  fails bad := reads.bind_fails (later.fails bad)

theorem ReadsIff.bind_pure {first : Reader ε α} {next : α → Reader ε β} {bytes : Bytes} {a : α}
    {b : β} {error : ε} {fine : Prop} (settled : first.ReadsIff bytes a error fine)
    (later : next a = pure b) : (first >>= next).ReadsIff bytes b error fine where
  reads holds := (settled.reads holds).bind_pure later
  fails bad := (settled.fails bad).bind next

theorem ReadsIff.map {reader : Reader ε α} {bytes : Bytes} {a : α} {error : ε} {fine : Prop}
    (settled : reader.ReadsIff bytes a error fine) (f : α → β) :
    (f <$> reader).ReadsIff bytes (f a) error fine where
  reads holds := (settled.reads holds).map f
  fails bad := (settled.fails bad).map f

/-- The reader finds the items one behind the other, each under a condition of its own, or fails at
the first whose condition does not hold. -/
inductive ReadsEachIff (reader : Reader ε α) (error : ε) : List α → Bytes → Prop → Prop where
  | nil : ReadsEachIff reader error [] [] True
  | cons {a : α} {rest : List α} {bytes more : Bytes} {here there : Prop}
      (first : reader.ReadsIff bytes a error here)
      (later : ReadsEachIff reader error rest more there) :
      ReadsEachIff reader error (a :: rest) (bytes ++ more) (here ∧ there)

theorem ReadsEachIff.congr {reader : Reader ε α} {error : ε} {items : List α} {bytes : Bytes}
    {fine other : Prop} (each : ReadsEachIff reader error items bytes fine) (same : other ↔ fine) :
    ReadsEachIff reader error items bytes other :=
  propext same ▸ each

end PluginBridge.Reader
