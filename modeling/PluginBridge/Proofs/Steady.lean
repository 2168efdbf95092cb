import PluginBridge.Proofs.Reading

/-! Readers that do not look behind what they take. What such a reader finds it finds in front of any
more bytes, so a reader that takes all bytes of an item finds nothing in a part of them. Readers
whose fuel comes from the number of bytes need that more fuel changes nothing either, so the notion
relates two readers: one that is given less, and one that is given more. -/

namespace PluginBridge.Reader

variable {ε α β : Type}

/-- What the first reader finds the second finds too, with any bytes added behind, and leaves
those. -/
def KeptBy (short long : Reader ε α) : Prop :=
  ∀ bytes a rest, short bytes = .ok (a, rest) → ∀ more, long (bytes ++ more) = .ok (a, rest ++ more)

/-- What the reader finds does not depend on what stands behind it. -/
abbrev Steady (reader : Reader ε α) : Prop :=
  reader.KeptBy reader

theorem steady_pure (a : α) : (pure a : Reader ε α).Steady := by
  intro bytes found rest ran more
  obtain ⟨rfl, rfl⟩ := Prod.mk.inj (Except.ok.inj ran)
  rfl

/-- A failure finds nothing that would have to be kept. -/
theorem keptBy_throw (error : ε) (long : Reader ε α) : (throw error : Reader ε α).KeptBy long := by
  intro bytes found rest ran
  cases ran

theorem KeptBy.bind {short long : Reader ε α} {next later : α → Reader ε β}
    (kept : short.KeptBy long) (behind : ∀ a, (next a).KeptBy (later a)) :
    (short >>= next).KeptBy (long >>= later) := by
  intro bytes found rest ran more
  obtain ⟨a, middle, first, second⟩ := exists_of_bind_ok ran
  change (long (bytes ++ more) >>= fun item => later item.1 item.2) = _
  rw [kept bytes a middle first more]
  exact behind a middle found rest second more

theorem KeptBy.map {short long : Reader ε α} (kept : short.KeptBy long) (f : α → β) :
    (f <$> short).KeptBy (f <$> long) := by
  rw [map_eq_pure_bind, map_eq_pure_bind]
  exact kept.bind fun a => steady_pure (f a)

/-- A reader whose fuel is the number of bytes, if more fuel changes nothing. -/
theorem steady_fuelled {reader : Nat → Reader ε α}
    (kept : ∀ less more, less ≤ more → (reader less).KeptBy (reader more)) :
    Steady fun bytes => reader (bytes.length + 1) bytes := by
  intro bytes found rest ran more
  have enough : bytes.length + 1 ≤ (bytes ++ more).length + 1 := by
    rw [List.length_append]
    omega
  exact kept _ _ enough bytes found rest ran more

theorem steady_byte (empty : ε) : (Reader.byte empty).Steady := by
  intro bytes found rest ran more
  cases bytes with
  | nil => cases ran
  | cons b behind =>
    obtain ⟨rfl, rfl⟩ := Prod.mk.inj (Except.ok.inj ran)
    rfl

theorem steady_take (short : ε) (count : Nat) : (Reader.take short count).Steady := by
  intro bytes found rest ran more
  unfold Reader.take at ran ⊢
  split at ran
  next => cases ran
  next enough =>
    obtain ⟨rfl, rfl⟩ := Prod.mk.inj (Except.ok.inj ran)
    have long : ¬ (bytes ++ more).length < count := by
      rw [List.length_append]
      omega
    rw [if_neg long, List.take_append_of_le_length (by omega),
      List.drop_append_of_le_length (by omega)]

theorem KeptBy.exactly {short long : Reader ε α} (kept : short.KeptBy long) (count : Nat) :
    (Reader.exactly short count).KeptBy (Reader.exactly long count) := by
  induction count with
  | zero => exact steady_pure []
  | succ count ih => exact kept.bind fun a => ih.bind fun rest => steady_pure (a :: rest)

/-! ## What is found at the front -/

theorem KeptBy.front {reader : Reader ε α} {bytes : Bytes} {a : α} (steady : reader.Steady)
    (found : reader.front bytes = .ok a) (more : Bytes) : reader.front (bytes ++ more) = .ok a := by
  obtain ⟨rest, ran⟩ := front_eq_ok.mp found
  exact front_eq_ok.mpr ⟨rest ++ more, steady bytes a rest ran more⟩

/-- In a part of bytes that a reader takes to the last one, if it finds anything, it finds
nothing. -/
theorem KeptBy.front_cut {reader : Reader ε α} {kept cut : Bytes} (steady : reader.Steady)
    (whole : ∀ a rest, reader (kept ++ cut) = .ok (a, rest) → rest = []) (some : cut ≠ []) :
    ∃ error, reader.front kept = .error error := by
  cases found : reader.front kept with
  | error error => exact ⟨error, rfl⟩
  | ok a =>
    obtain ⟨rest, ran⟩ := front_eq_ok.mp found
    have nothing := whole a _ (steady kept a rest ran cut)
    exact absurd (List.append_eq_nil_iff.mp nothing).2 some

theorem Reads.whole {reader : Reader ε α} {bytes : Bytes} {a : α} (reads : reader.Reads bytes a) :
    ∀ found rest, reader bytes = .ok (found, rest) → rest = [] := by
  intro found rest ran
  have all := reads []
  rw [List.append_nil, ran] at all
  exact (Prod.mk.inj (Except.ok.inj all)).2

theorem ReadsIff.whole {reader : Reader ε α} {bytes : Bytes} {a : α} {error : ε} {fine : Prop}
    (settled : reader.ReadsIff bytes a error fine) :
    ∀ found rest, reader bytes = .ok (found, rest) → rest = [] := by
  by_cases holds : fine
  · exact (settled.reads holds).whole
  · intro found rest ran
    have fails := settled.fails holds []
    rw [List.append_nil, ran] at fails
    cases fails

end PluginBridge.Reader
