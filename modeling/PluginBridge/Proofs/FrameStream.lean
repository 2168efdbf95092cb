import PluginBridge.Proofs.Exchange

/-! Streams of frames: frames that fit are read back in order, up to the end of the stream, and no
other is written; a stream that is cut inside a frame ends in a failure if the cut is behind the
length of the frame, and otherwise as if it were whole. -/

namespace PluginBridge.Frame

/-! ## The two kinds of frame -/

inductive Kind where
  | request
  | reply

def Kind.Carried : Kind → Type
  | request => RequestFrame
  | reply => ResponseFrame

def Kind.form : (kind : Kind) → Compact.Form kind.Carried
  | request => RequestFrame.form
  | reply => ResponseFrame.form

theorem Kind.roundTrips (kind : Kind) (a : kind.Carried) (fits : Fits kind.form a) :
    kind.form.RoundTrips a := by
  cases kind with
  | request => exact RequestFrame.roundTrips a fits.word
  | reply => exact ResponseFrame.roundTrips a fits.word

/-! ## Frames one behind the other -/

variable {α : Type} {form : Compact.Form α} {bytes rest : Bytes}

def stream (form : Compact.Form α) (frames : List α) : Bytes :=
  frames.flatMap fun a => frame (form.write a)

theorem stream_cons (form : Compact.Form α) (a : α) (frames : List α) :
    stream form (a :: frames) = frame (form.write a) ++ stream form frames :=
  List.flatMap_cons

theorem stream_append (form : Compact.Form α) (frames later : List α) :
    stream form (frames ++ later) = stream form frames ++ stream form later :=
  List.flatMap_append

/-! ## Writing -/

theorem writeTo_of_fits {a : α} (fits : Fits form a) (out : Bytes) :
    writeTo form out a = (out ++ frame (form.write a), .ok ()) := by
  rw [writeTo, write_of_fits fits]

theorem writeTo_of_not_fits {a : α} (large : ¬ Fits form a) (out : Bytes) :
    writeTo form out a = (out, .error (.frameTooLarge (form.write a).length)) := by
  rw [writeTo, write_of_not_fits large]

theorem writeTo_ok_iff (form : Compact.Form α) (out : Bytes) (a : α) :
    (writeTo form out a).2 = .ok () ↔ Fits form a := by
  constructor
  · intro accepted
    refine Decidable.byContradiction fun large => ?_
    rw [writeTo_of_not_fits large] at accepted
    cases accepted
  · intro fits
    rw [writeTo_of_fits fits]

/-- A frame that does not fit leaves the stream as it is, so the others stand one behind the other. -/
theorem writeAll_stream (form : Compact.Form α) (out : Bytes) (frames : List α) :
    (writeAll form out frames).1 = out ++ stream form (frames.filter (Fits form ·)) := by
  induction frames generalizing out with
  | nil => exact (List.append_nil out).symm
  | cons a frames ih =>
    by_cases fits : Fits form a
    · simp only [writeAll, writeTo_of_fits fits, ih]
      rw [List.filter_cons_of_pos (by exact decide_eq_true fits), stream_cons, List.append_assoc]
    · simp only [writeAll, writeTo_of_not_fits fits, ih]
      rw [List.filter_cons_of_neg (by simpa using fits)]

theorem writeAll_of_fits {frames : List α} (fit : ∀ a ∈ frames, Fits form a) :
    (writeAll form [] frames).1 = stream form frames := by
  have all : frames.filter (Fits form ·) = frames :=
    List.filter_eq_self.mpr fun a member => decide_eq_true (fit a member)
  rw [writeAll_stream, List.nil_append, all]

theorem writeAll_results (form : Compact.Form α) (out : Bytes) (frames : List α) :
    (writeAll form out frames).2 = frames.map fun a => (writeTo form [] a).2 := by
  induction frames generalizing out with
  | nil => rfl
  | cons a frames ih =>
    have same : (writeTo form out a).2 = (writeTo form [] a).2 := by
      rw [writeTo, writeTo]
      cases write form a <;> rfl
    rw [writeAll, List.map_cons, ← same, ← ih]

/-! ## Reading one frame -/

theorem read_short (form : Compact.Form α) (short : bytes.length < 4) :
    read form bytes = (.closed, []) := by
  rw [read, if_pos short]

theorem read_closed_iff (form : Compact.Form α) (bytes : Bytes) :
    (read form bytes).1 = .closed ↔ bytes.length < 4 := by
  fun_cases read form bytes with
  | case1 short => exact ⟨fun _ => short, fun _ => rfl⟩
  | case2 long | case3 long | case4 long | case5 long =>
    constructor
    · intro closed
      cases closed
    · exact fun short => absurd short long

/-- Whatever follows, a length above the limit is refused, and no other is. -/
theorem read_tooLarge_iff (form : Compact.Form α) {size : Nat} (word : size < 2 ^ 32)
    (rest : Bytes) :
    (read form (Bytes.littleEndian 4 size ++ rest)).1 = .failed (.frameTooLarge size) ↔
      limit < size := by
  rw [read_sized form word, checkSize]
  by_cases large : limit < size
  · rw [if_pos large]
    exact ⟨fun _ => large, fun _ => rfl⟩
  · rw [if_neg large]
    dsimp only
    refine ⟨fun refused => ?_, fun above => absurd above large⟩
    split at refused
    · cases refused
    · split at refused <;> cases refused

/-- The length of a frame is there, but not all of its payload. -/
theorem read_cut {a : α} (fits : Fits form a) {cut : Nat} (measured : 4 ≤ cut)
    (inside : cut < (frame (form.write a)).length) :
    read form ((frame (form.write a)).take cut) = (.failed (.io .earlyEof), []) := by
  obtain ⟨part, rfl⟩ := Nat.exists_eq_add_of_le measured
  have front : (frame (form.write a)).take (4 + part) =
      Bytes.littleEndian 4 (form.write a).length ++ (form.write a).take part := by
    rw [frame, List.take_append, Bytes.length_littleEndian, Nat.add_sub_cancel_left,
      List.take_of_length_le]
    rw [Bytes.length_littleEndian]
    exact Nat.le_add_right 4 part
  have missing : ((form.write a).take part).length < (form.write a).length := by
    rw [length_frame] at inside
    rw [List.length_take]
    omega
  rw [front, read_sized form (Nat.lt_of_le_of_lt fits limit_lt), fits.checked]
  exact if_pos missing

/-- Four bytes or more are read of a frame. -/
theorem length_read {a : α} (found : read form bytes = (.frame a, rest)) :
    rest.length < bytes.length := by
  revert found
  fun_cases read form bytes with
  | case4 long =>
    rintro ⟨⟩
    rw [List.length_drop, List.length_drop]
    omega
  | case1 | case2 | case3 | case5 =>
    intro found
    cases found

/-! ## Reading to the end -/

def cutInside (form : Compact.Form α) (before : List α) (a : α) (after : List α) (cut : Nat) :
    Bytes :=
  (writeAll form [] (before ++ a :: after)).1.take ((writeAll form [] before).1.length + cut)

def CutFound (form : Compact.Form α) (before : List α) (bytes : Bytes) : Prop :=
  ∃ error rest, readAll form bytes = (before, some error, rest)

theorem readAllWithin_enough (form : Compact.Form α) {fuel more : Nat} (bytes : Bytes)
    (enough : bytes.length < fuel) (also : bytes.length < more) :
    readAllWithin form fuel bytes = readAllWithin form more bytes := by
  induction fuel generalizing more bytes with
  | zero => exact absurd enough (Nat.not_lt_zero _)
  | succ fuel ih =>
    obtain ⟨more, rfl⟩ : ∃ fewer, more = fewer + 1 := ⟨more - 1, by omega⟩
    rw [readAllWithin, readAllWithin]
    rcases found : read form bytes with ⟨front, rest⟩
    cases front with
    | frame a =>
      have shorter := length_read found
      have same : readAllWithin form fuel rest = readAllWithin form more rest :=
        ih rest (by omega) (by omega)
      dsimp only
      rw [same]
    | closed => rfl
    | failed error => rfl

theorem readAll_frame {a : α} (found : read form bytes = (.frame a, rest)) :
    readAll form bytes = (a :: (readAll form rest).1, (readAll form rest).2) := by
  have shorter := length_read found
  rw [readAll, readAllWithin, found]
  dsimp only
  rw [readAllWithin_enough form rest shorter (Nat.lt_succ_self _)]
  rfl

theorem readAll_short (form : Compact.Form α) (short : bytes.length < 4) :
    readAll form bytes = ([], none, []) := by
  rw [readAll, readAllWithin, read_short form short]

theorem readAll_nil (form : Compact.Form α) : readAll form [] = ([], none, []) :=
  readAll_short form (by decide)

theorem readAll_failed {error : TransportError} (found : read form bytes = (.failed error, rest)) :
    readAll form bytes = ([], some error, rest) := by
  rw [readAll, readAllWithin, found]

section Readable

variable (trips : ∀ a, Fits form a → form.RoundTrips a)
include trips

theorem readAll_stream {frames : List α} (fit : ∀ a ∈ frames, Fits form a) (rest : Bytes) :
    readAll form (stream form frames ++ rest) =
      (frames ++ (readAll form rest).1, (readAll form rest).2) := by
  induction frames with
  | nil => rfl
  | cons a frames ih =>
    have fits := fit a List.mem_cons_self
    have later := ih fun b member => fit b (List.mem_cons_of_mem a member)
    rw [stream_cons, List.append_assoc, readAll_frame (read_frame (trips a fits) fits _), later]
    rfl

theorem readAll_writeAll (frames : List α) :
    readAll form (writeAll form [] frames).1 = (frames.filter (Fits form ·), none, []) := by
  have fit : ∀ a ∈ frames.filter (Fits form ·), Fits form a := by
    intro a member
    exact of_decide_eq_true (List.mem_filter.mp member).2
  have whole := readAll_stream trips fit []
  rw [List.append_nil, readAll_nil, List.append_nil] at whole
  rw [writeAll_stream, List.nil_append, whole]

/-- The frames in front of the cut are read; then nothing is missed unless the length of the next
one is there. -/
theorem readAll_cut {before after : List α} {a : α}
    (fit : ∀ b ∈ before ++ a :: after, Fits form b) {cut : Nat}
    (inside : cut < (frame (form.write a)).length) :
    readAll form (cutInside form before a after cut) =
      (before, if cut < 4 then none else some (.io .earlyEof), []) := by
  have fits : Fits form a := fit a (by simp)
  have earlier : ∀ b ∈ before, Fits form b :=
    fun b member => fit b (List.mem_append_left _ member)
  rw [cutInside, writeAll_of_fits fit, writeAll_of_fits earlier, stream_append,
    List.take_length_add_append, stream_cons, List.take_append_of_le_length (Nat.le_of_lt inside),
    readAll_stream trips earlier]
  by_cases short : cut < 4
  · have little : ((frame (form.write a)).take cut).length < 4 :=
      Nat.lt_of_le_of_lt (List.length_take_le _ _) short
    rw [readAll_short form little, if_pos short, List.append_nil]
  · rw [readAll_failed (read_cut fits (Nat.not_lt.mp short) inside), if_neg short,
      List.append_nil]

end Readable

/-! ## What is written is read back -/

/-- What becomes of frames that are written to a stream and read from it: a frame is accepted
exactly within the limit, its length is written whole in front of it, and a frame above the limit
leaves no byte; the reader has the same limit; and of any frames, those that were accepted are read
back, in order, and then the end. -/
structure ReadsBack (form : Compact.Form α) : Prop where
  accepts : ∀ out a, (writeTo form out a).2 = .ok () ↔ (form.write a).length ≤ limit
  appends : ∀ out a, (form.write a).length ≤ limit →
    (writeTo form out a).1 = out ++ Bytes.littleEndian 4 (form.write a).length ++ form.write a
  untruncated : ∀ a, (form.write a).length ≤ limit →
    Bytes.ofLittleEndian (Bytes.littleEndian 4 (form.write a).length) = (form.write a).length
  refuses : ∀ out a, limit < (form.write a).length →
    writeTo form out a = (out, .error (.frameTooLarge (form.write a).length))
  refusesToRead : ∀ size rest, size < 2 ^ 32 →
    ((read form (Bytes.littleEndian 4 size ++ rest)).1 = .failed (.frameTooLarge size) ↔
      limit < size)
  apart : ∀ out frames,
    (writeAll form out frames).2 = frames.map fun a => (writeTo form [] a).2
  returns : ∀ frames, readAll form (writeAll form [] frames).1 =
    (frames.filter fun a => (form.write a).length ≤ limit, none, [])

theorem frames_read_back (kind : Kind) : ReadsBack kind.form where
  accepts := writeTo_ok_iff kind.form
  appends := by
    intro out a fits
    rw [writeTo_of_fits fits, frame, List.append_assoc]
  untruncated := by
    intro a fits
    exact Bytes.ofLittleEndian_littleEndian 4 _ (Nat.lt_of_le_of_lt fits limit_lt)
  refuses := fun out a large => writeTo_of_not_fits (Nat.not_le.mpr large) out
  refusesToRead := fun size rest word => read_tooLarge_iff kind.form word rest
  apart := writeAll_results kind.form
  returns := readAll_writeAll kind.roundTrips

section Example

def ask (seq : UInt64) : RequestFrame :=
  ⟨seq, "a.b", []⟩

/-- A request with as many bytes as a frame may have, besides its name. -/
def overlong : RequestFrame :=
  ⟨2, "a.b", List.replicate limit 0⟩

theorem overlong_large : ¬ Fits RequestFrame.form overlong := by
  rw [Fits, Nat.not_le]
  simp only [overlong, RequestFrame.form, Compact.Form.as, Compact.Form.pair, Compact.Form.bytes,
    List.length_append, List.length_replicate]
  have numbered : (Compact.Form.word64.write 2).length = 1 := rfl
  omega

/-- A frame that is too large leaves the ones around it as they are. -/
theorem overlong_left_out :
    readAll RequestFrame.form (writeAll RequestFrame.form [] [ask 1, overlong, ask 3]).1 =
      ([ask 1, ask 3], none, []) := by
  have first : (RequestFrame.form.write (ask 1)).length ≤ limit := by decide
  have third : (RequestFrame.form.write (ask 3)).length ≤ limit := by decide
  have accepted : ([ask 1, overlong, ask 3].filter fun a =>
      (RequestFrame.form.write a).length ≤ limit) = [ask 1, ask 3] := by
    rw [List.filter_cons_of_pos (by exact decide_eq_true first),
      List.filter_cons_of_neg (by exact decide_eq_false overlong_large ▸ Bool.false_ne_true),
      List.filter_cons_of_pos (by exact decide_eq_true third), List.filter_nil]
  have back : readAll RequestFrame.form (writeAll RequestFrame.form [] [ask 1, overlong, ask 3]).1 =
      ([ask 1, overlong, ask 3].filter fun a => (RequestFrame.form.write a).length ≤ limit, none,
        []) :=
    (frames_read_back .request).returns _
  rw [back, accepted]

end Example

/-! ## What is cut -/

/-- A cut inside a frame is found exactly if the length of the frame stands in front of it. A cut in
the length counts as the end of the stream, as any rest of fewer than four bytes does, and those
bytes are gone. -/
theorem cut_found_iff (kind : Kind) (before after : List kind.Carried) (a : kind.Carried)
    (cut : Nat) (accepted : ∀ b ∈ before ++ a :: after, (kind.form.write b).length ≤ limit)
    (inside : cut < (frame (kind.form.write a)).length) :
    (CutFound kind.form before (cutInside kind.form before a after cut) ↔ 4 ≤ cut) ∧
      readAll kind.form (cutInside kind.form before a after cut) =
        (before, if cut < 4 then none else some (.io .earlyEof), []) ∧
      ∀ bytes, (read kind.form bytes).1 = .closed ↔ bytes.length < 4 := by
  have cutRead := readAll_cut kind.roundTrips accepted inside
  refine ⟨?_, cutRead, read_closed_iff kind.form⟩
  rw [CutFound, cutRead]
  by_cases short : cut < 4
  · rw [if_pos short]
    constructor
    · rintro ⟨error, rest, found⟩
      cases found
    · exact fun measured => absurd short (Nat.not_lt.mpr measured)
  · rw [if_neg short]
    exact ⟨fun _ => Nat.not_lt.mp short, fun _ => ⟨_, _, rfl⟩⟩

section Example

def tell (seq : UInt64) : ResponseFrame :=
  ⟨seq, [7], none⟩

/-- The length of the second frame has come and a byte of its payload. -/
theorem cut_in_payload_found :
    (∀ reply ∈ [tell 1] ++ tell 2 :: [], (ResponseFrame.form.write reply).length ≤ limit) ∧
      5 < (frame (ResponseFrame.form.write (tell 2))).length ∧
      CutFound ResponseFrame.form [tell 1] (cutInside ResponseFrame.form [tell 1] (tell 2) [] 5) := by
  have accepted : ∀ reply ∈ [tell 1] ++ tell 2 :: [],
      (ResponseFrame.form.write reply).length ≤ limit := by decide
  have inside : 5 < (frame (ResponseFrame.form.write (tell 2))).length := by decide
  exact ⟨accepted, inside,
    (cut_found_iff .reply [tell 1] [] (tell 2) 5 accepted inside).1.mpr (by decide)⟩

/-- Two bytes of the second frame have come, and the stream counts as ended. -/
theorem cut_in_length_missed :
    (∀ request ∈ [ask 1] ++ ask 2 :: [], (RequestFrame.form.write request).length ≤ limit) ∧
      2 < (frame (RequestFrame.form.write (ask 2))).length ∧
      readAll RequestFrame.form (cutInside RequestFrame.form [ask 1] (ask 2) [] 2) =
        ([ask 1], none, []) ∧
      ¬ CutFound RequestFrame.form [ask 1] (cutInside RequestFrame.form [ask 1] (ask 2) [] 2) := by
  have accepted : ∀ request ∈ [ask 1] ++ ask 2 :: [],
      (RequestFrame.form.write request).length ≤ limit := by decide
  have inside : 2 < (frame (RequestFrame.form.write (ask 2))).length := by decide
  have missed := readAll_cut (Kind.roundTrips .request) accepted inside
  refine ⟨accepted, inside, missed, ?_⟩
  rintro ⟨error, rest, found⟩
  cases missed.symm.trans found

end Example

end PluginBridge.Frame
