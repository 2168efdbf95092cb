import PluginBridge.Cbor.Wire
import PluginBridge.Proofs.Steady

/-! The readers of the self-describing encoding do not look behind what they take. Some look at the
next header and leave it, some pass over any number of tags, segments or items; each of them needs
the header in question to be there, so none takes the end of the bytes for an answer. -/

namespace PluginBridge.Cbor

open Reader

/-! ## Headers -/

theorem steady_readArgument (low : Nat) : (readArgument low).Steady := by
  unfold readArgument
  split
  · exact steady_pure _
  · split
    · exact (steady_take _ 1).map _
    · exact (steady_take _ 2).map _
    · exact (steady_take _ 4).map _
    · exact (steady_take _ 8).map _
    · exact steady_pure none
    · exact keptBy_throw _ _

theorem steady_readHeader : readHeader.Steady := by
  apply (steady_byte _).bind
  intro initial
  apply (steady_readArgument _).bind
  intro argument
  split
  · exact steady_pure _
  · exact keptBy_throw _ _

theorem keptBy_skipTags (less more : Nat) (atMost : less ≤ more) :
    (skipTags less).KeptBy (skipTags more) := by
  induction less generalizing more with
  | zero => exact keptBy_throw _ _
  | succ less ih =>
    obtain ⟨more, rfl⟩ : ∃ fewer, more = fewer + 1 := ⟨more - 1, by omega⟩
    apply steady_readHeader.bind
    intro header
    cases header with
    | tag n => exact ih more (by omega)
    | _ => exact steady_pure _

theorem steady_readUntagged : readUntagged.Steady :=
  steady_fuelled keptBy_skipTags

/-! ## Readers that look ahead

They look at the next header and then go on behind it, or in front of it as if they had not. -/

section Ahead

variable {α : Type} {first : Reader Error Header} {reader : Reader Error α}

/-- A reader is steady if it fails without a header, and keeps what it finds once it has seen the
same header in front of more bytes. -/
theorem steady_ahead (steady : first.Steady)
    (fails : ∀ bytes error, first bytes = .error error → reader bytes = .error error)
    (onward : ∀ header bytes behind more, first bytes = .ok (header, behind) →
      first (bytes ++ more) = .ok (header, behind ++ more) → ∀ found rest,
      reader bytes = .ok (found, rest) → reader (bytes ++ more) = .ok (found, rest ++ more)) :
    reader.Steady := by
  intro bytes found rest ran more
  cases here : first bytes with
  | error error =>
    rw [fails bytes error here] at ran
    cases ran
  | ok item =>
    obtain ⟨header, behind⟩ := item
    have there := steady bytes header behind here more
    exact onward header bytes behind more here there found rest ran

end Ahead

theorem steady_readStop : readStop.Steady := by
  apply steady_ahead steady_readHeader
  · intro bytes error here
    simp only [readStop, here]
  · intro header bytes behind more here there found rest ran
    simp only [readStop, here] at ran
    simp only [readStop, there]
    cases header <;> obtain ⟨rfl, rfl⟩ := Prod.mk.inj (Except.ok.inj ran) <;> rfl

theorem readOption_eq {α : Type} (content : Reader Error α) {bytes behind : Bytes}
    {header : Header} (here : readHeader bytes = .ok (header, behind)) :
    readOption content bytes =
      if header = .simple 22 ∨ header = .simple 23 then .ok (none, behind)
      else (some <$> content) bytes := by
  by_cases absent : header = .simple 22 ∨ header = .simple 23
  · rw [if_pos absent]
    obtain rfl | rfl := absent <;> simp only [readOption, here]
  · rw [if_neg absent]
    unfold readOption
    rw [here]
    split <;> simp_all

theorem steady_readOption {α : Type} {content : Reader Error α} (steady : content.Steady) :
    (readOption content).Steady := by
  apply steady_ahead steady_readHeader
  · intro bytes error here
    simp only [readOption, here]
  · intro header bytes behind more here there found rest ran
    rw [readOption_eq content here] at ran
    rw [readOption_eq content there]
    split at ran
    next absent =>
      obtain ⟨rfl, rfl⟩ := Prod.mk.inj (Except.ok.inj ran)
      exact if_pos absent
    next present =>
      rw [if_neg present]
      exact steady.map _ bytes found rest ran more

theorem steady_openChoice : openChoice.Steady := by
  apply steady_ahead steady_readUntagged
  · intro bytes error here
    simp only [openChoice, here]
  · intro header bytes behind more here there found rest ran
    simp only [openChoice, here] at ran
    simp only [openChoice, there]
    split at ran <;> simp_all

/-! ## Containers and segments -/

section Folds

variable {σ α : Type}

theorem keptBy_foldItems {short long : σ → Reader Error σ}
    (kept : ∀ state, (short state).KeptBy (long state)) (less more : Nat) (atMost : less ≤ more)
    (count? : Option Nat) (state : σ) :
    (foldItems short less count? state).KeptBy (foldItems long more count? state) := by
  induction less generalizing more count? state with
  | zero => exact keptBy_throw _ _
  | succ less ih =>
    obtain ⟨more, rfl⟩ : ∃ fewer, more = fewer + 1 := ⟨more - 1, by omega⟩
    match count? with
    | some 0 => exact steady_pure state
    | some (count + 1) =>
      exact (kept state).bind fun next => ih more (by omega) (some count) next
    | none =>
      apply steady_readStop.bind
      intro stopped
      cases stopped with
      | true => exact steady_pure state
      | false => exact (kept state).bind fun next => ih more (by omega) none next

theorem steady_forItems {step : σ → Reader Error σ} (steady : ∀ state, (step state).Steady)
    (count? : Option Nat) (start : σ) : (forItems count? start step).Steady :=
  steady_fuelled fun less more atMost => keptBy_foldItems steady less more atMost count? start

theorem steady_collect {item : Reader Error α} (steady : item.Steady) (count? : Option Nat) :
    (collect count? item).Steady := by
  have step (items : List α) : (item >>= fun a => pure (a :: items)).Steady :=
    steady.bind fun a => steady_pure (a :: items)
  exact (steady_forItems step count? []).bind fun items => steady_pure items.reverse

theorem keptBy_foldSegments (length? : Header → Option (Option Nat))
    {step : σ → Nat → Reader Error σ} (steady : ∀ state length, (step state length).Steady)
    (less more : Nat) (atMost : less ≤ more) (nested : Nat) (state : σ) :
    (foldSegments length? step less nested state).KeptBy
      (foldSegments length? step more nested state) := by
  induction less generalizing more nested state with
  | zero => exact keptBy_throw _ _
  | succ less ih =>
    obtain ⟨more, rfl⟩ : ∃ fewer, more = fewer + 1 := ⟨more - 1, by omega⟩
    have later := ih more (by omega)
    apply steady_readHeader.bind
    intro header
    by_cases stops : header = .stop
    · subst stops
      by_cases outermost : nested = 0
      · simp only [if_pos outermost]
        exact steady_pure state
      · simp only [if_neg outermost]
        exact later (nested - 1) state
    · cases segment : length? header with
      | none =>
        simp only [segment]
        exact keptBy_throw _ _
      | some length? =>
        cases length? with
        | none =>
          simp only [segment]
          exact later (nested + 1) state
        | some length =>
          simp only [segment]
          exact (steady state length).bind fun next => later nested next

theorem steady_readSegments (length? : Header → Option (Option Nat)) {segment : Nat → Reader Error α}
    (steady : ∀ length, (segment length).Steady) : (readSegments length? segment).Steady := by
  have step (segments : List α) (length : Nat) : ((· :: segments) <$> segment length).Steady :=
    (steady length).map _
  have kept (less more : Nat) (atMost : less ≤ more) :=
    (keptBy_foldSegments length? step less more atMost 0 []).map List.reverse
  exact steady_fuelled kept

end Folds

/-! ## Text, bytes and numbers -/

theorem steady_readTextSegment (length : Nat) : (readTextSegment length).Steady := by
  intro bytes found rest ran more
  unfold readTextSegment at ran ⊢
  split at ran
  next => cases ran
  next whole =>
    have long : ¬ (bytes ++ more).length < length := by
      rw [List.length_append]
      omega
    rw [if_neg long, List.take_append_of_le_length (by omega),
      List.drop_append_of_le_length (by omega)]
    split at ran
    next =>
      obtain ⟨rfl, rfl⟩ := Prod.mk.inj (Except.ok.inj ran)
      rfl
    next => cases ran

theorem steady_readTextContent (length? : Option Nat) : (readTextContent length?).Steady := by
  cases length? with
  | none => exact (steady_readSegments textLength? steady_readTextSegment).map _
  | some length => exact steady_readTextSegment length

theorem steady_readBytesContent (length? : Option Nat) : (readBytesContent length?).Steady := by
  cases length? with
  | none => exact (steady_readSegments bytesLength? (steady_take _)).map _
  | some length => exact steady_take _ length

theorem steady_readText : readText.Steady := by
  apply steady_readUntagged.bind
  intro header
  cases header with
  | text length? => exact steady_readTextContent length?
  | _ => exact keptBy_throw _ _

theorem steady_readName : readName.Steady := by
  apply steady_readUntagged.bind
  intro header
  split
  · split
    · exact keptBy_throw _ _
    · apply (steady_take _ _).bind
      intro bytes
      split
      · exact steady_pure bytes
      · exact keptBy_throw _ _
  · split
    · exact keptBy_throw _ _
    · exact steady_take _ _
  · exact keptBy_throw _ _

theorem steady_readBool : readBool.Steady := by
  apply steady_readUntagged.bind
  intro header
  split
  · exact steady_pure false
  · exact steady_pure true
  · exact keptBy_throw _ _

theorem steady_readNumber : readNumber.Steady := by
  apply steady_readUntagged.bind
  intro header
  split
  · exact steady_pure _
  · exact keptBy_throw _ _

theorem steady_readBigBytes (fuel : Nat) (known : Bytes) (length : Nat) :
    (readBigBytes fuel known length).Steady := by
  induction fuel generalizing known length with
  | zero => exact steady_pure known
  | succ fuel ih =>
    unfold readBigBytes
    split
    · exact steady_pure known
    · apply (steady_take _ _).bind
      intro next
      dsimp only
      split
      · exact keptBy_throw _ _
      · exact ih _ _

theorem steady_readBigNumber : readBigNumber.Steady := by
  have step (known : Bytes) (length : Nat) := steady_readBigBytes length known length
  apply steady_readHeader.bind
  intro header
  split
  next length => exact (step [] length).map _
  next =>
    have kept (less more : Nat) (atMost : less ≤ more) :=
      (keptBy_foldSegments bytesLength? step less more atMost 0 []).map Bytes.ofBigEndian
    exact steady_fuelled kept
  next => exact keptBy_throw _ _

theorem keptBy_readIntegerWithin (less more : Nat) (atMost : less ≤ more) :
    (readIntegerWithin less).KeptBy (readIntegerWithin more) := by
  induction less generalizing more with
  | zero => exact keptBy_throw _ _
  | succ less ih =>
    obtain ⟨more, rfl⟩ : ∃ fewer, more = fewer + 1 := ⟨more - 1, by omega⟩
    have later := ih more (by omega)
    apply steady_readHeader.bind
    intro header
    match header with
    | .positive _ | .negative _ => exact steady_pure _
    | .tag 2 | .tag 3 => exact steady_readBigNumber.bind fun n => steady_pure _
    | .tag 0 | .tag 1 | .tag (_ + 4) => exact later
    | .bytes _ | .text _ | .array _ | .map _ | .float _ | .simple _ | .stop =>
      exact keptBy_throw _ _

theorem steady_readNat (limit : Nat) : (readNat limit).Steady := by
  apply (steady_fuelled keptBy_readIntegerWithin).bind
  rintro ⟨negative, n⟩
  dsimp only
  split
  · exact keptBy_throw _ _
  · exact steady_pure n

/-! ## Arrays, maps and items that are passed over -/

theorem steady_openMap : openMap.Steady := by
  apply steady_readUntagged.bind
  intro header
  split
  · exact steady_pure _
  · exact keptBy_throw _ _

theorem steady_openArray : openArray.Steady := by
  apply steady_readUntagged.bind
  intro header
  split
  · exact steady_pure _
  · apply (steady_readBytesContent _).bind
    intro bytes
    split
    · exact steady_pure none
    · exact keptBy_throw _ _
  · exact keptBy_throw _ _

/-- A byte string in the place of an array holds nothing; the items of an array are read on. -/
theorem steady_openArray_bind {α : Type} {next : Option (Option Nat) → Reader Error (List α)}
    (nothing : next none = pure []) (items : ∀ count?, (next (some count?)).Steady) :
    (openArray >>= next).Steady := by
  apply steady_openArray.bind
  intro opened
  cases opened with
  | none =>
    rw [nothing]
    exact steady_pure []
  | some count? => exact items count?

theorem steady_ignoreBigNumber (negative : Bool) : (ignoreBigNumber negative).Steady := by
  apply steady_ahead steady_readHeader
  · intro bytes error here
    simp only [ignoreBigNumber, here]
  · intro header bytes behind more here there found rest ran
    simp only [ignoreBigNumber, here] at ran
    simp only [ignoreBigNumber, there]
    cases header with
    | bytes length? =>
      cases length? with
      | none =>
        obtain ⟨rfl, rfl⟩ := Prod.mk.inj (Except.ok.inj ran)
        rfl
      | some length =>
        dsimp only at ran ⊢
        split at ran
        next wide =>
          obtain ⟨rfl, rfl⟩ := Prod.mk.inj (Except.ok.inj ran)
          exact if_pos wide
        next narrow =>
          rw [if_neg narrow]
          split at ran
          next => cases ran
          next whole =>
            have long : ¬ (behind ++ more).length < length := by
              rw [List.length_append]
              omega
            rw [if_neg long, List.take_append_of_le_length (by omega),
              List.drop_append_of_le_length (by omega)]
            split at ran
            next => cases ran
            next fits =>
              obtain ⟨rfl, rfl⟩ := Prod.mk.inj (Except.ok.inj ran)
              exact if_neg fits
    | _ =>
      obtain ⟨rfl, rfl⟩ := Prod.mk.inj (Except.ok.inj ran)
      rfl

theorem steady_ignoreLeaf : ignoreLeaf.Steady := by
  apply steady_readHeader.bind
  intro header
  cases header with
  | positive | negative | float => exact steady_pure none
  | bytes length? => exact (steady_readBytesContent length?).bind fun bytes => steady_pure none
  | text length? => exact (steady_readTextContent length?).bind fun text => steady_pure none
  | array | map => exact steady_pure _
  | stop => exact keptBy_throw _ _
  | simple n =>
    dsimp only
    split
    · exact steady_pure none
    · exact keptBy_throw _ _
  | tag n =>
    dsimp only
    split
    · apply (steady_ignoreBigNumber _).bind
      intro big
      split
      · exact steady_pure none
      · exact steady_pure _
    · exact steady_pure _

theorem steady_ignore (depth : Nat) : (ignore depth).Steady := by
  induction depth with
  | zero =>
    apply steady_ignoreLeaf.bind
    intro header?
    split
    · exact keptBy_throw _ _
    · exact steady_pure ()
  | succ depth ih =>
    apply steady_ignoreLeaf.bind
    intro header?
    split
    · exact steady_forItems (fun _ => ih) _ ()
    · exact steady_forItems (fun _ => ih.bind fun _ => ih) _ ()
    · exact ih
    · exact steady_pure ()

end PluginBridge.Cbor
