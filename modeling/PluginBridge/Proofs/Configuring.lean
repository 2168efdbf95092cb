import PluginBridge.Builder.Serving
import PluginBridge.Builder.Transcript
import PluginBridge.Datasource.Operation
import PluginBridge.Proofs.Sequences
import PluginBridge.Rehearsal.ScriptedDatasource
import PluginBridge.Sample.EchoBuilder

/-! Configuring is all or nothing, whatever bytes arrive: a body that cannot be read fails, a blob
that cannot be decoded is reported and nothing is touched, and otherwise the implementation is called
once with everything that was decoded. -/

namespace PluginBridge

/-! ## Blobs and their values -/

/-- What decoding blobs comes to: all their values in order, or the failure of the first that cannot
be decoded. -/
inductive Codec.DecodesTo (codec : Codec) : List Bytes → Except CodecError (List Value) → Prop where
  | all {blobs : List Bytes} {values : List Value}
      (each : blobs.map codec.decodeValue = values.map .ok) : DecodesTo codec blobs (.ok values)
  | first {before after : List Bytes} {blob : Bytes} {error : CodecError}
      (sound : ∀ earlier ∈ before, ∃ value, codec.decodeValue earlier = .ok value)
      (broken : codec.decodeValue blob = .error error) :
      DecodesTo codec (before ++ blob :: after) (.error error)

namespace Codec

theorem DecodesTo.broken {codec : Codec} {blob : Bytes} {error : CodecError}
    (broken : codec.decodeValue blob = .error error) (rest : List Bytes) :
    codec.DecodesTo (blob :: rest) (.error error) :=
  @first codec [] rest blob error (List.forall_mem_nil _) broken

theorem DecodesTo.cons {codec : Codec} {blob : Bytes} {value : Value} {rest : List Bytes}
    {decoded : Except CodecError (List Value)} (fine : codec.decodeValue blob = .ok value)
    (later : codec.DecodesTo rest decoded) :
    codec.DecodesTo (blob :: rest) (decoded.map (value :: ·)) := by
  cases later with
  | all each => exact .all (by rw [List.map_cons, List.map_cons, fine, each])
  | @first before after last error sound broken =>
    have sound := List.forall_mem_cons.mpr ⟨⟨value, fine⟩, sound⟩
    exact @DecodesTo.first codec (blob :: before) after last error sound broken

theorem decodesTo_mapM (codec : Codec) (blobs : List Bytes) :
    codec.DecodesTo blobs (blobs.mapM codec.decodeValue) := by
  induction blobs with
  | nil => exact .all rfl
  | cons blob rest ih =>
    rw [List.mapM_cons]
    cases decoded : codec.decodeValue blob with
    | error error => exact .broken decoded rest
    | ok value => exact ih.cons decoded

/-- Decoding comes to one thing only. -/
theorem DecodesTo.mapM_eq {codec : Codec} {blobs : List Bytes}
    {decoded : Except CodecError (List Value)} (decodes : codec.DecodesTo blobs decoded) :
    blobs.mapM codec.decodeValue = decoded := by
  cases decodes with
  | all each => exact mapM_eq_ok_iff.mpr each
  | @first before after blob error sound broken =>
    induction before with
    | nil =>
      rw [List.nil_append, List.mapM_cons, broken]
      rfl
    | cons earlier before ih =>
      obtain ⟨⟨value, fine⟩, sound⟩ := List.forall_mem_cons.mp sound
      rw [List.cons_append, List.mapM_cons, fine, ih sound]
      rfl

theorem decodesTo_single (codec : Codec) (blob : Bytes) :
    codec.DecodesTo [blob] ((codec.decodeValue blob).map ([·])) := by
  cases decoded : codec.decodeValue blob with
  | error error => exact .broken decoded []
  | ok value => exact .all (congrArg ([·]) decoded)

theorem DecodesTo.all_decode {codec : Codec} {blobs : List Bytes} {values : List Value}
    (decodes : codec.DecodesTo blobs (.ok values)) :
    ∀ blob ∈ blobs, ∃ value, codec.decodeValue blob = .ok value := by
  intro blob inside
  cases decodes with
  | all each =>
    have among : codec.decodeValue blob ∈ values.map .ok := each ▸ List.mem_map_of_mem inside
    obtain ⟨value, -, same⟩ := List.mem_map.mp among
    exact ⟨value, same.symm⟩

theorem DecodesTo.exists_broken {codec : Codec} {blobs : List Bytes} {error : CodecError}
    (decodes : codec.DecodesTo blobs (.error error)) :
    ∃ blob ∈ blobs, codec.decodeValue blob = .error error := by
  cases decodes with
  | @first before after blob _ _ broken =>
    exact ⟨blob, List.mem_append_right before (List.mem_cons_self ..), broken⟩

/-- Decoding fails if a blob is broken. -/
theorem DecodesTo.error_of_broken {ω : Type} {codec : Codec} {blobs : List Bytes}
    {decoded : Except CodecError ω} {contents : ω → List Value}
    (decodes : codec.DecodesTo blobs (decoded.map contents))
    (broken : ∃ blob ∈ blobs, ∃ error, codec.decodeValue blob = .error error) :
    ∃ error, decoded = .error error := by
  obtain ⟨blob, inside, error, failed⟩ := broken
  cases decoded with
  | error error => exact ⟨error, rfl⟩
  | ok input =>
    obtain ⟨value, fine⟩ := decodes.all_decode blob inside
    rw [failed] at fine
    cases fine

/-- Decoding succeeds if no blob is broken. -/
theorem DecodesTo.ok_of_sound {ω : Type} {codec : Codec} {blobs : List Bytes}
    {decoded : Except CodecError ω} {contents : ω → List Value}
    (decodes : codec.DecodesTo blobs (decoded.map contents))
    (sound : ∀ blob ∈ blobs, ∃ value, codec.decodeValue blob = .ok value) :
    ∃ input, decoded = .ok input := by
  cases decoded with
  | ok input => exact ⟨input, rfl⟩
  | error error =>
    obtain ⟨blob, inside, failed⟩ := decodes.exists_broken
    obtain ⟨value, fine⟩ := sound blob inside
    rw [failed] at fine
    cases fine

end Codec

/-! ## Delivery -/

section Delivery

variable {σ ω κ : Type}

/-- Passes on what was decoded, or reports why it was not; what cannot be read is no message. -/
def deliver (carryOut : ω → σ → σ × Except Failure Unit)
    (decoded : Except Compact.Error (Except CodecError ω)) (state : σ) :
    σ × Except TransportError Bytes :=
  match decoded with
  | .error error => (state, .error (.compact error))
  | .ok (.error error) =>
    (state, .ok (Message.acknowledgement.write (some ⟨error.message, some .configuration⟩)))
  | .ok (.ok input) =>
    let (state, result) := carryOut input state
    (state, .ok (Message.acknowledgement.write (Envelope.ofResult .configuration result)))

def onRecord (carryOut : ω → σ → σ × Except Failure Unit) (record : ω → κ) (input : ω)
    (both : σ × List κ) : (σ × List κ) × Except Failure Unit :=
  let (state, result) := carryOut input both.1
  ((state, both.2 ++ [record input]), result)

/-- All or nothing. A call brings blobs for an implementation that is called with their contents;
`before` and `after` are its state and its record of calls. -/
structure AllOrNothing (codec : Codec) (blobs? : Except Compact.Error (List Bytes))
    (carryOut : ω → σ → σ × Except Failure Unit) (contents : ω → List Value) (record : ω → κ)
    (before after : σ × List κ) (reply : Except TransportError Bytes) : Prop where
  unread : ∀ error, blobs? = .error error → after = before ∧ reply = .error (.compact error)
  refused : ∀ blobs, blobs? = .ok blobs →
    (∃ blob ∈ blobs, ∃ error, codec.decodeValue blob = .error error) →
    ∃ error, codec.DecodesTo blobs (.error error) ∧ after = before ∧
      reply = .ok (Message.acknowledgement.write (some ⟨error.message, some .configuration⟩))
  carriedOut : ∀ blobs, blobs? = .ok blobs →
    (∀ blob ∈ blobs, ∃ value, codec.decodeValue blob = .ok value) →
    ∃ input envelope, codec.DecodesTo blobs (.ok (contents input)) ∧
      after = ((carryOut input before.1).1, before.2 ++ [record input]) ∧
      reply = .ok (Message.acknowledgement.write envelope) ∧
      (envelope = none ↔ (carryOut input before.1).2 = .ok ()) ∧
      ∀ failure, (carryOut input before.1).2 = .error failure →
        envelope = some ⟨failure.message, some .configuration⟩

theorem Envelope.ofResult_eq_none_iff {kind : ErrorKind} {result : Except Failure Unit} :
    Envelope.ofResult kind result = none ↔ result = .ok () := by
  cases result <;> simp [Envelope.ofResult]

/-- What is delivered is delivered whole, if `decode` finds the contents of all blobs that are read
or the failure of the first that is broken. -/
theorem allOrNothing_deliver {β : Type} {codec : Codec} {decode : β → Except CodecError ω}
    {spread : β → List Bytes} {contents : ω → List Value}
    (decodes : ∀ content, codec.DecodesTo (spread content) ((decode content).map contents))
    (read? : Except Compact.Error β) (carryOut : ω → σ → σ × Except Failure Unit)
    (record : ω → κ) (before : σ × List κ) :
    AllOrNothing codec (read?.map spread) carryOut contents record before
      (deliver (onRecord carryOut record) (read?.map decode) before).1
      (deliver (onRecord carryOut record) (read?.map decode) before).2 where
  unread error failed := by
    cases read? with
    | ok content => cases failed
    | error other =>
      cases failed
      exact ⟨rfl, rfl⟩
  refused blobs read broken := by
    cases read? with
    | error other => cases read
    | ok content =>
      cases read
      have settled := decodes content
      obtain ⟨error, failed⟩ := settled.error_of_broken broken
      rw [failed] at settled
      refine ⟨error, settled, ?_, ?_⟩ <;> simp only [Except.map, failed, deliver]
  carriedOut blobs read sound := by
    cases read? with
    | error other => cases read
    | ok content =>
      cases read
      have settled := decodes content
      obtain ⟨input, decoded⟩ := settled.ok_of_sound sound
      rw [decoded] at settled
      simp only [Except.map, decoded, deliver, onRecord]
      refine ⟨input, _, settled, rfl, rfl, Envelope.ofResult_eq_none_iff, ?_⟩
      intro failure failed
      rw [failed, Envelope.ofResult]

/-- The record changes nothing else. -/
theorem deliver_onRecord (carryOut : ω → σ → σ × Except Failure Unit) (record : ω → κ)
    (decoded : Except Compact.Error (Except CodecError ω)) (both : σ × List κ) :
    deliver carryOut decoded both.1 =
      ((deliver (onRecord carryOut record) decoded both).1.1,
        (deliver (onRecord carryOut record) decoded both).2) := by
  rcases decoded with _ | _ | _ <;> rfl

end Delivery

/-! ## The two services -/

section Services

variable {σ ρ : Type}

def Datasource.received (codec : Codec) (body : Bytes) :
    Except Compact.Error (Except CodecError (List Value)) :=
  (Message.blobs.decode body).map (·.mapM codec.decodeValue)

def Builder.received (codec : Codec) (body : Bytes) :
    Except Compact.Error (Except CodecError Value) :=
  (Message.blob.decode body).map codec.decodeValue

theorem Message.read_eq {α : Type} (form : Compact.Form α) (body : Bytes) :
    Message.read form body =
      match form.decode body with
      | .ok content => .ok content
      | .error error => .error (.compact error) := by
  rw [read]
  cases form.decode body <;> rfl

theorem Datasource.service_configure (codec : Codec) (datasource : Datasource σ) (body : Bytes)
    (hosted : HostedDatasource σ) :
    datasource.service codec "Configure" body hosted =
      .reply ⟨(deliver datasource.configure (received codec body) hosted.state).1, hosted.trigger⟩
        (deliver datasource.configure (received codec body) hosted.state).2 := by
  simp only [service, Service.ofAnswer, answer, Message.read_eq, received]
  cases Message.blobs.decode body with
  | error error => rfl
  | ok blobs =>
    simp only [Except.map, acceptConfigs]
    cases blobs.mapM codec.decodeValue <;> rfl

theorem Builder.service_prepare (codec : Codec) (builder : Builder ρ) (body : Bytes) (state : ρ) :
    builder.service codec "Prepare" body state =
      .reply (deliver builder.prepare (received codec body) state).1
        (deliver builder.prepare (received codec body) state).2 := by
  simp only [service, Message.read_eq, received]
  cases Message.blob.decode body with
  | error error => rfl
  | ok blob =>
    simp only [Except.map, acceptConfig]
    cases codec.decodeValue blob <;> rfl

/-- Whatever bytes arrive, a datasource is configured with all the values in them or left alone, and
so is a builder that is prepared. Both answer at once. -/
theorem configuring_all_or_nothing (codec : Codec) (body : Bytes) :
    (∀ (datasource : Datasource σ) (hosted : HostedDatasource (σ × List Operation)),
      ∃ after reply,
        datasource.recording.service codec "Configure" body hosted =
          .reply { hosted with state := after } reply ∧
        datasource.service codec "Configure" body ⟨hosted.state.1, hosted.trigger⟩ =
          .reply ⟨after.1, hosted.trigger⟩ reply ∧
        AllOrNothing codec (Message.blobs.decode body) datasource.configure id
          Operation.configure hosted.state after reply) ∧
    ∀ (builder : Builder ρ) (before : ρ × List Value),
      ∃ after reply,
        builder.recording.service codec "Prepare" body before = .reply after reply ∧
        builder.service codec "Prepare" body before.1 = .reply after.1 reply ∧
        AllOrNothing codec ((Message.blob.decode body).map ([·])) builder.prepare ([·]) id
          before after reply := by
  constructor
  · intro datasource hosted
    refine ⟨_, _, datasource.recording.service_configure codec body hosted, ?_, ?_⟩
    · rw [datasource.service_configure, deliver_onRecord _ Operation.configure]
      rfl
    · have decodes (blobs : List Bytes) :
          codec.DecodesTo (id blobs) ((blobs.mapM codec.decodeValue).map id) := by
        rw [Except.map_id]
        exact codec.decodesTo_mapM blobs
      have whole := allOrNothing_deliver decodes (Message.blobs.decode body) datasource.configure
        Operation.configure hosted.state
      rw [Except.map_id] at whole
      exact whole
  · intro builder before
    refine ⟨_, _, builder.recording.service_prepare codec body before, ?_, ?_⟩
    · rw [builder.service_prepare, deliver_onRecord _ id]
      rfl
    · exact allOrNothing_deliver codec.decodesTo_single (Message.blob.decode body) builder.prepare
        id before

section Example

open Rehearsal

/-- A body of three blobs: a truth value, one that holds no value, and an empty one. -/
def mixedBody : Bytes :=
  Message.blobs.write [[1, 1], [9], []]

def targetBody : Bytes :=
  Message.blob.write (Compact.writeValue (.object [("target", .string "x")]))

theorem configuring_all_or_nothing_mixed :
    scriptedDatasource.recording.service (.ofMode .legacy) "Configure" mixedBody ⟨({}, []), {}⟩ =
      .reply ⟨({}, []), {}⟩ (.ok (Message.acknowledgement.write
        (some ⟨(CodecError.compact .unknownVariant).message, some .configuration⟩))) ∧
    echoBuilder.recording.service (.ofMode .legacy) "Prepare" targetBody ({}, []) =
      .reply (⟨"x", ["compile"]⟩, [.object [("target", .string "x")]])
        (.ok (Message.acknowledgement.write none)) := by
  have everywhere := @configuring_all_or_nothing ScriptedDatasource EchoBuilder.Plan (.ofMode .legacy)
  constructor
  · obtain ⟨after, reply, replied, -, whole⟩ :=
      (everywhere mixedBody).1 scriptedDatasource ⟨({}, []), {}⟩
    obtain ⟨error, decodes, rfl, rfl⟩ :=
      whole.refused [[1, 1], [9], []] rfl ⟨[9], by simp, .compact .unknownVariant, rfl⟩
    obtain rfl : error = .compact .unknownVariant := Except.error.inj (decodes.mapM_eq.symm.trans rfl)
    exact replied
  · obtain ⟨after, reply, replied, -, whole⟩ := (everywhere targetBody).2 echoBuilder ({}, [])
    obtain ⟨input, envelope, decodes, rfl, rfl, fine, -⟩ := whole.carriedOut
      [Compact.writeValue (.object [("target", .string "x")])] rfl
      (List.forall_mem_singleton.mpr ⟨.object [("target", .string "x")], rfl⟩)
    obtain rfl : input = .object [("target", .string "x")] :=
      List.singleton_inj.mp (Except.ok.inj (decodes.mapM_eq.symm.trans rfl))
    obtain rfl : envelope = none := fine.mpr rfl
    exact replied

end Example

end Services

end PluginBridge
