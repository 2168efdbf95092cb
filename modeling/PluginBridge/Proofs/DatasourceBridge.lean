import PluginBridge.Datasource.Operation
import PluginBridge.Proofs.Codec
import PluginBridge.Proofs.Exchange
import PluginBridge.Proofs.Sequences
import PluginBridge.Rehearsal.ScriptedDatasource

/-! A datasource behind a bridge is the datasource itself. One call is carried through all layers
and back: encoded, framed, routed, answered, framed and decoded; a sequence of calls is an induction
over it with the state of the datasource and the sequence number of the next call. -/

namespace PluginBridge

/-! ## Calls on a link, one after another -/

namespace Calls

variable {σ τ α β : Type}

theorem bind_some {first : Calls σ τ α} {next : α → Calls σ τ β} {before after : Link σ × τ}
    {a : α} (ran : first before = (some a, after)) : (first >>= next) before = next a after := by
  simp only [bind, OptionT.bind, OptionT.mk, StateT.bind, ran]

end Calls

namespace Operation

variable {σ ρ τ : Type}

def method : Operation → String
  | configure _ => "Configure"
  | outputSpec => "OutputSpec"
  | execute => "Execute"
  | cancel => "Cancel"

def body (codec : Codec) : Operation → Bytes
  | configure configs => Message.blobs.write (configs.map codec.encodeValue)
  | outputSpec => Message.nothing.write ()
  | execute => Message.nothing.write ()
  | cancel => Message.nothing.write ()

def Outcome.body (codec : Codec) : Outcome → Bytes
  | configured result => Message.acknowledgement.write (Envelope.ofResult .configuration result)
  | specified (.ok spec) => Message.blob.write (codec.encodeSpec spec)
  | specified (.error _) => []
  | executed result => Message.outcome.write (Datasource.executed codec result)
  | cancelled => Message.nothing.write ()

/-- Members are in order, as in every map, and values nest no deeper than the mode admits. -/
def Admitted (mode : Mode) : Operation → Prop
  | configure configs => ∀ value ∈ configs, value.Ordered ∧ mode.AdmitsValue value
  | _ => True

def Outcome.Admitted (mode : Mode) : Outcome → Prop
  | specified (.ok spec) =>
    Fields.Ascending spec ∧ Spec.OrderedEntries spec ∧ mode.AdmitsSpec spec
  | executed (.ok value) => value.Ordered ∧ mode.AdmitsResult value
  | _ => True

/-- The frames of one call of the endpoint and of its reply are within the limit, and what they
carry is admitted. -/
structure Carried (near far : Codec) (name : String) (datasource : Datasource σ) (seq : UInt64)
    (state : σ) (operation : Operation) : Prop where
  arguments : operation.Admitted near.mode
  result : (operation.direct datasource state).2.Admitted far.mode
  request : Frame.Fits RequestFrame.form
    ⟨seq, Registry.methodName name operation.method, operation.body near⟩
  reply : Frame.Fits ResponseFrame.form
    ⟨seq, (operation.direct datasource state).2.body far, none⟩

/-- So are those of all calls, in the order in which they are made. -/
def CarriedAll (near far : Codec) (name : String) (datasource : Datasource σ) :
    UInt64 → σ → List Operation → Prop
  | _, _, [] => True
  | seq, state, operation :: rest =>
    operation.Carried near far name datasource seq state ∧
      CarriedAll near far name datasource (seq + 1) (operation.direct datasource state).1 rest

theorem method_plain (operation : Operation) : '.' ∉ operation.method.toList := by
  cases operation with
  | configure configs => exact (by decide : '.' ∉ "Configure".toList)
  | outputSpec => exact (by decide : '.' ∉ "OutputSpec".toList)
  | execute => exact (by decide : '.' ∉ "Execute".toList)
  | cancel => exact (by decide : '.' ∉ "Cancel".toList)

/-! ## Behind the bridge -/

/-- All configuration values are decoded as what they were encoded from. -/
theorem mapM_decodeValue {near far : Codec} (same : far.mode = near.mode) (configs : List Value)
    (admitted : ∀ value ∈ configs, value.Ordered ∧ near.mode.AdmitsValue value)
    (fits : ∀ value ∈ configs, (near.encodeValue value).length < 2 ^ 64) :
    (configs.map near.encodeValue).mapM far.decodeValue = .ok configs := by
  rw [mapM_eq_ok_iff, List.map_map]
  refine List.map_congr_left fun value inside => ?_
  exact Codec.decodeValue_encodeValue same value (admitted value inside).1
    (admitted value inside).2 (fits value inside)

/-- The served datasource does what the datasource does, and replies with what came of it. -/
theorem answer_operation {near far : Codec} (same : far.mode = near.mode)
    (datasource : Datasource σ) (operation : Operation) (hosted : HostedDatasource σ)
    (admitted : operation.Admitted near.mode) (fits : (operation.body near).length < 2 ^ 64) :
    ∃ trigger, datasource.answer far operation.method (operation.body near) hosted =
      (⟨(operation.direct datasource hosted.state).1, trigger⟩,
        .ok ((operation.direct datasource hosted.state).2.body far)) := by
  cases operation with
  | configure configs =>
    have sent := Message.roundTrips_blobs (configs.map near.encodeValue) fits
    have shorter : ∀ value ∈ configs, (near.encodeValue value).length < 2 ^ 64 := by
      intro value member
      have long := Message.length_blob_le (List.mem_map_of_mem (f := near.encodeValue) member)
      simp only [body, Message.blobs, Compact.Form.list, Compact.Form.bytes, List.length_append]
        at fits long
      omega
    have decoded := mapM_decodeValue same configs admitted shorter
    refine ⟨hosted.trigger, ?_⟩
    simp only [Datasource.answer, method, body, Message.read_write sent, Datasource.acceptConfigs,
      decoded, direct, Outcome.body]
  | outputSpec => exact ⟨hosted.trigger, rfl⟩
  | execute => exact ⟨_, rfl⟩
  | cancel => exact ⟨_, rfl⟩

/-! ## In front of the bridge -/

section Caller

variable {near far : Codec} {name : String} {datasource : Datasource σ} {seq : UInt64}
  {server : Server (HostedDatasource σ)} {hosted : HostedDatasource σ}

/-- The reply to a call comes back and is settled; the datasource has taken the call once. -/
theorem invoke_operation {α : Type} (same : far.mode = near.mode)
    (served : Registry.find? server name = some (datasource.service far)) (operation : Operation)
    (carried : operation.Carried near far name datasource seq hosted.state)
    (form : Compact.Form α) (envelope? : α → Option Envelope) (world : World τ) (outside : τ) :
    ∃ trigger, RemoteEndpoint.invoke ⟨name, near⟩ world operation.method (operation.body near) form
        envelope? (⟨.idle seq, server, hosted⟩, outside) =
      (some (Message.settle (Registry.methodName name operation.method) form envelope?
        (.ok (Server.replyFrame seq
          (.ok ((operation.direct datasource hosted.state).2.body far))))),
        (⟨.idle (seq + 1), server, ⟨(operation.direct datasource hosted.state).1, trigger⟩⟩,
          outside)) := by
  have fits := Frame.length_body_lt carried.request
  obtain ⟨trigger, answered⟩ :=
    answer_operation same datasource operation hosted carried.arguments fits
  have handled : (datasource.service far operation.method (operation.body near) hosted).run world
      outside = (outside, some (⟨(operation.direct datasource hosted.state).1, trigger⟩,
        .ok ((operation.direct datasource hosted.state).2.body far))) := by
    rw [Datasource.service, Service.run_ofAnswer, answered]
  exact ⟨trigger, RemoteEndpoint.invoke_idle ⟨name, near⟩ form envelope? operation.method_plain
    served carried.request handled carried.reply⟩

/-- The reply to an execution tells the caller its value, or the outermost text of its failure. -/
theorem decode_outcome (same : far.mode = near.mode)
    (nearHolds : near.mode = .legacy → near.types.HoldsValues)
    (farHolds : far.mode = .legacy → far.types.HoldsValues) (method : String)
    (result : Except Failure Value) (admitted : (Outcome.executed result).Admitted far.mode)
    (fits : (Message.outcome.write (Datasource.executed far result)).length < 2 ^ 64) :
    (do
      let (blob, _) ← (Message.settle method Message.outcome (·.2) (.ok (Server.replyFrame seq
        (.ok (Message.outcome.write (Datasource.executed far result)))))).mapError Failure.bridge
      (near.decodeResult blob).mapError fun error => Failure.bridge (.codec error)) =
      result.mapError (Failure.afar .execution) := by
  have trip := Message.roundTrips_outcome _ fits
  cases result with
  | ok value =>
    obtain ⟨bytes, encoded⟩ := far.exists_encodeResult farHolds value
    have replied : Datasource.executed far (.ok value) = (bytes, none) := by
      simp only [Datasource.executed, encoded]
    rw [replied] at trip fits ⊢
    have shorter : bytes.length < 2 ^ 64 := by
      simp only [Message.outcome, Compact.Form.pair, Compact.Form.bytes, List.length_append] at fits
      omega
    have decoded := Codec.decodeResult_encodeResult same.symm nearHolds farHolds value admitted.1
      admitted.2 encoded shorter
    rw [Message.settle_ok method (·.2) seq trip rfl]
    simp only [Except.mapError, bind, Except.bind, decoded]
  | error failure =>
    rw [Message.settle_envelope method (·.2) seq trip rfl]
    rfl

/-- The reply to a question for the specification tells it. -/
theorem decode_specification (same : far.mode = near.mode) (method : String) (spec : ObjectSpec)
    (admitted : (Outcome.specified (.ok spec)).Admitted far.mode)
    (fits : (Message.blob.write (far.encodeSpec spec)).length < 2 ^ 64) :
    (do
      let blob ← Message.settle method Message.blob (fun _ => none) (.ok (Server.replyFrame seq
        (.ok (Message.blob.write (far.encodeSpec spec)))))
      (near.decodeSpec blob).mapError BridgeError.codec) = .ok spec := by
  have trip := Message.roundTrips_blob _ fits
  have shorter : (far.encodeSpec spec).length < 2 ^ 64 := by
    simp only [Message.blob, Compact.Form.bytes, List.length_append] at fits
    omega
  have decoded := Codec.decodeSpec_encodeSpec same.symm spec admitted.1 admitted.2.1 admitted.2.2
    shorter
  rw [Message.settle_ok method (fun _ => none) seq trip rfl]
  simp only [bind, Except.bind, decoded, Except.mapError]

/-- One call across the bridge is the call on the datasource itself, with its failure told from
afar. -/
theorem bridged_operation (same : far.mode = near.mode)
    (nearHolds : near.mode = .legacy → near.types.HoldsValues)
    (farHolds : far.mode = .legacy → far.types.HoldsValues)
    (served : Registry.find? server name = some (datasource.service far)) (operation : Operation)
    (carried : operation.Carried near far name datasource seq hosted.state) (world : World τ)
    (outside : τ) :
    ∃ trigger, operation.bridged ⟨name, near⟩ world (⟨.idle seq, server, hosted⟩, outside) =
      (some (operation.direct datasource hosted.state).2.across,
        (⟨.idle (seq + 1), server, ⟨(operation.direct datasource hosted.state).1, trigger⟩⟩,
          outside)) := by
  have fits := Frame.length_replyBody_lt carried.reply
  cases operation with
  | configure configs =>
    obtain ⟨trigger, invoked⟩ := invoke_operation same served _ carried Message.acknowledgement id
      world outside
    refine ⟨trigger, ?_⟩
    unfold bridged RemoteEndpoint.configure
    apply Calls.bind_some
    rw [← Message.settle_acknowledgement _ .configuration _ _ fits]
    exact Calls.bind_some invoked
  | outputSpec =>
    obtain ⟨trigger, invoked⟩ := invoke_operation same served _ carried Message.blob
      (fun _ => none) world outside
    refine ⟨trigger, ?_⟩
    unfold bridged RemoteEndpoint.outputSpec
    apply Calls.bind_some
    rw [← decode_specification same _ _ carried.result fits]
    exact Calls.bind_some invoked
  | execute =>
    obtain ⟨trigger, invoked⟩ := invoke_operation same served _ carried Message.outcome (·.2)
      world outside
    refine ⟨trigger, ?_⟩
    unfold bridged RemoteEndpoint.execute
    apply Calls.bind_some
    rw [← decode_outcome same nearHolds farHolds _ _ carried.result fits]
    exact Calls.bind_some invoked
  | cancel =>
    obtain ⟨trigger, invoked⟩ := invoke_operation same served _ carried Message.nothing
      (fun _ => none) world outside
    refine ⟨trigger, ?_⟩
    unfold bridged RemoteEndpoint.cancel
    exact Calls.bind_some (Calls.bind_some invoked)

/-- Calls one after another across the bridge: each begins where the one before has left the
datasource. -/
theorem bridgedAll_directAll (same : far.mode = near.mode)
    (nearHolds : near.mode = .legacy → near.types.HoldsValues)
    (farHolds : far.mode = .legacy → far.types.HoldsValues)
    (served : Registry.find? server name = some (datasource.service far))
    (operations : List Operation)
    (carried : CarriedAll near far name datasource seq hosted.state operations) (world : World τ)
    (outside : τ) :
    ∃ link, bridgedAll ⟨name, near⟩ world operations (⟨.idle seq, server, hosted⟩, outside) =
        (some ((directAll datasource hosted.state operations).2.map Outcome.across),
          (link, outside)) ∧
      link.state.state = (directAll datasource hosted.state operations).1 := by
  induction operations generalizing seq hosted with
  | nil => exact ⟨⟨.idle seq, server, hosted⟩, rfl, rfl⟩
  | cons operation rest ih =>
    obtain ⟨trigger, first⟩ := bridged_operation same nearHolds farHolds served operation carried.1
      world outside
    have later : CarriedAll near far name datasource (seq + 1)
        (HostedDatasource.mk (operation.direct datasource hosted.state).1 trigger).state rest :=
      carried.2
    obtain ⟨link, ran, final⟩ := ih later
    refine ⟨link, ?_, final⟩
    unfold bridgedAll
    rw [Calls.bind_some first]
    exact Calls.bind_some ran

end Caller

/-! ## The record -/

section Record

variable {near far : Codec} {name : String} {datasource : Datasource σ}

theorem direct_recording (state : σ) (record : List Operation) (operation : Operation) :
    operation.direct datasource.recording (state, record) =
      (((operation.direct datasource state).1, record ++ [operation]),
        (operation.direct datasource state).2) := by
  cases operation <;> rfl

theorem directAll_recording (state : σ) (record operations : List Operation) :
    directAll datasource.recording (state, record) operations =
      (((directAll datasource state operations).1, record ++ operations),
        (directAll datasource state operations).2) := by
  induction operations generalizing state record with
  | nil => rw [directAll, directAll, List.append_nil]
  | cons operation rest ih =>
    simp only [directAll, direct_recording, ih, List.append_assoc, List.singleton_append]

theorem carriedAll_recording {seq : UInt64} {state : σ} {record operations : List Operation}
    (carried : CarriedAll near far name datasource seq state operations) :
    CarriedAll near far name datasource.recording seq (state, record) operations := by
  induction operations generalizing seq state record with
  | nil => trivial
  | cons operation rest ih =>
    obtain ⟨first, later⟩ := carried
    constructor
    · constructor
      · exact first.arguments
      · rw [direct_recording]
        exact first.result
      · exact first.request
      · rw [direct_recording]
        exact first.reply
    · rw [direct_recording]
      exact ih later

end Record

/-- A datasource behind a bridge is the datasource itself. If the frames are within the limit and
what they carry nests no deeper than the mode admits, then it takes exactly the calls that are made,
once each and in order, and each caller learns what the call came to: its value or specification, or
the outermost text of its failure and which call it was. -/
theorem bridge_refines_datasource (near far : Codec) (same : far.mode = near.mode)
    (nearHolds : near.mode = .legacy → near.types.HoldsValues)
    (farHolds : far.mode = .legacy → far.types.HoldsValues) (datasource : Datasource σ)
    (name : String) (server : Server (HostedDatasource (σ × List Operation)))
    (served : Registry.find? server name = some (datasource.recording.service far)) (seq : UInt64)
    (state : σ) (record : List Operation) (trigger : CancelTrigger) (operations : List Operation)
    (carried : CarriedAll near far name datasource seq state operations) (world : World τ)
    (outside : τ) :
    ∃ link, bridgedAll ⟨name, near⟩ world operations
        (⟨.idle seq, server, ⟨(state, record), trigger⟩⟩, outside) =
        (some ((directAll datasource state operations).2.map Outcome.across), (link, outside)) ∧
      link.state.state = ((directAll datasource state operations).1, record ++ operations) := by
  have recorded : CarriedAll near far name datasource.recording seq
      (HostedDatasource.mk (state, record) trigger).state operations :=
    carriedAll_recording carried
  obtain ⟨link, ran, final⟩ := bridgedAll_directAll same nearHolds farHolds served operations
    recorded world outside
  rw [directAll_recording] at ran final
  exact ⟨link, ran, final⟩

section Example

open Rehearsal

/-- A datasource that refuses its first configuration and whose second execution fails. -/
def moody : ScriptedDatasource where
  configureOutcomes := [.error (.context "missing field" (.text "name")), .ok .null]
  executeOutcomes := [.ok (.list [.null, .object [("a", .bool true)]]), .error (.text "gone")]
  spec := [("a", .attr "a" (.list .any) true)]

def moodyCalls : List Operation :=
  [.configure [.object [("a", .string "b")]], .configure [.null], .outputSpec, .execute, .execute,
    .cancel]

theorem moody_carried : CarriedAll (.ofMode .current) (.ofMode .current) "Data.source"
    scriptedDatasource 1 moody moodyCalls := by
  refine ⟨⟨?_, trivial, ?_, ?_⟩, ⟨?_, trivial, ?_, ?_⟩, ⟨trivial, ?_, ?_, ?_⟩,
    ⟨trivial, ?_, ?_, ?_⟩, ⟨trivial, trivial, ?_, ?_⟩, ⟨trivial, trivial, ?_, ?_⟩, trivial⟩
  · intro value member
    rw [List.mem_singleton.mp member]
    exact ⟨⟨by decide, trivial, trivial⟩, (by decide : Cbor.valueDepth _ ≤ Cbor.depthLimit)⟩
  · decide
  · decide
  · intro value member
    rw [List.mem_singleton.mp member]
    exact ⟨trivial, (by decide : Cbor.valueDepth _ ≤ Cbor.depthLimit)⟩
  · decide
  · decide
  · exact ⟨by decide, ⟨trivial, trivial⟩, (by decide : Cbor.documentDepth _ ≤ Cbor.depthLimit)⟩
  · decide
  · decide
  · exact ⟨⟨trivial, ⟨by decide, trivial, trivial⟩, trivial⟩,
      (by decide : Cbor.valueDepth _ + 1 ≤ Cbor.depthLimit)⟩
  · decide
  · decide
  · decide
  · decide
  · decide
  · decide

def moodyServer : Server (HostedDatasource (ScriptedDatasource × List Operation)) :=
  [("Data.source", scriptedDatasource.recording.service (.ofMode .current))]

/-- The calls of a run across the bridge, with both failures told by their outermost texts. -/
theorem bridge_refines_moody :
    ∃ link, bridgedAll ⟨"Data.source", .ofMode .current⟩ World.unreachable moodyCalls
        (⟨.idle 1, moodyServer, ⟨(moody, []), {}⟩⟩, ()) =
        (some [
          .configured (.error (.bridge (.remote ⟨"missing field", some .configuration⟩))),
          .configured (.ok ()),
          .specified (.ok moody.spec),
          .executed (.ok (.list [.null, .object [("a", .bool true)]])),
          .executed (.error (.bridge (.remote ⟨"gone", some .execution⟩))),
          .cancelled], (link, ())) ∧
      link.state.state.2 = moodyCalls := by
  obtain ⟨link, ran, final⟩ := bridge_refines_datasource (.ofMode .current) (.ofMode .current) rfl
    (fun _ => TypeRegistry.holdsValues_registerBuiltin _)
    (fun _ => TypeRegistry.holdsValues_registerBuiltin _) scriptedDatasource "Data.source"
    moodyServer rfl 1 moody [] {} moodyCalls moody_carried World.unreachable ()
  exact ⟨link, ran, congrArg Prod.snd final⟩

end Example

end Operation

end PluginBridge
