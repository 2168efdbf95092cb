import PluginBridge.Bridge.Endpoint
import PluginBridge.Proofs.Messages
import PluginBridge.Proofs.Routing

/-! One call across a link: a request that fits its frame reaches the service that its name asks
for, and a reply that fits comes back to the caller that waits for it. -/

namespace PluginBridge

/-! ## Frames -/

namespace Frame

variable {α : Type}

/-- The payload is within the limit of a frame. -/
def Fits (form : Compact.Form α) (a : α) : Prop :=
  (form.write a).length ≤ limit

instance (form : Compact.Form α) (a : α) : Decidable (Fits form a) :=
  inferInstanceAs (Decidable (_ ≤ _))

theorem limit_lt : limit < 2 ^ 32 := by
  decide

theorem Fits.word {form : Compact.Form α} {a : α} (fits : Fits form a) :
    (form.write a).length < 2 ^ 64 :=
  Nat.lt_of_le_of_lt fits (by decide)

theorem Fits.checked {form : Compact.Form α} {a : α} (fits : Fits form a) :
    checkSize (form.write a).length = .ok () := by
  rw [checkSize, if_neg (Nat.not_lt.mpr fits)]

theorem write_of_fits {form : Compact.Form α} {a : α} (fits : Fits form a) :
    write form a = .ok (frame (form.write a)) := by
  simp only [write, fits.checked]
  rfl

theorem write_of_not_fits {form : Compact.Form α} {a : α} (large : ¬ Fits form a) :
    write form a = .error (.frameTooLarge (form.write a).length) := by
  simp only [write, checkSize]
  rw [if_pos (Nat.not_le.mp large)]
  rfl

theorem length_frame (payload : Bytes) : (frame payload).length = 4 + payload.length := by
  rw [frame, List.length_append, Bytes.length_littleEndian]

/-- A length is read whole; what is found then is up to the bytes behind it. -/
theorem read_sized (form : Compact.Form α) {size : Nat} (word : size < 2 ^ 32) (rest : Bytes) :
    read form (Bytes.littleEndian 4 size ++ rest) =
      match checkSize size with
      | .error error => (.failed error, rest)
      | .ok () =>
        if rest.length < size then (.failed (.io .earlyEof), [])
        else
          match form.decode (rest.take size) with
          | .ok a => (.frame a, rest.drop size)
          | .error error => (.failed (.compact error), rest.drop size) := by
  have width : (Bytes.littleEndian 4 size).length = 4 := Bytes.length_littleEndian 4 size
  have long : ¬ (Bytes.littleEndian 4 size ++ rest).length < 4 := by
    rw [List.length_append, width]
    omega
  have opened : read form (Bytes.littleEndian 4 size ++ rest) = _ := if_neg long
  dsimp only at opened
  rw [List.take_left' width, List.drop_left' width,
    Bytes.ofLittleEndian_littleEndian 4 size word] at opened
  exact opened

/-- A frame that was written is read back, whatever follows it. -/
theorem read_frame {form : Compact.Form α} {a : α} (trip : form.RoundTrips a) (fits : Fits form a)
    (rest : Bytes) : read form (frame (form.write a) ++ rest) = (.frame a, rest) := by
  have whole : ¬ (form.write a ++ rest).length < (form.write a).length := by
    rw [List.length_append]
    omega
  rw [frame, List.append_assoc, read_sized form (Nat.lt_of_le_of_lt fits limit_lt),
    fits.checked]
  dsimp only
  rw [if_neg whole, List.take_left, List.drop_left, trip.decode_self]

end Frame

theorem RequestFrame.roundTrips (frame : RequestFrame) (fits : (form.write frame).length < 2 ^ 64) :
    form.RoundTrips frame := by
  obtain ⟨seq, method, body⟩ := frame
  simp only [form, Compact.Form.as, Compact.Form.pair, Compact.Form.text, Compact.Form.bytes,
    List.length_append] at fits
  apply Compact.Form.roundTrips_as _ rfl
  apply Compact.Form.roundTrips_pair (Compact.Form.roundTrips_word64 seq)
  exact Compact.Form.roundTrips_pair (Compact.Form.roundTrips_text method (by omega))
    (Compact.Form.roundTrips_bytes body (by omega))

theorem ResponseFrame.roundTrips (frame : ResponseFrame)
    (fits : (form.write frame).length < 2 ^ 64) : form.RoundTrips frame := by
  obtain ⟨seq, body, error⟩ := frame
  simp only [form, Compact.Form.as, Compact.Form.pair, Compact.Form.bytes, List.length_append]
    at fits
  apply Compact.Form.roundTrips_as _ rfl
  apply Compact.Form.roundTrips_pair (Compact.Form.roundTrips_word64 seq)
  apply Compact.Form.roundTrips_pair (Compact.Form.roundTrips_bytes body (by omega))
  apply Compact.Form.roundTrips_option
  intro text given
  obtain rfl : error = some text := given
  simp only [Compact.Form.option, Compact.Form.text, Compact.Form.bytes, List.length_cons,
    List.length_append] at fits
  exact Compact.Form.roundTrips_text text (by omega)

theorem Frame.length_body_lt {seq : UInt64} {name : String} {body : Bytes}
    (fits : Frame.Fits RequestFrame.form ⟨seq, name, body⟩) : body.length < 2 ^ 64 := by
  have word := fits.word
  simp only [RequestFrame.form, Compact.Form.as, Compact.Form.pair, Compact.Form.bytes,
    List.length_append] at word
  omega

theorem Frame.length_replyBody_lt {seq : UInt64} {body : Bytes} {error : Option String}
    (fits : Frame.Fits ResponseFrame.form ⟨seq, body, error⟩) : body.length < 2 ^ 64 := by
  have word := fits.word
  simp only [ResponseFrame.form, Compact.Form.as, Compact.Form.pair, Compact.Form.bytes,
    List.length_append] at word
  omega

/-! ## Calls -/

def Client.idle (seq : UInt64) : Client :=
  { nextSeq := seq }

theorem Server.seq_replyFrame (seq : UInt64) (result : Except TransportError Bytes) :
    (Server.replyFrame seq result).seq = seq := by
  cases result <;> rfl

theorem Service.run_ofAnswer {σ τ : Type} (world : World τ)
    (answer : String → Bytes → σ → σ × Except TransportError Bytes) (method : String)
    (body : Bytes) (state : σ) (outside : τ) :
    (Service.ofAnswer answer method body state).run world outside =
      (outside, some (answer method body state)) :=
  rfl

/-- What a call comes to whose request is handled in this way: the states of the services and
outside, and what the caller gets, none if it waits on. A request that is too large is not sent, and
a reply that is too large is not written. -/
def Handling.exchange {σ τ : Type} (world : World τ) (request : RequestFrame)
    (handling : Handling σ) (state : σ) (outside : τ) :
    σ × τ × Option (Except TransportError ResponseFrame) :=
  if Frame.Fits RequestFrame.form request then
    match handling.run world outside with
    | (outside, some (state, result)) =>
      let reply := Server.replyFrame request.seq result
      (state, outside, if Frame.Fits ResponseFrame.form reply then some (.ok reply) else none)
    | (outside, none) => (state, outside, none)
  else (state, outside, some (.error (.frameTooLarge (RequestFrame.form.write request).length)))

namespace Link

variable {σ τ : Type} {world : World τ} {server : Server σ} {state next : σ} {outside after : τ}
  {seq : UInt64} {method : String} {body : Bytes} {result : Except TransportError Bytes}

/-- The frame of a request is handled, and the reply is written if the handling returns. -/
theorem serveRequest_eq (world : World τ) (server : Server σ) (state : σ) (outside : τ)
    (fits : Frame.Fits RequestFrame.form ⟨seq, method, body⟩) :
    serveRequest world server (Frame.frame (RequestFrame.form.write ⟨seq, method, body⟩)) state
      outside =
      match (server.handle method body state).run world outside with
      | (after, some (next, result)) => (after, next, Server.replyBytes seq result)
      | (after, none) => (after, state, []) := by
  have read := Frame.read_frame (RequestFrame.roundTrips _ fits.word) fits []
  rw [List.append_nil] at read
  rcases ran : (server.handle method body state).run world outside with
    ⟨after, _ | ⟨next, result⟩⟩ <;>
    simp only [serveRequest, read, ran]

/-- The reply that fits is written whole. -/
theorem serveRequest_frame
    (fits : Frame.Fits RequestFrame.form ⟨seq, method, body⟩)
    (handled : (server.handle method body state).run world outside = (after, some (next, result)))
    (replyFits : Frame.Fits ResponseFrame.form (Server.replyFrame seq result)) :
    serveRequest world server (Frame.frame (RequestFrame.form.write ⟨seq, method, body⟩)) state
      outside =
      (after, next, Frame.frame (ResponseFrame.form.write (Server.replyFrame seq result))) := by
  rw [serveRequest_eq world server state outside fits, handled]
  simp only [Server.replyBytes, Frame.write_of_fits replyFits]

/-- The reply of a call goes to the caller that waits for it, who then waits no longer. -/
theorem receiveReply_frame {client : Client} {frame : ResponseFrame} {channel : Nat}
    (waits : client.waiting.lookup frame.seq = some channel)
    (fits : Frame.Fits ResponseFrame.form frame) :
    receiveReply client channel (Frame.frame (ResponseFrame.form.write frame)) =
      (client.forget frame.seq, some (.ok frame)) := by
  have read := Frame.read_frame (ResponseFrame.roundTrips frame fits.word) fits []
  rw [List.append_nil] at read
  have received : client.receive? frame.seq = some (client.forget frame.seq, channel) := by
    rw [Client.receive?, waits]
    rfl
  simp only [receiveReply, read, received, if_true]

/-- A client that waits on the channel of its newest call. -/
def sent (client : Client) : Client :=
  { client with
    nextSeq := client.nextSeq + 1
    waiting := (client.nextSeq, client.nextSeq.toNat - 1) ::
      (client.forget client.nextSeq).waiting }

theorem register?_sent {client : Client} (isOpen : client.closed = false) :
    Client.register? { client with nextSeq := client.nextSeq + 1 } client.nextSeq
      (client.nextSeq.toNat - 1) = some (sent client) := by
  rw [Client.register?, if_neg (Bool.eq_false_iff.mp isOpen)]
  rfl

theorem lookup_sent (client : Client) :
    (sent client).waiting.lookup client.nextSeq = some (client.nextSeq.toNat - 1) := by
  rw [sent, List.lookup_cons, beq_self_eq_true]

/-- A call over an open connection whose request fits is served, and its caller gets what comes
back. -/
theorem call_of_fits {client : Client} (isOpen : client.closed = false)
    (fits : Frame.Fits RequestFrame.form ⟨client.nextSeq, method, body⟩) {reply : Bytes}
    (served : serveRequest world server
      (Frame.frame (RequestFrame.form.write ⟨client.nextSeq, method, body⟩)) state outside =
        (after, next, reply)) :
    call world method body ⟨client, server, state⟩ outside =
      (⟨(receiveReply (sent client) (client.nextSeq.toNat - 1) reply).1, server, next⟩, after,
        (receiveReply (sent client) (client.nextSeq.toNat - 1) reply).2) := by
  simp only [call, Client.draw, register?_sent isOpen, Frame.write_of_fits fits, served]

theorem receiveReply_nil (client : Client) (channel : Nat) :
    receiveReply client channel [] = (client, none) :=
  rfl

theorem receiveReply_replyBytes {client : Client} {channel : Nat}
    (waits : client.waiting.lookup seq = some channel) (result : Except TransportError Bytes) :
    receiveReply client channel (Server.replyBytes seq result) =
      if Frame.Fits ResponseFrame.form (Server.replyFrame seq result) then
        (client.forget seq, some (.ok (Server.replyFrame seq result)))
      else (client, none) := by
  have numbered := Server.seq_replyFrame seq result
  by_cases fits : Frame.Fits ResponseFrame.form (Server.replyFrame seq result)
  · have received := receiveReply_frame (numbered.symm ▸ waits) fits
    rw [numbered] at received
    simp only [Server.replyBytes, Frame.write_of_fits fits, received, if_pos fits]
  · simp only [Server.replyBytes, Frame.write_of_not_fits fits, receiveReply_nil, if_neg fits]

/-- A call over an open connection comes to what the handling of its request comes to, and leaves
the connection open. -/
theorem call_open (world : World τ) (method : String) (body : Bytes) {client : Client}
    (isOpen : client.closed = false) (server : Server σ) (state : σ) (outside : τ) :
    let exchanged := (server.handle method body state).exchange world
      ⟨client.nextSeq, method, body⟩ state outside
    ∃ last : Client, last.closed = false ∧
      call world method body ⟨client, server, state⟩ outside =
        (⟨last, server, exchanged.1⟩, exchanged.2) := by
  intro exchanged
  by_cases fits : Frame.Fits RequestFrame.form ⟨client.nextSeq, method, body⟩
  · have served := serveRequest_eq world server state outside fits
    have same : exchanged = _ := if_pos fits
    rcases ran : (server.handle method body state).run world outside with
      ⟨after, _ | ⟨next, result⟩⟩
    · rw [ran] at served same
      have answered := call_of_fits isOpen fits served
      rw [receiveReply_nil] at answered
      rw [answered, same]
      exact ⟨sent client, isOpen, rfl⟩
    · rw [ran] at served same
      have answered := call_of_fits isOpen fits served
      rw [receiveReply_replyBytes (lookup_sent client) result] at answered
      rw [answered, same]
      dsimp only
      by_cases replyFits :
          Frame.Fits ResponseFrame.form (Server.replyFrame client.nextSeq result)
      · rw [if_pos replyFits, if_pos replyFits]
        exact ⟨(sent client).forget client.nextSeq, isOpen, rfl⟩
      · rw [if_neg replyFits, if_neg replyFits]
        exact ⟨sent client, isOpen, rfl⟩
  · have refused := Frame.write_of_not_fits fits
    have same : exchanged = _ := if_neg fits
    refine ⟨(sent client).forget client.nextSeq, isOpen, ?_⟩
    simp only [call, Client.draw, register?_sent isOpen, refused, same]

/-- A call over a connection that has ended fails at once. -/
theorem call_closed (world : World τ) (method : String) (body : Bytes) {client : Client}
    (closed : client.closed = true) (server : Server σ) (state : σ) (outside : τ) :
    call world method body ⟨client, server, state⟩ outside =
      (⟨client.draw.1, server, state⟩, outside, some (.error .connectionClosed)) := by
  have refused : Client.register? { client with nextSeq := client.nextSeq + 1 } client.nextSeq
      (client.nextSeq.toNat - 1) = none := if_pos closed
  simp only [call, Client.draw, refused]

/-- A call whose request and reply fit their frames comes back with the reply of the service. -/
theorem call_idle (fits : Frame.Fits RequestFrame.form ⟨seq, method, body⟩)
    (handled : (server.handle method body state).run world outside = (after, some (next, result)))
    (replyFits : Frame.Fits ResponseFrame.form (Server.replyFrame seq result)) :
    call world method body ⟨.idle seq, server, state⟩ outside =
      (⟨.idle (seq + 1), server, next⟩, after, some (.ok (Server.replyFrame seq result))) := by
  have numbered := Server.seq_replyFrame seq result
  have waits : (sent (.idle seq)).waiting.lookup (Server.replyFrame seq result).seq =
      some (seq.toNat - 1) := by
    rw [numbered]
    exact lookup_sent (.idle seq)
  have left : (sent (.idle seq)).forget seq = .idle (seq + 1) := by
    simp [sent, Client.forget, Client.idle]
  have received := receiveReply_frame waits replyFits
  rw [numbered, left] at received
  have served := serveRequest_frame fits handled replyFits
  have isOpen : (Client.idle seq).closed = false := rfl
  calc
    call world method body ⟨.idle seq, server, state⟩ outside
      = (⟨(receiveReply (sent (.idle seq)) (seq.toNat - 1) _).1, server, next⟩, after,
          (receiveReply (sent (.idle seq)) (seq.toNat - 1) _).2) :=
        call_of_fits isOpen fits served
    _ = (⟨.idle (seq + 1), server, next⟩, after, some (.ok (Server.replyFrame seq result))) := by
        rw [received]

end Link

/-! ## What the caller learns -/

namespace Message

variable {α : Type} {form : Compact.Form α} {a : α}

theorem settle_ok (method : String) (envelope? : α → Option Envelope) (seq : UInt64)
    (trip : form.RoundTrips a) (success : envelope? a = none) :
    settle method form envelope? (.ok (Server.replyFrame seq (.ok (form.write a)))) = .ok a := by
  simp only [settle, Server.replyFrame, trip.decode_self, success]

theorem settle_envelope (method : String) (envelope? : α → Option Envelope) (seq : UInt64)
    {envelope : Envelope} (trip : form.RoundTrips a) (failure : envelope? a = some envelope) :
    settle method form envelope? (.ok (Server.replyFrame seq (.ok (form.write a)))) =
      .error (.remote envelope) := by
  simp only [settle, Server.replyFrame, trip.decode_self, failure]

/-- A failure of the transport is told by its text, whether or not its empty body can be read. -/
theorem settle_failed (method : String) (envelope? : α → Option Envelope) (seq : UInt64)
    (error : TransportError) (silent : ∀ reply, form.decode [] = .ok reply → envelope? reply = none) :
    settle method form envelope? (.ok (Server.replyFrame seq (.error error))) =
      .error (.transport method (.serverError error.message)) := by
  simp only [settle, Server.replyFrame]
  cases read : form.decode [] with
  | ok reply => simp only [silent reply read]
  | error => rfl

/-- An acknowledgement tells the caller whether the call succeeded, and if not its outermost text. -/
theorem settle_acknowledgement (method : String) (kind : ErrorKind) (result : Except Failure Unit)
    (seq : UInt64)
    (fits : (acknowledgement.write (Envelope.ofResult kind result)).length < 2 ^ 64) :
    ((settle method acknowledgement id (.ok (Server.replyFrame seq
      (.ok (acknowledgement.write (Envelope.ofResult kind result)))))).map
        fun _ => ()).mapError Failure.bridge = result.mapError (Failure.afar kind) := by
  have trip := roundTrips_acknowledgement _ fits
  cases result with
  | ok =>
    rw [settle_ok method id seq trip rfl]
    rfl
  | error failure =>
    rw [settle_envelope method id seq trip rfl]
    rfl

end Message

namespace RemoteEndpoint

variable {σ τ α : Type} {world : World τ} {server : Server σ} {state next : σ}
  {outside after : τ} {seq : UInt64} {method : String} {body : Bytes}
  {result : Except TransportError Bytes}

/-- A call of an endpoint whose frames fit reaches the endpoint's service once, and its reply is
settled. -/
theorem invoke_idle (endpoint : RemoteEndpoint) {service : Service σ} (form : Compact.Form α)
    (envelope? : α → Option Envelope) (plain : '.' ∉ method.toList)
    (found : Registry.find? server endpoint.name = some service)
    (fits : Frame.Fits RequestFrame.form ⟨seq, Registry.methodName endpoint.name method, body⟩)
    (handled : (service method body state).run world outside = (after, some (next, result)))
    (replyFits : Frame.Fits ResponseFrame.form (Server.replyFrame seq result)) :
    endpoint.invoke world method body form envelope? (⟨.idle seq, server, state⟩, outside) =
      (some (Message.settle (Registry.methodName endpoint.name method) form envelope?
        (.ok (Server.replyFrame seq result))), (⟨.idle (seq + 1), server, next⟩, after)) := by
  have answered := handled
  rw [← Server.handle_methodName plain found] at answered
  have exchanged := Link.call_idle fits answered replyFits
  simp only [invoke, exchanged, Option.map_some]

end RemoteEndpoint

end PluginBridge
