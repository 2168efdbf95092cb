import PluginBridge.Builder.Remote
import PluginBridge.Builder.Serving
import PluginBridge.Builder.Transcript
import PluginBridge.Proofs.Exchange
import PluginBridge.Sample.EchoBuilder

/-! A run of a builder across the bridge is the run on the host itself. The callbacks go to a second
connection in the other direction; a conversation held there is one that agrees with the local one,
call by call, as long as the builder tells failures apart only by their texts. -/

namespace PluginBridge

/-! ## Conversations that agree -/

/-- Equal values, or failures with one outermost text. -/
def Alike {α : Type} (a b : Except Failure α) : Prop :=
  a.mapError Failure.message = b.mapError Failure.message

theorem alike_afar {α : Type} (kind : ErrorKind) (answer : Except Failure α) :
    Alike answer (answer.mapError (Failure.afar kind)) := by
  cases answer <;> rfl

theorem map_mapError {α β ε δ : Type} (f : α → β) (g : ε → δ) (answer : Except ε α) :
    (answer.mapError g).map f = (answer.map f).mapError g := by
  cases answer <;> rfl

namespace Conversation

variable {ρ π : Type}

/-- The two make the same calls as long as they hear answers that are alike, and come to results
that are the same in the given sense. -/
inductive Agree (same : ρ → ρ → Prop) : Conversation ρ → Conversation ρ → Prop where
  | done {a b : ρ} (results : same a b) : Agree same (done a) (done b)
  | askName {near far : Except Failure String → Conversation ρ}
      (later : ∀ a b, Alike a b → Agree same (near a) (far b)) :
      Agree same (askName near) (askName far)
  | tell {near far : Except Failure Unit → Conversation ρ} (sink : Sink) (text : String)
      (later : ∀ a b, Alike a b → Agree same (near a) (far b)) :
      Agree same (tell sink text near) (tell sink text far)

theorem Agree.bind {same : ρ → ρ → Prop} {also : π → π → Prop} {near far : Conversation ρ}
    {next other : ρ → Conversation π} (agree : Agree same near far)
    (later : ∀ a b, same a b → Agree also (next a) (other b)) :
    Agree also (near.bind next) (far.bind other) := by
  induction agree with
  | done results => exact later _ _ results
  | askName _ ih => exact .askName fun a b alike => ih a b alike
  | tell sink text _ ih => exact .tell sink text fun a b alike => ih a b alike

/-- What was heard is the same for both. -/
theorem Agree.transcribed {same : ρ → ρ → Prop} {near far : Conversation ρ}
    (agree : Agree same near far) (heard : List Heard) :
    Agree (fun a b => same a.1 b.1 ∧ a.2 = b.2) (near.transcribed heard)
      (far.transcribed heard) := by
  induction agree generalizing heard with
  | done results => exact .done ⟨results, rfl⟩
  | askName _ ih =>
    refine .askName fun a b alike => ?_
    rw [alike]
    exact ih a b alike _
  | tell sink text _ ih =>
    refine .tell sink text fun a b alike => ?_
    rw [alike]
    exact ih a b alike _

/-- The frames of the calls that the conversation makes of the host are within the limit, the first
with the given sequence number. -/
def Carried {τ : Type} (host : Host τ) : UInt64 → Conversation ρ → τ → Prop
  | _, done _, _ => True
  | seq, askName next, state =>
    Frame.Fits RequestFrame.form
        ⟨seq, Registry.methodName Sink.buildEndpoint "Name", Message.nothing.write ()⟩ ∧
      Frame.Fits ResponseFrame.form
        ⟨seq, Message.named.write (Host.nameReply (host.name state).2), none⟩ ∧
      Carried host (seq + 1) (next (host.name state).2) (host.name state).1
  | seq, tell sink text next, state =>
    Frame.Fits RequestFrame.form
        ⟨seq, Registry.methodName sink.endpoint sink.method, Message.text.write text⟩ ∧
      Frame.Fits ResponseFrame.form ⟨seq, Message.acknowledgement.write
        (Envelope.ofResult .callback (host.tell sink text state).2), none⟩ ∧
      Carried host (seq + 1) (next (host.tell sink text state).2) (host.tell sink text state).1

end Conversation

/-- What the builder does next depends only on the values and the texts of the answers it hears. -/
def Builder.HearsTexts {σ : Type} (builder : Builder σ) : Prop :=
  ∀ state, Conversation.Agree (fun a b => a.1 = b.1 ∧ Alike a.2 b.2) (builder.run state)
    (builder.run state)

theorem Builder.HearsTexts.transcribing {σ : Type} {builder : Builder σ}
    (hears : builder.HearsTexts) : builder.transcribing.HearsTexts := by
  intro both
  apply ((hears both.1).transcribed both.2).bind
  rintro ⟨⟨state, result⟩, heard⟩ ⟨⟨other, answer⟩, echo⟩ ⟨⟨states, results⟩, transcripts⟩
  exact .done ⟨Prod.ext states transcripts, results⟩

/-! ## The echo builder -/

namespace Conversation

variable {α β : Type}

theorem agree_say (sink : Sink) (text : String) :
    Agree Alike (say sink text).run (say sink text).run :=
  .tell sink text fun _ _ alike => .done alike

theorem agree_name : Agree Alike name.run name.run :=
  .askName fun _ _ alike => .done alike

/-- The first failure ends both, with one text. -/
theorem agree_andThen {first : OrFail α} {next : α → OrFail β} (agree : Agree Alike first.run first.run)
    (later : ∀ a, Agree Alike (next a).run (next a).run) :
    Agree Alike (first >>= next).run (first >>= next).run := by
  apply agree.bind
  intro a b alike
  cases a with
  | ok a => cases b with
    | ok b =>
      obtain rfl : a = b := Except.ok.inj alike
      exact later a
    | error => cases alike
  | error failure => cases b with
    | ok => cases alike
    | error other =>
      have texts : failure.message = other.message := Except.error.inj alike
      exact .done (congrArg Except.error texts)

end Conversation

theorem EchoBuilder.agree_narrateSteps (steps : List String) :
    Conversation.Agree Alike (narrateSteps steps).run (narrateSteps steps).run := by
  induction steps with
  | nil => exact .done rfl
  | cons step rest ih =>
    apply Conversation.agree_andThen (Conversation.agree_say .progress step)
    intro _
    apply Conversation.agree_andThen (Conversation.agree_say .message _)
    exact fun _ => ih

theorem EchoBuilder.agree_narrate (plan : Plan) :
    Conversation.Agree Alike (narrate plan).run (narrate plan).run := by
  unfold narrate
  split
  · apply Conversation.agree_andThen (Conversation.agree_say .error _)
    exact fun _ => .done rfl
  · apply Conversation.agree_andThen Conversation.agree_name
    intro name
    apply Conversation.agree_andThen (Conversation.agree_say .say _)
    intro _
    apply Conversation.agree_andThen (agree_narrateSteps plan.steps)
    exact fun _ => Conversation.agree_say .say _

/-- The echo builder passes every failure on and looks at nothing but its text. -/
theorem echoBuilder_hearsTexts : echoBuilder.HearsTexts := by
  intro plan
  apply (EchoBuilder.agree_narrate plan).bind
  exact fun _ _ alike => .done ⟨rfl, alike⟩

/-! ## Callbacks -/

namespace Host

variable {τ : Type}

def services (host : Host τ) : Server τ :=
  [(Sink.buildEndpoint, host.buildService), (Sink.uiEndpoint, host.uiService)]

/-- A plugin has dialled the callback server and waits for nothing there. -/
def siteAt (host : Host τ) (server : CallbackServer (Service τ)) (seq : UInt64) (state : τ) :
    CallbackSite τ :=
  ⟨state, server, some ⟨.idle seq, host.services, state⟩⟩

theorem call_siteAt (host : Host τ) {server : CallbackServer (Service τ)} {seq : UInt64}
    {state : τ} {endpoint method : String} {body reply : Bytes}
    {answer : String → Bytes → τ → τ × Except TransportError Bytes} {next : τ}
    (plain : '.' ∉ method.toList)
    (found : Registry.find? host.services endpoint = some (Service.ofAnswer answer))
    (answered : answer method body state = (next, .ok reply))
    (fits : Frame.Fits RequestFrame.form ⟨seq, Registry.methodName endpoint method, body⟩)
    (replyFits : Frame.Fits ResponseFrame.form ⟨seq, reply, none⟩) :
    CallbackSite.world.call (Registry.methodName endpoint method) body
        (host.siteAt server seq state) =
      (host.siteAt server (seq + 1) next, some (.ok (Server.replyFrame seq (.ok reply)))) := by
  have handled : (Server.handle host.services (Registry.methodName endpoint method) body state).run
      (World.unreachable : World Unit) () = ((), some (next, .ok reply)) := by
    rw [Server.handle_methodName plain found, Service.run_ofAnswer, answered]
  have called := Link.call_idle fits handled replyFits
  simp only [CallbackSite.world, siteAt, called]

/-- A question for the name reaches the host once, and its reply comes back. -/
theorem call_name (host : Host τ) (server : CallbackServer (Service τ)) {seq : UInt64} {state : τ}
    (fits : Frame.Fits RequestFrame.form
      ⟨seq, Registry.methodName Sink.buildEndpoint "Name", Message.nothing.write ()⟩)
    (replyFits : Frame.Fits ResponseFrame.form
      ⟨seq, Message.named.write (nameReply (host.name state).2), none⟩) :
    CallbackSite.world.call (Registry.methodName Sink.buildEndpoint "Name")
        (Message.nothing.write ()) (host.siteAt server seq state) =
      (host.siteAt server (seq + 1) (host.name state).1,
        some (.ok (Server.replyFrame seq
          (.ok (Message.named.write (nameReply (host.name state).2)))))) :=
  host.call_siteAt (by decide) rfl rfl fits replyFits

/-- A sink is told once, and its acknowledgement comes back. -/
theorem call_tell (host : Host τ) (server : CallbackServer (Service τ)) {seq : UInt64} {state : τ}
    (sink : Sink) (text : String)
    (fits : Frame.Fits RequestFrame.form
      ⟨seq, Registry.methodName sink.endpoint sink.method, Message.text.write text⟩)
    (replyFits : Frame.Fits ResponseFrame.form ⟨seq, Message.acknowledgement.write
      (Envelope.ofResult .callback (host.tell sink text state).2), none⟩) :
    CallbackSite.world.call (Registry.methodName sink.endpoint sink.method)
        (Message.text.write text) (host.siteAt server seq state) =
      (host.siteAt server (seq + 1) (host.tell sink text state).1,
        some (.ok (Server.replyFrame seq (.ok (Message.acknowledgement.write
          (Envelope.ofResult .callback (host.tell sink text state).2)))))) := by
  have told : host.answerTell sink (Message.text.write text) state =
      ((host.tell sink text state).1, .ok (Message.acknowledgement.write
        (Envelope.ofResult .callback (host.tell sink text state).2))) := by
    have sent := Message.roundTrips_text text (Frame.length_body_lt fits)
    simp only [answerTell, Message.read_write sent]
  cases sink with
  | progress => exact host.call_siteAt (by decide) rfl told fits replyFits
  | say => exact host.call_siteAt (by decide) rfl told fits replyFits
  | message => exact host.call_siteAt (by decide) rfl told fits replyFits
  | error => exact host.call_siteAt (by decide) rfl told fits replyFits

/-- The reply to a question for the name tells it, or the text of the host's failure. -/
theorem settle_name (method : String) (answer : Except Failure String) (seq : UInt64)
    (fits : (Message.named.write (nameReply answer)).length < 2 ^ 64) :
    (((Message.settle method Message.named (·.2) (.ok (Server.replyFrame seq
      (.ok (Message.named.write (nameReply answer)))))).mapError Failure.bridge).map (·.1)) =
      answer.mapError (Failure.afar .callback) := by
  have trip := Message.roundTrips_named _ fits
  cases answer with
  | ok name =>
    rw [Message.settle_ok method (·.2) seq trip rfl]
    rfl
  | error failure =>
    rw [Message.settle_envelope method (·.2) seq trip rfl]
    rfl

end Host

/-- A conversation held by calls is the one held with the host, up to answers that are alike. -/
theorem Conversation.Agree.run_byCalls {ρ σ τ : Type} {same : ρ → ρ → Prop} {near far : Conversation ρ}
    (agree : Agree same near far) (host : Host τ) (server : CallbackServer (Service τ))
    (seq : UInt64) (state : τ) (carried : Carried host seq near state) (next : ρ → Handling σ) :
    ∃ last result, same (near.hold host state).2 result ∧
      (far.byCalls next).run CallbackSite.world (host.siteAt server seq state) =
        (next result).run CallbackSite.world
          (host.siteAt server last (near.hold host state).1) := by
  induction agree generalizing seq state with
  | @done a b results => exact ⟨seq, b, results, rfl⟩
  | @askName near far later ih =>
    obtain ⟨fits, replyFits, rest⟩ := carried
    have alike := alike_afar .callback (host.name state).2
    obtain ⟨last, result, results, ran⟩ := ih _ _ alike (seq + 1) (host.name state).1 rest
    refine ⟨last, result, results, ?_⟩
    have called := host.call_name server fits replyFits
    have settled := Host.settle_name (Registry.methodName Sink.buildEndpoint "Name")
      (host.name state).2 seq (Frame.length_replyBody_lt replyFits)
    rw [byCalls, Handling.run, called]
    dsimp only
    rw [settled]
    exact ran
  | @tell near far sink text later ih =>
    obtain ⟨fits, replyFits, rest⟩ := carried
    have alike := alike_afar .callback (host.tell sink text state).2
    obtain ⟨last, result, results, ran⟩ := ih _ _ alike (seq + 1) (host.tell sink text state).1 rest
    refine ⟨last, result, results, ?_⟩
    have called := host.call_tell server sink text fits replyFits
    have settled := Message.settle_acknowledgement (Registry.methodName sink.endpoint sink.method)
      .callback (host.tell sink text state).2 seq (Frame.length_replyBody_lt replyFits)
    rw [byCalls, Handling.run, called]
    dsimp only
    rw [map_mapError, settled]
    exact ran

/-! ## The run -/

namespace Host

variable {τ : Type}

def callbackServer (host : Host τ) (address : SocketAddress) : CallbackServer (Service τ) :=
  ⟨none, some (address, host.services)⟩

theorem dial_callbackServer (host : Host τ) {address : SocketAddress} (state : τ)
    (dialled : SocketAddress.parse? address.text = some address) :
    CallbackSite.world.dial address.text ⟨state, host.callbackServer address, none⟩ =
      (host.siteAt (host.callbackServer address) 1 state, .ok ()) := by
  have accepted : (host.callbackServer address).accept? address = some host.services := by
    simp [callbackServer, CallbackServer.accept?]
  simp only [CallbackSite.world, dialled, Option.bind_some, accepted]
  rfl

end Host

/-- The plugin dials the host, holds the builder's conversation there and hangs up. -/
theorem Builder.run_handleRun {σ τ : Type} {builder : Builder σ} (hears : builder.HearsTexts)
    (host : Host τ) {address : SocketAddress} (state : σ) (outside : τ)
    (dialled : SocketAddress.parse? address.text = some address)
    (carried : Conversation.Carried host 1 (builder.run state) outside) :
    ∃ result, Alike ((builder.run state).hold host outside).2.2 result ∧
      (builder.handleRun address.text state).run CallbackSite.world
          ⟨outside, host.callbackServer address, none⟩ =
        (⟨((builder.run state).hold host outside).1, host.callbackServer address, none⟩,
          some (((builder.run state).hold host outside).2.1, runReply result)) := by
  obtain ⟨last, ⟨other, result⟩, ⟨states, results⟩, ran⟩ := (hears state).run_byCalls host
    (host.callbackServer address) 1 outside carried
    fun ended => Handling.hangUp (.reply ended.1 (runReply ended.2))
  refine ⟨result, results, ?_⟩
  rw [handleRun, Handling.run, host.dial_callbackServer outside dialled]
  dsimp only
  refine ran.trans ?_
  dsimp only at states
  rw [states]
  rfl

theorem Builder.runReply_alike {a b : Except Failure Unit} (alike : Alike a b) :
    runReply a = runReply b := by
  cases a with
  | ok => cases b with
    | ok => rfl
    | error => cases alike
  | error failure => cases b with
    | ok => cases alike
    | error other =>
      have texts : failure.message = other.message := Except.error.inj alike
      simp only [runReply, texts]

namespace RemoteEndpoint

variable {σ τ : Type}

/-- The services of the host are registered and the callback server listens at the bound address
before the plugin is called. -/
theorem runServed_bound (endpoint : RemoteEndpoint) (host : Host τ) (address : SocketAddress)
    (link : Link σ) (state : τ) :
    endpoint.runServed host (.ok address) (link, ⟨state, {}, none⟩) =
      endpoint.invoke CallbackSite.world "Run" (Message.text.write address.text) Message.nothing
        (fun _ => none) (link, ⟨state, host.callbackServer address, none⟩) :=
  rfl

/-- What the caller of a run learns of its result. -/
def ranAfar (name : String) (result : Except Failure Unit) : Except BridgeError Unit :=
  result.mapError fun failure =>
    .transport (Registry.methodName name "Run") (.serverError failure.message)

theorem settle_run (name : String) (result : Except Failure Unit) (seq : UInt64) :
    Message.settle (Registry.methodName name "Run") Message.nothing (fun _ => none)
      (.ok (Server.replyFrame seq (Builder.runReply result))) = ranAfar name result := by
  cases result with
  | ok => exact Message.settle_ok _ _ seq Compact.Form.roundTrips_nothing rfl
  | error failure => exact Message.settle_failed _ _ seq (.serverError failure.message) fun _ _ => rfl

/-- A run across the bridge is the run on the host, and the callback server is stopped. -/
theorem run_served {name : String} (near : Codec) {far : Codec} {builder : Builder σ}
    (hears : builder.HearsTexts) (host : Host τ) {server : Server σ}
    (served : Registry.find? server name = some (builder.service far)) {address : SocketAddress}
    (dialled : SocketAddress.parse? address.text = some address) {seq : UInt64} (state : σ)
    (outside : τ)
    (request : Frame.Fits RequestFrame.form
      ⟨seq, Registry.methodName name "Run", Message.text.write address.text⟩)
    (reply : Frame.Fits ResponseFrame.form (Server.replyFrame seq
      (Builder.runReply ((builder.run state).hold host outside).2.2)))
    (carried : Conversation.Carried host 1 (builder.run state) outside) :
    run ⟨name, near⟩ host (.ok address) (⟨.idle seq, server, state⟩, outside) =
      (some ((ranAfar name ((builder.run state).hold host outside).2.2).mapError .bridge),
        (⟨.idle (seq + 1), server, ((builder.run state).hold host outside).2.1⟩,
          ((builder.run state).hold host outside).1)) := by
  obtain ⟨result, alike, ran⟩ := Builder.run_handleRun hears host state outside dialled carried
  rw [← Builder.runReply_alike alike] at ran
  have sent := Message.roundTrips_text address.text (Frame.length_body_lt request)
  have handled : (builder.service far "Run" (Message.text.write address.text) state).run
      CallbackSite.world ⟨outside, host.callbackServer address, none⟩ =
      (⟨((builder.run state).hold host outside).1, host.callbackServer address, none⟩,
        some (((builder.run state).hold host outside).2.1,
          Builder.runReply ((builder.run state).hold host outside).2.2)) := by
    simp only [Builder.service, Message.read_write sent, ran]
  have invoked := invoke_idle ⟨name, near⟩ Message.nothing (fun _ => none) (by decide) served
    request handled reply
  rw [settle_run] at invoked
  simp only [run, runAtSite, runServed_bound, invoked, Option.map_some]

end RemoteEndpoint

/-! ## The records of both sides -/

namespace Conversation

open Rehearsal (HostCall)

variable {ρ π τ : Type}

theorem hold_transcribed (conversation : Conversation ρ) (heard : List Heard) (host : Host τ)
    (state : τ) : ∃ transcript, (conversation.transcribed heard).hold host state =
      ((conversation.hold host state).1, ((conversation.hold host state).2, transcript)) := by
  induction conversation generalizing heard state with
  | done result => exact ⟨heard, rfl⟩
  | askName rest ih => exact ih _ _ _
  | tell sink text rest ih => exact ih _ _ _

theorem hold_recording (conversation : Conversation ρ) (host : Host τ) (state : τ)
    (calls : List HostCall) : ∃ record, conversation.hold host.recording (state, calls) =
      (((conversation.hold host state).1, record), (conversation.hold host state).2) := by
  induction conversation generalizing state calls with
  | done result => exact ⟨calls, rfl⟩
  | askName rest ih => exact ih _ _ _
  | tell sink text rest ih => exact ih _ _ _

theorem Carried.transcribed {host : Host τ} {seq : UInt64} {conversation : Conversation ρ}
    {state : τ} (carried : Carried host seq conversation state) (heard : List Heard) :
    Carried host seq (conversation.transcribed heard) state := by
  induction conversation generalizing seq state heard with
  | done result => trivial
  | askName rest ih => exact ⟨carried.1, carried.2.1, ih _ carried.2.2 _⟩
  | tell sink text rest ih => exact ⟨carried.1, carried.2.1, ih _ carried.2.2 _⟩

theorem Carried.bind_done {host : Host τ} {seq : UInt64} {conversation : Conversation ρ}
    {state : τ} (carried : Carried host seq conversation state) (f : ρ → π) :
    Carried host seq (conversation.bind fun result => done (f result)) state := by
  induction conversation generalizing seq state with
  | done result => trivial
  | askName rest ih => exact ⟨carried.1, carried.2.1, ih _ carried.2.2⟩
  | tell sink text rest ih => exact ⟨carried.1, carried.2.1, ih _ carried.2.2⟩

theorem Carried.recording {host : Host τ} {seq : UInt64} {conversation : Conversation ρ}
    {state : τ} (carried : Carried host seq conversation state) (calls : List HostCall) :
    Carried host.recording seq conversation (state, calls) := by
  induction conversation generalizing seq state calls with
  | done result => trivial
  | askName rest ih => exact ⟨carried.1, carried.2.1, ih _ carried.2.2 _⟩
  | tell sink text rest ih => exact ⟨carried.1, carried.2.1, ih _ carried.2.2 _⟩

end Conversation

namespace Builder

open Rehearsal (HostCall)

variable {σ τ : Type}

/-- Keeping records changes nothing in a run on the host itself. -/
theorem hold_transcribing (builder : Builder σ) (host : Host τ) (state : σ) (outside : τ) :
    ∃ calls heard, (builder.transcribing.run (state, [])).hold host.recording (outside, []) =
      ((((builder.run state).hold host outside).1, calls),
        ((((builder.run state).hold host outside).2.1, heard),
          ((builder.run state).hold host outside).2.2)) := by
  obtain ⟨calls, recorded⟩ := (builder.run state).hold_recording host outside []
  obtain ⟨heard, transcribed⟩ :=
    (builder.run state).hold_transcribed [] host.recording (outside, [])
  refine ⟨calls, heard, ?_⟩
  rw [transcribing, Conversation.hold_bind]
  rw [transcribed, recorded]
  rfl

theorem carried_transcribing {builder : Builder σ} {host : Host τ} {state : σ} {outside : τ}
    {seq : UInt64} (carried : Conversation.Carried host seq (builder.run state) outside) :
    Conversation.Carried host.recording seq (builder.transcribing.run (state, []))
      (outside, []) := by
  rw [transcribing]
  exact ((carried.recording []).transcribed []).bind_done _

end Builder

namespace RemoteEndpoint

open Rehearsal (HostCall)

variable {σ τ : Type}

/-- A run of a builder across the bridge is the run on the host itself. If the frames are within the
limit and the bound address can be dialled, then the host takes exactly the calls that the builder
makes of it there, in order, the builder hears the same answers, those that failed by their texts,
and the run succeeds if the builder does and else fails with the text of its failure. Whatever comes
of a run, its callback server no longer listens. -/
theorem run_refines_builder (name : String) (near far : Codec) (builder : Builder σ)
    (host : Host τ) (server : Server (σ × List Heard)) :
    (∀ (bound : Except IoError SocketAddress)
      (before : Link (σ × List Heard) × CallbackSite (τ × List HostCall)),
      (runAtSite ⟨name, near⟩ host.recording bound before).2.2.server.listening = none) ∧
    ∀ (address : SocketAddress) (seq : UInt64) (state : σ) (outside : τ), builder.HearsTexts →
      Registry.find? server name = some (builder.transcribing.service far) →
      SocketAddress.parse? address.text = some address →
      Frame.Fits RequestFrame.form
        ⟨seq, Registry.methodName name "Run", Message.text.write address.text⟩ →
      Frame.Fits ResponseFrame.form (Server.replyFrame seq
        (Builder.runReply ((builder.run state).hold host outside).2.2)) →
      Conversation.Carried host 1 (builder.run state) outside →
      ∃ final calls result heard left link,
        (builder.run state).hold host outside = (final, (left, result)) ∧
        (builder.transcribing.run (state, [])).hold host.recording (outside, []) =
          ((final, calls), ((left, heard), result)) ∧
        run ⟨name, near⟩ host.recording (.ok address)
          (⟨.idle seq, server, (state, [])⟩, (outside, [])) =
          (some ((ranAfar name result).mapError .bridge), (link, (final, calls))) ∧
        link.state = (left, heard) := by
  constructor
  · intro bound before
    rfl
  · intro address seq state outside hears served dialled request reply carried
    obtain ⟨calls, heard, held⟩ := builder.hold_transcribing host state outside
    have replied := reply
    rw [show ((builder.run state).hold host outside).2.2 =
      ((builder.transcribing.run (state, [])).hold host.recording (outside, [])).2.2 by
        rw [held]] at replied
    have ran := run_served near hears.transcribing host.recording served dialled (state, [])
      (outside, []) request replied (Builder.carried_transcribing carried)
    rw [held] at ran
    exact ⟨_, calls, _, heard, _, _, rfl, held, ran, rfl⟩

section Example

open Rehearsal

def deafHost : Host (List HostCall) :=
  recordingHost "demo" fun
    | some .progress => some (.context "sink gone" (.text "pipe"))
    | _ => none

def plan : EchoBuilder.Plan :=
  ⟨"arm", ["link"]⟩

def echoServer : Server (EchoBuilder.Plan × List Heard) :=
  [("Builder", echoBuilder.transcribing.service (.ofMode .legacy))]

/-- The builder asks, says, and fails with the sink; the caller of the run learns its text. -/
theorem run_refines_echo :
    ∃ own link, run ⟨"Builder", .ofMode .legacy⟩ deafHost.recording (.ok .loopback)
        (⟨.idle 1, echoServer, (plan, [])⟩, ([], [])) =
        (some (.error (.bridge (.transport "Builder.Run" (.serverError "sink gone")))),
          (link, (own, [.askName, .tell .say "building demo for arm", .tell .progress "link"]))) ∧
      link.state = (plan, [.name (.ok "demo"), .told (.ok ()), .told (.error "sink gone")]) := by
  obtain ⟨-, runs⟩ := run_refines_builder "Builder" (.ofMode .legacy) (.ofMode .legacy)
    echoBuilder deafHost echoServer
  obtain ⟨final, calls, result, heard, left, link, held, transcript, ran, kept⟩ := runs .loopback 1
    plan [] echoBuilder_hearsTexts rfl (by decide) (by decide) (by decide)
    ⟨by decide, by decide, by decide, by decide, by decide, by decide, trivial⟩
  have evaluated : (echoBuilder.transcribing.run (plan, [])).hold deafHost.recording ([], []) =
      (([.askName, .tell .say "building demo for arm", .tell .progress "link"],
        [.askName, .tell .say "building demo for arm", .tell .progress "link"]),
        ((plan, [.name (.ok "demo"), .told (.ok ()), .told (.error "sink gone")]),
          .error (.context "sink gone" (.text "pipe")))) := rfl
  rw [evaluated] at transcript
  cases transcript
  exact ⟨_, link, ran, kept⟩

end Example

end RemoteEndpoint

end PluginBridge
