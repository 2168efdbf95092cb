import PluginBridge.CallbackServer.Sessions
import PluginBridge.Proofs.Exchange
import PluginBridge.Proofs.Sequences

/-! The life of a callback server. What it does at any time follows from the steps before: whether
it has started, whether it has stopped since, and what was registered before the start. -/

namespace PluginBridge

namespace CallbackSessions

variable {σ τ : Type}

/-! ## What the steps before say -/

/-- The services that were registered before the first start, in this order. -/
def offered : List (Step σ) → List (String × Service σ)
  | [] => []
  | .register endpoint service :: rest => (endpoint, service) :: offered rest
  | .start _ :: _ => []
  | .stop :: rest | .connect _ :: rest | .call .. :: rest => offered rest

def Started (steps : List (Step σ)) : Prop :=
  ∃ address, .start address ∈ steps

/-- The server was first started at the address, and was not stopped since. -/
def Serving (steps : List (Step σ)) (address : SocketAddress) : Prop :=
  ∃ before after, steps = before ++ .start address :: after ∧ ¬ Started before ∧ .stop ∉ after

theorem started_concat {steps : List (Step σ)} {next : Step σ} :
    Started (steps ++ [next]) ↔ Started steps ∨ ∃ address, next = .start address := by
  simp only [Started, List.mem_append, List.mem_singleton, exists_or, eq_comm]

theorem Started.append {steps : List (Step σ)} (started : Started steps)
    (later : List (Step σ)) : Started (steps ++ later) := by
  obtain ⟨address, inside⟩ := started
  exact ⟨address, List.mem_append_left _ inside⟩

theorem Serving.started {steps : List (Step σ)} {address : SocketAddress}
    (serving : Serving steps address) : Started steps := by
  obtain ⟨before, after, rfl, _⟩ := serving
  exact ⟨address, List.mem_append_right _ (List.mem_cons_self ..)⟩

theorem serving_concat {steps : List (Step σ)} {next : Step σ} {address : SocketAddress} :
    Serving (steps ++ [next]) address ↔
      (Serving steps address ∧ next ≠ .stop) ∨ (¬ Started steps ∧ next = .start address) := by
  constructor
  · rintro ⟨before, after, same, fresh, quiet⟩
    rcases eq_append_cons_of_concat same with ⟨rfl, rfl, rfl⟩ | ⟨between, rfl, rfl⟩
    · exact .inr ⟨fresh, rfl⟩
    · rw [List.mem_append, not_or, List.mem_singleton] at quiet
      exact .inl ⟨⟨before, between, rfl, fresh, quiet.1⟩, Ne.symm quiet.2⟩
  · rintro (⟨⟨before, after, rfl, fresh, quiet⟩, other⟩ | ⟨fresh, rfl⟩)
    · refine ⟨before, after ++ [next], by simp, fresh, ?_⟩
      rw [List.mem_append, List.mem_singleton, not_or]
      exact ⟨quiet, Ne.symm other⟩
    · exact ⟨steps, [], rfl, fresh, List.not_mem_nil⟩

theorem offered_append {steps : List (Step σ)} (fresh : ¬ Started steps) (later : List (Step σ)) :
    offered (steps ++ later) = offered steps ++ offered later := by
  induction steps with
  | nil => rfl
  | cons first rest ih =>
    have behind := ih fun ⟨address, inside⟩ => fresh ⟨address, List.mem_cons_of_mem _ inside⟩
    cases first with
    | start address => exact absurd ⟨address, List.mem_cons_self ..⟩ fresh
    | register endpoint service => simp only [List.cons_append, offered, behind]
    | _ => simp only [List.cons_append, offered, behind]

theorem offered_append_of_started {steps : List (Step σ)} (started : Started steps)
    (later : List (Step σ)) : offered (steps ++ later) = offered steps := by
  induction steps with
  | nil =>
    obtain ⟨_, inside⟩ := started
    cases inside
  | cons first rest ih =>
    cases first with
    | start address => rfl
    | _ =>
      have behind : Started rest := by
        obtain ⟨address, inside⟩ := started
        rcases List.mem_cons.mp inside with same | inside
        · cases same
        · exact ⟨address, inside⟩
      simp only [List.cons_append, offered, ih behind]

theorem mem_offered {steps : List (Step σ)} (fresh : ¬ Started steps) {endpoint : String}
    {service : Service σ} :
    (endpoint, service) ∈ offered steps ↔ .register endpoint service ∈ steps := by
  induction steps with
  | nil => simp [offered]
  | cons first rest ih =>
    have behind := ih fun ⟨address, inside⟩ => fresh ⟨address, List.mem_cons_of_mem _ inside⟩
    cases first with
    | start address => exact absurd ⟨address, List.mem_cons_self ..⟩ fresh
    | _ => simp [offered, behind]

/-! ## What one step does -/

/-- Not started: the server holds the services that were offered, and nobody has connected. -/
structure Fresh (services : Server σ) (sessions : CallbackSessions σ τ) : Prop where
  registry : sessions.server.registry = some services
  listening : sessions.server.listening = none
  connections : sessions.connections = []

/-- Started: the server listens at the address, and all connections to its services are open. -/
structure Open (address : SocketAddress) (services : Server σ) (sessions : CallbackSessions σ τ) :
    Prop where
  registry : sessions.server.registry = none
  listening : sessions.server.listening = some (address, services)
  connections : ∀ connection ∈ sessions.connections,
    connection.1.closed = false ∧ connection.2 = services

/-- Stopped: the server does not listen, and all connections have ended. -/
structure Shut (sessions : CallbackSessions σ τ) : Prop where
  registry : sessions.server.registry = none
  listening : sessions.server.listening = none
  connections : ∀ connection ∈ sessions.connections,
    connection.1.closed = true ∧ connection.1.waiting = []

variable {world : World τ} {sessions : CallbackSessions σ τ} {services : Server σ}
  {address : SocketAddress}

theorem Fresh.register (fresh : Fresh services sessions) (endpoint : String)
    (service : Service σ) :
    sessions.register endpoint service =
      match Registry.register services endpoint service with
      | .ok more => ({ sessions with server := { sessions.server with registry := some more } }, .ok ())
      | .error error => (sessions, .error error) := by
  rw [CallbackSessions.register, CallbackServer.register, fresh.registry]
  dsimp only
  cases Registry.register services endpoint service <;> rfl

theorem Fresh.start (fresh : Fresh services sessions) (address : SocketAddress) :
    sessions.start (.ok address) =
      ({ sessions with server := ⟨none, some (address, services)⟩ }, .ok address) := by
  rw [CallbackSessions.start, CallbackServer.start, fresh.registry]

theorem register_of_taken (taken : sessions.server.registry = none) (endpoint : String)
    (service : Service σ) :
    sessions.register endpoint service = (sessions, .error .serverStarted) := by
  rw [CallbackSessions.register, CallbackServer.register, taken]

theorem start_of_taken (taken : sessions.server.registry = none)
    (bound : Except IoError SocketAddress) :
    sessions.start bound = (sessions, .error .serverStarted) := by
  rw [CallbackSessions.start, CallbackServer.start, taken]

theorem stop_of_silent (silent : sessions.server.listening = none) : sessions.stop = sessions := by
  rw [CallbackSessions.stop, silent]

theorem connect_of_silent (silent : sessions.server.listening = none) (address : SocketAddress) :
    sessions.connect address = (sessions, .error (.dial address.text .refused)) := by
  rw [connect, CallbackServer.accept?, silent]

theorem connect_of_listening (listening : sessions.server.listening = some (address, services))
    (sought : SocketAddress) :
    sessions.connect sought =
      if address = sought then
        ({ sessions with connections := sessions.connections ++ [({}, services)] },
          .ok sessions.connections.length)
      else (sessions, .error (.dial sought.text .refused)) := by
  rw [connect, CallbackServer.accept?, listening]
  dsimp only
  split_ifs <;> rfl

theorem call_of_absent {place : Nat} (absent : sessions.connections[place]? = none)
    (method : String) (body : Bytes) :
    sessions.call world place method body = (sessions, some (.error .connectionClosed)) := by
  rw [call, absent]

theorem call_of_closed {place : Nat} {client : Client}
    (found : sessions.connections[place]? = some (client, services)) (closed : client.closed = true)
    (method : String) (body : Bytes) :
    sessions.call world place method body =
      ({ sessions with connections := sessions.connections.set place (client.draw.1, services) },
        some (.error .connectionClosed)) := by
  rw [call, found]
  dsimp only
  rw [Link.call_closed world method body closed]

theorem call_of_open (world : World τ) {place : Nat} {client : Client}
    (found : sessions.connections[place]? = some (client, services))
    (isOpen : client.closed = false) (method : String) (body : Bytes) :
    let exchanged := (services.handle method body sessions.state).exchange world
      ⟨client.nextSeq, method, body⟩ sessions.state sessions.outside
    ∃ last : Client, last.closed = false ∧
      sessions.call world place method body =
        ({ sessions with
            connections := sessions.connections.set place (last, services)
            state := exchanged.1
            outside := exchanged.2.1 }, exchanged.2.2) := by
  intro exchanged
  obtain ⟨last, still, called⟩ :=
    Link.call_open world method body isOpen services sessions.state sessions.outside
  refine ⟨last, still, ?_⟩
  rw [call, found]
  dsimp only
  rw [called]

theorem Fresh.keeps {steps : List (Step σ)} (unstarted : ¬ Started steps)
    (fresh : Fresh (Registry.collect (offered steps)) sessions) {next : Step σ}
    (other : ∀ address, next ≠ .start address) :
    Fresh (Registry.collect (offered (steps ++ [next]))) (step world sessions next) := by
  rw [offered_append unstarted]
  cases next with
  | register endpoint service =>
    have registered := fresh.register endpoint service
    simp only [CallbackSessions.step, offered, Registry.collect_concat, registered]
    cases Registry.register (Registry.collect (offered steps)) endpoint service with
    | ok more => exact ⟨rfl, fresh.listening, fresh.connections⟩
    | error => exact fresh
  | start address => exact absurd rfl (other address)
  | stop =>
    simp only [CallbackSessions.step, offered, List.append_nil, stop_of_silent fresh.listening]
    exact fresh
  | connect address =>
    simp only [CallbackSessions.step, offered, List.append_nil, connect_of_silent fresh.listening]
    exact fresh
  | call place method body =>
    have absent : sessions.connections[place]? = none := by
      rw [fresh.connections]
      rfl
    simp only [CallbackSessions.step, offered, List.append_nil, call_of_absent absent]
    exact fresh

theorem Fresh.starts (fresh : Fresh services sessions) (address : SocketAddress) :
    Open address services (step world sessions (.start address)) := by
  rw [CallbackSessions.step, fresh.start]
  refine ⟨rfl, rfl, ?_⟩
  rw [fresh.connections]
  exact List.forall_mem_nil _

theorem Open.keeps (isOpen : Open address services sessions) {next : Step σ} (other : next ≠ .stop) :
    Open address services (step world sessions next) := by
  cases next with
  | register endpoint service =>
    rw [CallbackSessions.step, register_of_taken isOpen.registry]
    exact isOpen
  | start again =>
    rw [CallbackSessions.step, start_of_taken isOpen.registry]
    exact isOpen
  | stop => exact absurd rfl other
  | connect sought =>
    rw [CallbackSessions.step, connect_of_listening isOpen.listening]
    split_ifs
    · refine ⟨isOpen.registry, isOpen.listening, List.forall_mem_append.mpr
        ⟨isOpen.connections, List.forall_mem_singleton.mpr ⟨rfl, rfl⟩⟩⟩
    · exact isOpen
  | call place method body =>
    rw [CallbackSessions.step]
    cases found : sessions.connections[place]? with
    | none =>
      rw [call_of_absent found]
      exact isOpen
    | some connection =>
      obtain ⟨client, _⟩ := connection
      obtain ⟨still, rfl⟩ := isOpen.connections _ (List.mem_of_getElem? found)
      obtain ⟨last, after, called⟩ := call_of_open world found still method body
      rw [called]
      refine ⟨isOpen.registry, isOpen.listening, ?_⟩
      intro connection inside
      rcases List.mem_or_eq_of_mem_set inside with before | rfl
      · exact isOpen.connections connection before
      · exact ⟨after, rfl⟩

theorem Open.stops (isOpen : Open address services sessions) :
    Shut (step world sessions .stop) := by
  rw [CallbackSessions.step, CallbackSessions.stop, isOpen.listening]
  refine ⟨isOpen.registry, rfl, ?_⟩
  exact List.forall_mem_map.mpr fun _ _ => ⟨rfl, rfl⟩

theorem Shut.keeps (shut : Shut sessions) (next : Step σ) : Shut (step world sessions next) := by
  cases next with
  | register endpoint service =>
    rw [CallbackSessions.step, register_of_taken shut.registry]
    exact shut
  | start again =>
    rw [CallbackSessions.step, start_of_taken shut.registry]
    exact shut
  | stop =>
    rw [CallbackSessions.step, stop_of_silent shut.listening]
    exact shut
  | connect sought =>
    rw [CallbackSessions.step, connect_of_silent shut.listening]
    exact shut
  | call place method body =>
    rw [CallbackSessions.step]
    cases found : sessions.connections[place]? with
    | none =>
      rw [call_of_absent found]
      exact shut
    | some connection =>
      obtain ⟨client, services⟩ := connection
      obtain ⟨closed, idle⟩ := shut.connections _ (List.mem_of_getElem? found)
      rw [call_of_closed found closed]
      refine ⟨shut.registry, shut.listening, ?_⟩
      intro connection inside
      rcases List.mem_or_eq_of_mem_set inside with before | rfl
      · exact shut.connections connection before
      · exact ⟨closed, idle⟩

/-! ## What a whole run does -/

/-- The steps tell in which of the three states the server is. -/
structure Sound (steps : List (Step σ)) (sessions : CallbackSessions σ τ) : Prop where
  fresh : ¬ Started steps → Fresh (Registry.collect (offered steps)) sessions
  serving : ∀ address, Serving steps address →
    Open address (Registry.collect (offered steps)) sessions
  stopped : Started steps → (∀ address, ¬ Serving steps address) → Shut sessions

theorem Sound.concat {steps : List (Step σ)} (sound : Sound steps sessions) (next : Step σ) :
    Sound (steps ++ [next]) (step world sessions next) where
  fresh unstarted := by
    rw [started_concat, not_or, not_exists] at unstarted
    exact (sound.fresh unstarted.1).keeps unstarted.1 unstarted.2
  serving address serving := by
    rcases serving_concat.mp serving with ⟨before, other⟩ | ⟨unstarted, rfl⟩
    · rw [offered_append_of_started before.started]
      exact (sound.serving address before).keeps other
    · rw [offered_append unstarted, offered, List.append_nil]
      exact (sound.fresh unstarted).starts address
  stopped started silent := by
    simp only [serving_concat, not_or, not_and, not_not] at silent
    by_cases before : Started steps
    · by_cases serving : ∃ address, Serving steps address
      · obtain ⟨address, serving⟩ := serving
        obtain rfl := (silent address).1 serving
        exact (sound.serving address serving).stops
      · exact (sound.stopped before (not_exists.mp serving)).keeps next
    · obtain ⟨address, starts⟩ := (started_concat.mp started).resolve_left before
      exact absurd starts ((silent address).2 before)

theorem sound_run (world : World τ) (state : σ) (outside : τ) (steps : List (Step σ)) :
    Sound steps (run world state outside steps) := by
  induction steps using List.reverseRecOn with
  | nil =>
    refine ⟨fun _ => ⟨rfl, rfl, rfl⟩, ?_, ?_⟩
    · intro address serving
      obtain ⟨_, inside⟩ := serving.started
      cases inside
    · rintro ⟨_, inside⟩
      cases inside
  | append_singleton steps next ih =>
    rw [run, List.foldl_append]
    exact ih.concat next

/-! ## Connections -/

/-- Some step has connected a client, and its connection has this place. -/
def Connected (world : World τ) (state : σ) (outside : τ) (steps : List (Step σ)) (place : Nat) :
    Prop :=
  ∃ before after address, steps = before ++ .connect address :: after ∧
    ((run world state outside before).connect address).2 = .ok place

theorem length_le_step (world : World τ) (sessions : CallbackSessions σ τ) (next : Step σ) :
    sessions.connections.length ≤ (step world sessions next).connections.length := by
  cases next with
  | register => exact Nat.le_refl _
  | start => exact Nat.le_refl _
  | stop =>
    simp only [step, stop]
    split
    · exact Nat.le_refl _
    · exact Nat.le_of_eq (List.length_map _).symm
  | connect address =>
    simp only [step, connect]
    split
    · exact Nat.le_refl _
    · rw [List.length_append]
      exact Nat.le_add_right _ _
  | call place method body =>
    simp only [step, call]
    split
    · exact Nat.le_refl _
    · exact Nat.le_of_eq List.length_set.symm

theorem length_le_foldl (world : World τ) (sessions : CallbackSessions σ τ)
    (steps : List (Step σ)) :
    sessions.connections.length ≤ (steps.foldl (step world) sessions).connections.length := by
  induction steps generalizing sessions with
  | nil => exact Nat.le_refl _
  | cons next rest ih => exact Nat.le_trans (length_le_step world sessions next) (ih _)

theorem Connected.lt {state : σ} {outside : τ} {steps : List (Step σ)} {place : Nat}
    (connected : Connected world state outside steps place) :
    place < (run world state outside steps).connections.length := by
  obtain ⟨before, after, address, rfl, made⟩ := connected
  have grown : place < (step world (run world state outside before)
      (.connect address)).connections.length := by
    simp only [step, connect] at made ⊢
    split at made
    · cases made
    · obtain rfl := Except.ok.inj made
      simp only [List.length_append, List.length_singleton]
      exact Nat.lt_succ_self _
  rw [run, List.foldl_append]
  exact Nat.lt_of_lt_of_le grown (length_le_foldl world _ after)

theorem Connected.lt_append {state : σ} {outside : τ} {steps : List (Step σ)} {place : Nat}
    (connected : Connected world state outside steps place) (later : List (Step σ)) :
    place < (run world state outside (steps ++ later)).connections.length := by
  rw [run, List.foldl_append]
  exact Nat.lt_of_lt_of_le connected.lt (length_le_foldl world _ later)

/-- Nobody connects before the start. -/
theorem Connected.started {state : σ} {outside : τ} {steps : List (Step σ)} {place : Nat}
    (connected : Connected world state outside steps place) : Started steps := by
  by_contra unstarted
  have nobody := ((sound_run world state outside steps).fresh unstarted).connections
  have within := connected.lt
  rw [nobody] at within
  exact Nat.not_lt_zero place within

/-! ## The server at any time -/

theorem isSome_lookup_offered {steps : List (Step σ)} (unstarted : ¬ Started steps)
    (endpoint : String) :
    ((offered steps).lookup endpoint).isSome ↔ ∃ service, .register endpoint service ∈ steps := by
  rw [List.lookup_isSome_iff]
  constructor
  · rintro ⟨⟨name, service⟩, inside, same⟩
    obtain rfl := eq_of_beq same
    exact ⟨service, (mem_offered unstarted).mp inside⟩
  · rintro ⟨service, inside⟩
    exact ⟨(endpoint, service), (mem_offered unstarted).mpr inside, beq_self_eq_true endpoint⟩

/-- A server that has started and stopped does not serve again. -/
theorem not_serving_of_stop {before : List (Step σ)} (started : Started before)
    (after : List (Step σ)) (address : SocketAddress) :
    ¬ Serving (before ++ .stop :: after) address := by
  induction after using List.reverseRecOn with
  | nil =>
    rw [serving_concat]
    rintro (⟨_, other⟩ | ⟨unstarted, _⟩)
    · exact other rfl
    · exact unstarted started
  | append_singleton after next ih =>
    rw [← List.cons_append, ← List.append_assoc, serving_concat]
    rintro (⟨serving, _⟩ | ⟨unstarted, _⟩)
    · exact ih serving
    · exact unstarted (started.append _)

/-- How a call is handled if these services are offered: by the first one with the endpoint name. -/
def answer (services : List (String × Service σ)) (endpoint method : String) (body : Bytes)
    (state : σ) : Handling σ :=
  match services.lookup endpoint with
  | some service => service method body state
  | none => .reply state (.error (.unknownService endpoint))

theorem handle_collect (services : List (String × Service σ)) {endpoint method : String}
    (plain : '.' ∉ method.toList) (body : Bytes) (state : σ) :
    Server.handle (Registry.collect services) (Registry.methodName endpoint method) body state =
      answer services endpoint method body state := by
  rw [Server.handle, Registry.route_eq _ _ plain, Registry.find?_collect, answer]
  cases services.lookup endpoint <;> rfl

/-- What the server does after the steps: it takes services under new names until it is started,
starts once, is reached at its address from then on until it is stopped, and lets every call through
to the service that its name was registered for first. What was connected before a stop is cut off,
and a stop of a server that does not listen does nothing. -/
structure Lifecycle (world : World τ) (state : σ) (outside : τ) (steps : List (Step σ)) :
    Prop where
  registers : ¬ Started steps → ∀ endpoint service, (∀ other, .register endpoint other ∉ steps) →
    ((run world state outside steps).register endpoint service).2 = .ok ()
  refuses : ¬ Started steps → ∀ endpoint service other, .register endpoint other ∈ steps →
    ((run world state outside steps).register endpoint service).2 =
      .error (.duplicateService endpoint)
  starts : ¬ Started steps → ∀ address,
    ((run world state outside steps).start (.ok address)).2 = .ok address
  started : Started steps →
    (∀ endpoint service,
      ((run world state outside steps).register endpoint service).2 = .error .serverStarted) ∧
    ∀ bound, ((run world state outside steps).start bound).2 = .error .serverStarted
  connects : ∀ address,
    (∃ place, ((run world state outside steps).connect address).2 = .ok place) ↔
      Serving steps address
  offers : ∀ before after address, steps = before ++ .start address :: after → ¬ Started before →
    ∀ endpoint service, .register endpoint service ∈ before →
      ((offered steps).lookup endpoint).isSome
  reaches : ∀ address place, Serving steps address →
    Connected world state outside steps place →
      ∀ endpoint method body, '.' ∉ method.toList →
        let sessions := run world state outside steps
        let name := Registry.methodName endpoint method
        let called := sessions.call world place name body
        ∃ client services, sessions.connections[place]? = some (client, services) ∧
          let exchanged := (answer (offered steps) endpoint method body sessions.state).exchange
            world ⟨client.nextSeq, name, body⟩ sessions.state sessions.outside
          called.2 = exchanged.2.2 ∧ called.1.state = exchanged.1 ∧
            called.1.outside = exchanged.2.1
  /-- A call on a connection from before a stop fails, and no earlier one waits for its reply. -/
  cutsOff : ∀ before after place, steps = before ++ .stop :: after →
    Connected world state outside before place →
      let sessions := run world state outside steps
      (∀ method body,
        let called := sessions.call world place method body
        called.2 = some (.error .connectionClosed) ∧ called.1.state = sessions.state ∧
          called.1.outside = sessions.outside) ∧
      ∀ client services, sessions.connections[place]? = some (client, services) →
        client.waiting = []
  staysSilent : (∀ address, ¬ Serving steps address) →
    (run world state outside steps).stop = run world state outside steps

theorem Sound.taken {steps : List (Step σ)} (sound : Sound steps sessions)
    (started : Started steps) : sessions.server.registry = none := by
  by_cases serving : ∃ address, Serving steps address
  · obtain ⟨address, serving⟩ := serving
    exact (sound.serving address serving).registry
  · exact (sound.stopped started (not_exists.mp serving)).registry

theorem Sound.silent {steps : List (Step σ)} (sound : Sound steps sessions)
    (silent : ∀ address, ¬ Serving steps address) : sessions.server.listening = none := by
  by_cases started : Started steps
  · exact (sound.stopped started silent).listening
  · exact (sound.fresh started).listening

theorem Sound.connects {steps : List (Step σ)} (sound : Sound steps sessions)
    (sought : SocketAddress) :
    (∃ place, (sessions.connect sought).2 = .ok place) ↔ Serving steps sought := by
  by_cases serving : Serving steps sought
  · rw [connect_of_listening (sound.serving sought serving).listening, if_pos rfl]
    exact ⟨fun _ => serving, fun _ => ⟨_, rfl⟩⟩
  · have refused : (sessions.connect sought).2 = .error (.dial sought.text .refused) := by
      by_cases elsewhere : ∃ address, Serving steps address
      · obtain ⟨address, there⟩ := elsewhere
        have other : address ≠ sought := fun same => serving (same ▸ there)
        rw [connect_of_listening (sound.serving address there).listening, if_neg other]
      · rw [connect_of_silent (sound.silent (not_exists.mp elsewhere))]
    rw [refused]
    exact ⟨fun ⟨_, made⟩ => (by cases made), fun there => absurd there serving⟩

theorem Sound.registers {steps : List (Step σ)} (sound : Sound steps sessions)
    (unstarted : ¬ Started steps) (endpoint : String) (service : Service σ) :
    (sessions.register endpoint service).2 =
      if ((offered steps).lookup endpoint).isSome then .error (.duplicateService endpoint)
      else .ok () := by
  rw [(sound.fresh unstarted).register, Registry.register, Registry.find?_collect]
  split_ifs <;> rfl

theorem Sound.reaches {steps : List (Step σ)} (sound : Sound steps sessions)
    (serving : Serving steps address) {place : Nat} (within : place < sessions.connections.length)
    {endpoint method : String} (plain : '.' ∉ method.toList) (body : Bytes) :
    let name := Registry.methodName endpoint method
    let called := sessions.call world place name body
    ∃ client services, sessions.connections[place]? = some (client, services) ∧
      let exchanged := (answer (offered steps) endpoint method body sessions.state).exchange
        world ⟨client.nextSeq, name, body⟩ sessions.state sessions.outside
      called.2 = exchanged.2.2 ∧ called.1.state = exchanged.1 ∧
        called.1.outside = exchanged.2.1 := by
  intro name called
  obtain ⟨⟨client, _⟩, found⟩ : ∃ connection, sessions.connections[place]? = some connection :=
    ⟨_, List.getElem?_eq_getElem within⟩
  obtain ⟨isOpen, rfl⟩ :=
    (sound.serving address serving).connections _ (List.mem_of_getElem? found)
  obtain ⟨_, _, reached⟩ := call_of_open world found isOpen name body
  rw [handle_collect _ plain] at reached
  refine ⟨client, _, found, ?_⟩
  rw [show called = _ from reached]
  exact ⟨rfl, rfl, rfl⟩

theorem Sound.cutsOff {steps : List (Step σ)} (sound : Sound steps sessions)
    (started : Started steps) (silent : ∀ address, ¬ Serving steps address) {place : Nat}
    (within : place < sessions.connections.length) :
    (∀ method body,
      let called := sessions.call world place method body
      called.2 = some (.error .connectionClosed) ∧ called.1.state = sessions.state ∧
        called.1.outside = sessions.outside) ∧
    ∀ client services, sessions.connections[place]? = some (client, services) →
      client.waiting = [] := by
  have shut := sound.stopped started silent
  obtain ⟨⟨client, services⟩, found⟩ : ∃ connection, sessions.connections[place]? = some connection :=
    ⟨_, List.getElem?_eq_getElem within⟩
  obtain ⟨closed, idle⟩ := shut.connections _ (List.mem_of_getElem? found)
  constructor
  · intro method body
    rw [call_of_closed found closed]
    exact ⟨rfl, rfl, rfl⟩
  · intro other _ same
    rw [found] at same
    cases same
    exact idle

theorem lifecycle_run (world : World τ) (state : σ) (outside : τ) (steps : List (Step σ)) :
    Lifecycle world state outside steps := by
  have sound := sound_run world state outside steps
  refine ⟨?_, ?_, ?_, ?_, sound.connects, ?_, ?_, ?_, ?_⟩
  · intro unstarted endpoint service absent
    rw [sound.registers unstarted, if_neg]
    rw [isSome_lookup_offered unstarted]
    exact not_exists.mpr absent
  · intro unstarted endpoint service other inside
    rw [sound.registers unstarted, if_pos]
    exact (isSome_lookup_offered unstarted endpoint).mpr ⟨other, inside⟩
  · intro unstarted address
    rw [(sound.fresh unstarted).start]
  · intro started
    have taken := sound.taken started
    exact ⟨fun endpoint service => by rw [register_of_taken taken],
      fun bound => by rw [start_of_taken taken]⟩
  · rintro before after address rfl unstarted endpoint service inside
    rw [offered_append unstarted, offered, List.append_nil]
    exact (isSome_lookup_offered unstarted endpoint).mpr ⟨service, inside⟩
  · intro address place serving connected endpoint method body plain
    exact sound.reaches serving connected.lt plain body
  · rintro before after place rfl connected
    have early := connected.started
    exact sound.cutsOff (early.append _) (not_serving_of_stop early after) (connected.lt_append _)
  · intro silent
    exact stop_of_silent (sound.silent silent)

section Example

def counting : Service Nat :=
  .ofAnswer fun _ body state => (state + 1, .ok body)

def failing : Service Nat :=
  .ofAnswer fun _ _ state => (state, .error (.serverError "failed"))

def opening : List (Step Nat) :=
  [.register "Count" counting, .register "Count" failing, .start .loopback, .connect .loopback]

def closing : List (Step Nat) :=
  [.call 0 "Count.Any" [7], .stop, .start .loopback, .register "Late" failing, .stop]

theorem lifecycle_run_counting :
    Serving opening .loopback ∧ Connected World.unreachable 0 () opening 0 ∧
    ((run World.unreachable 0 () opening).call World.unreachable 0
      (Registry.methodName "Count" "Any") [7]).2 = some (.ok ⟨1, [7], none⟩) ∧
    ((run World.unreachable 0 () opening).call World.unreachable 0
      (Registry.methodName "Count" "Any") [7]).1.state = 1 ∧
    ((run World.unreachable 0 () (opening ++ closing)).call World.unreachable 0
      (Registry.methodName "Count" "Any") [7]).2 = some (.error .connectionClosed) ∧
    ((run World.unreachable 0 () (opening ++ closing)).register "Late" failing).2 =
      .error .serverStarted ∧
    (¬ ∃ place, ((run World.unreachable 0 () (opening ++ closing)).connect .loopback).2 =
      .ok place) ∧
    (run World.unreachable 0 () (opening ++ closing)).stop =
      run World.unreachable 0 () (opening ++ closing) := by
  have early := lifecycle_run World.unreachable 0 () opening
  have late := lifecycle_run World.unreachable 0 () (opening ++ closing)
  have serving : Serving opening .loopback :=
    ⟨opening.take 2, opening.drop 3, rfl, by simp [Started, opening], by simp [opening]⟩
  have connected : Connected World.unreachable 0 () opening 0 :=
    ⟨opening.take 3, [], .loopback, rfl, rfl⟩
  have silent : ∀ address, ¬ Serving (opening ++ closing) address :=
    not_serving_of_stop (serving.started.append [.call 0 "Count.Any" [7]]) _
  obtain ⟨client, services, found, replies, counts, _⟩ :=
    early.reaches .loopback 0 serving connected "Count" "Any" [7] (by decide)
  obtain ⟨rfl, rfl⟩ : ({}, _) = (client, services) := Option.some.inj found
  have counted : (answer (offered opening) "Count" "Any" [7] 0).exchange World.unreachable
      ⟨1, Registry.methodName "Count" "Any", [7]⟩ 0 () = (1, (), some (.ok ⟨1, [7], none⟩)) := by
    rfl
  have stillConnected : Connected World.unreachable 0 () (opening ++ closing.take 1) 0 :=
    ⟨opening.take 3, closing.take 1, .loopback, rfl, rfl⟩
  have cut := (late.cutsOff (opening ++ closing.take 1) (closing.drop 2) 0 rfl stillConnected).1
  refine ⟨serving, connected, replies.trans (congrArg (·.2.2) counted),
    counts.trans (congrArg (·.1) counted), (cut _ [7]).1,
    (late.started (serving.started.append _)).1 _ _, ?_, late.staysSilent silent⟩
  rw [late.connects]
  exact silent .loopback

end Example

end CallbackSessions

end PluginBridge
