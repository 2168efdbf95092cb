import PluginBridge.Implementation
import PluginBridge.Proofs.Routing
import PluginBridge.Proofs.Sequences

/-! A checked configuration can be served. Its addresses can be read and no two of its endpoints
share a name, so that a server takes all of them, and a call that names one of them reaches the
implementation that was made for it. Endpoints that share a name are never served. -/

namespace PluginBridge

/-! ## Checked configurations -/

theorem ConfigError.ifNone_bind_eq_ok_iff {α β : Type} {error : ConfigError} {found : Option α}
    {next : α → Except ConfigError β} {b : β} :
    (ifNone error found >>= next) = .ok b ↔ ∃ a, found = some a ∧ next a = .ok b := by
  rw [bind_eq_ok]
  cases found <;> simp [ifNone]

open ConfigError (ifNone_bind_eq_ok_iff)

theorem ServerSection.mode_of_resolve {server : ServerSection} {role : ServerRole}
    (resolved : server.resolve = .ok role) : role.mode = server.mode := by
  obtain ⟨listen, -, made⟩ := ifNone_bind_eq_ok_iff.mp resolved
  obtain rfl := Except.ok.inj made
  rfl

theorem HostSection.mode_of_resolve {host : HostSection} {role : HostRole}
    (resolved : host.resolve = .ok role) : role.mode = host.mode := by
  obtain ⟨connect, -, bound⟩ := ifNone_bind_eq_ok_iff.mp resolved
  obtain ⟨callbackBind, -, made⟩ := ifNone_bind_eq_ok_iff.mp bound
  obtain rfl := Except.ok.inj made
  rfl

namespace Config

theorem validateSections_eq_ok_iff {server : Option ServerSection} {host : Option HostSection} :
    validateSections server host = .ok () ↔ (server.isSome ∨ host.isSome) ∧
      (∀ near ∈ server, ∃ role, near.resolve = .ok role) ∧
      (∀ far ∈ host, ∃ role, far.resolve = .ok role) ∧
      ∀ near ∈ server, ∀ far ∈ host, near.mode = far.mode := by
  have resolves {α : Type} {result : Except ConfigError α} :
      (do let _ ← result) = .ok () ↔ ∃ role, result = .ok role := by
    rw [bind_eq_ok]
    exact ⟨fun ⟨role, resolved, _⟩ => ⟨role, resolved⟩, fun ⟨role, resolved⟩ => ⟨role, resolved, rfl⟩⟩
  cases server <;> cases host <;> simp only [validateSections, Option.mem_some_iff, forall_eq']
  case none.none => exact iff_of_false nofun fun all => by simpa using all.1
  case none.some => simpa using resolves
  case some.none => simpa using resolves
  case some.some => simp [bind_eq_ok]

theorem validateEndpoints_eq_ok_iff {seen : List String} {endpoints : List Endpoint} :
    validateEndpoints seen endpoints = .ok () ↔
      (∀ endpoint ∈ endpoints, endpoint.validate = .ok ()) ∧
      (endpoints.map (·.name)).Nodup ∧ ∀ endpoint ∈ endpoints, endpoint.name ∉ seen := by
  induction endpoints generalizing seen with
  | nil => simp [validateEndpoints]
  | cons endpoint rest ih =>
    have step : validateEndpoints seen (endpoint :: rest) = .ok () ↔
        endpoint.validate = .ok () ∧ endpoint.name ∉ seen ∧
          validateEndpoints (endpoint.name :: seen) rest = .ok () := by
      rw [validateEndpoints, check_bind_eq_ok]
      by_cases known : endpoint.name ∈ seen <;> simp [known]
    -- that a name is new to those seen says that it differs from the names in front of it
    have apart : (∀ other ∈ rest, other.name ∉ endpoint.name :: seen) ↔
        endpoint.name ∉ rest.map (·.name) ∧ ∀ other ∈ rest, other.name ∉ seen := by
      simp only [List.mem_cons, not_or, List.mem_map, not_exists, not_and, forall_and]
    rw [step, ih, apart, List.forall_mem_cons, List.forall_mem_cons, List.map_cons, List.nodup_cons]
    constructor
    · rintro ⟨valid, new, others, distinct, differs, unseen⟩
      exact ⟨⟨valid, others⟩, ⟨differs, distinct⟩, new, unseen⟩
    · rintro ⟨⟨valid, others⟩, ⟨differs, distinct⟩, new, unseen⟩
      exact ⟨valid, new, others, distinct, differs, unseen⟩

theorem validate_eq_ok_iff {config : Config} :
    config.validate = .ok () ↔ validateSections config.server config.host = .ok () ∧
      config.endpoints ≠ [] ∧ validateEndpoints [] config.endpoints = .ok () := by
  rw [validate, check_bind_eq_ok]
  cases config.endpoints <;> simp

/-- The endpoints of a checked configuration are told apart by their names. -/
theorem nodup_of_valid {config : Config} (valid : config.validate = .ok ()) :
    (config.endpoints.map (·.name)).Nodup :=
  (validateEndpoints_eq_ok_iff.mp (validate_eq_ok_iff.mp valid).2.2).2.1

/-- Each section that is there says where to serve or to connect, and both say it in one mode. -/
theorem roles_of_valid {config : Config} (valid : config.validate = .ok ()) :
    (∀ server, config.server = some server →
      ∃ role, config.serverRole = .ok role ∧ role.mode = server.mode) ∧
    (∀ host, config.host = some host →
      ∃ role, config.hostRole = .ok role ∧ role.mode = host.mode) ∧
    ∀ near far, config.serverRole = .ok near → config.hostRole = .ok far → near.mode = far.mode := by
  obtain ⟨-, served, connected, agreed⟩ :=
    validateSections_eq_ok_iff.mp (validate_eq_ok_iff.mp valid).1
  refine ⟨fun server given => ?_, fun host given => ?_, fun near far serves connects => ?_⟩
  · obtain ⟨role, resolved⟩ := served server given
    exact ⟨role, ifNone_bind_eq_ok_iff.mpr ⟨server, given, resolved⟩,
      ServerSection.mode_of_resolve resolved⟩
  · obtain ⟨role, resolved⟩ := connected host given
    exact ⟨role, ifNone_bind_eq_ok_iff.mpr ⟨host, given, resolved⟩,
      HostSection.mode_of_resolve resolved⟩
  · obtain ⟨server, given, resolved⟩ := ifNone_bind_eq_ok_iff.mp serves
    obtain ⟨host, present, bound⟩ := ifNone_bind_eq_ok_iff.mp connects
    rw [ServerSection.mode_of_resolve resolved, HostSection.mode_of_resolve bound]
    exact agreed server given host present

/-- A name that no endpoint before has stands for its endpoint. -/
theorem endpoint?_of_first {config : Config} {before after : List Endpoint} {endpoint : Endpoint}
    (placed : config.endpoints = before ++ endpoint :: after)
    (first : endpoint.name ∉ before.map (·.name)) :
    config.endpoint? endpoint.name = some endpoint := by
  have others : ∀ other ∈ before, ¬ (other.name == endpoint.name) = true := by
    intro other inside same
    exact first (List.mem_map.mpr ⟨other, inside, beq_iff_eq.mp same⟩)
  rw [endpoint?, placed, List.find?_append, List.find?_eq_none.mpr others, Option.none_or]
  exact List.find?_cons_of_pos BEq.rfl

end Config

/-! ## Made implementations -/

theorem Implementation.capability_of_fresh? {capability : Capability} {name : String}
    {implementation : Implementation} (made : fresh? capability name = some implementation) :
    implementation.capability = capability := by
  unfold fresh? at made
  split at made
  case h_3 => cases made
  all_goals
    obtain rfl := Option.some.inj made
    rfl

theorem Endpoint.capability_of_instantiate {endpoint : Endpoint} {implementation : Implementation}
    (made : endpoint.instantiate = .ok implementation) :
    implementation.capability = endpoint.capability := by
  unfold instantiate at made
  split at made
  next fresh found =>
    obtain rfl := Except.ok.inj made
    exact Implementation.capability_of_fresh? found
  next => cases made

namespace Deployment

/-- The implementations as they are just made, one for each endpoint and in the same order. -/
def Fresh (deployment : Deployment) (endpoints : List Endpoint) : Prop :=
  deployment.Forall₂ (fun entry endpoint =>
    entry.1 = endpoint.name ∧ endpoint.instantiate = .ok entry.2) endpoints

theorem exists_fresh {endpoints : List Endpoint}
    (built : ∀ endpoint ∈ endpoints, ∃ implementation, endpoint.instantiate = .ok implementation) :
    ∃ deployment : Deployment, deployment.Fresh endpoints := by
  induction endpoints with
  | nil => exact ⟨[], .nil⟩
  | cons endpoint rest ih =>
    obtain ⟨⟨implementation, made⟩, later⟩ := List.forall_mem_cons.mp built
    obtain ⟨deployment, fresh⟩ := ih later
    exact ⟨(endpoint.name, implementation) :: deployment, .cons ⟨rfl, made⟩ fresh⟩

section

variable {deployment : Deployment} {endpoints : List Endpoint} (fresh : deployment.Fresh endpoints)

include fresh

theorem Fresh.names : deployment.map (·.1) = endpoints.map (·.name) := by
  induction fresh with
  | nil => rfl
  | cons made _ ih => rw [List.map_cons, List.map_cons, ih, made.1]

theorem Fresh.capabilities :
    deployment.map (fun entry => (entry.1, entry.2.capability)) =
      endpoints.map fun endpoint => (endpoint.name, endpoint.capability) := by
  induction fresh with
  | nil => rfl
  | cons made _ ih =>
    rw [List.map_cons, List.map_cons, ih, made.1, Endpoint.capability_of_instantiate made.2]

end

/-! ## One endpoint of many -/

theorem replace_of_absent {deployment : Deployment} {name : String}
    (absent : name ∉ deployment.map (·.1)) (implementation : Implementation) :
    deployment.replace name implementation = deployment := by
  have others : ∀ entry ∈ deployment, ¬ entry.1 = name :=
    fun entry inside same => absent (List.mem_map.mpr ⟨entry, inside, same⟩)
  have kept : deployment.replace name implementation = deployment.map id :=
    List.map_congr_left fun entry inside => if_neg (others entry inside)
  rw [kept, List.map_id]

/-- An endpoint whose name no other has handles what is asked of the name, and leaves the
implementations of all others as they are. -/
theorem service_of_once (codec : Codec) {first last : Deployment} {name : String}
    (before : name ∉ first.map (·.1)) (after : name ∉ last.map (·.1))
    (implementation : Implementation) (method : String) (body : Bytes) :
    service codec name method body (first ++ (name, implementation) :: last) =
      (implementation.handle codec method body).within fun next =>
        first ++ (name, next) :: last := by
  have replaced (next : Implementation) :
      Deployment.replace name next (first ++ (name, implementation) :: last) =
        first ++ (name, next) :: last := by
    have around : Deployment.replace name next (first ++ (name, implementation) :: last) =
        Deployment.replace name next first ++ (name, next) :: Deployment.replace name next last := by
      simp [Deployment.replace]
    rw [around, replace_of_absent before, replace_of_absent after]
  rw [service, Registry.lookup_append_of_first (Registry.offered_iff.not.mpr before)]
  simp only [replaced]

end Deployment

/-! ## Servers -/

namespace PluginHost

def serving (mode : Mode) (deployment : Deployment) : PluginHost where
  server :=
    { mode := mode
      registry := deployment.map fun entry =>
        (entry.1, Deployment.service (Codec.ofMode mode) entry.1)
      endpoints := deployment.map fun entry => (entry.1, entry.2.capability) }
  deployment := deployment

theorem find?_serving (mode : Mode) (deployment : Deployment) (name : String) :
    (serving mode deployment).server.registry.find? name =
      if name ∈ deployment.map (·.1) then some (Deployment.service (Codec.ofMode mode) name)
      else none := by
  change List.lookup name (deployment.map _) = _
  induction deployment with
  | nil => rfl
  | cons entry rest ih =>
    rw [List.map_cons, Fields.lookup_cons_eq_ite, ih, List.map_cons]
    by_cases same : name = entry.1
    · rw [if_pos same, if_pos (List.mem_cons.mpr (.inl same)), same]
    · rw [if_neg same]
      simp only [List.mem_cons, same, false_or]

variable {mode : Mode} {deployment : Deployment} {name : String}

theorem deploy_eq_ite (host : PluginHost) (implementation : Implementation) :
    host.deploy name implementation =
      if (host.server.registry.find? name).isSome then .error (.duplicateService name)
      else .ok
        { server :=
            { mode := host.server.mode
              registry := host.server.registry ++
                [(name, Deployment.service (Codec.ofMode host.server.mode) name)]
              endpoints := host.server.endpoints ++ [(name, implementation.capability)] }
          deployment := host.deployment ++ [(name, implementation)] } := by
  rw [deploy, PluginServer.serve, Registry.register]
  split_ifs <;> rfl

/-- An implementation is served beside others unless one of them has its name. -/
theorem deploy_serving (implementation : Implementation) :
    (serving mode deployment).deploy name implementation =
      if name ∈ deployment.map (·.1) then .error (.duplicateService name)
      else .ok (serving mode (deployment ++ [(name, implementation)])) := by
  rw [deploy_eq_ite, find?_serving]
  by_cases taken : name ∈ deployment.map (·.1)
  · rw [if_pos taken, if_pos taken, if_pos (Option.isSome_some)]
  · rw [if_neg taken, if_neg taken]
    simp [serving]

/-- A call of a method of a name that is served goes to the service of the name. -/
theorem handle_serving (served : name ∈ deployment.map (·.1)) {method : String}
    (plain : '.' ∉ method.toList) (body : Bytes) (state : Deployment) :
    Server.handle (serving mode deployment).server.registry (Registry.methodName name method) body
        state =
      Deployment.service (Codec.ofMode mode) name method body state := by
  have found := find?_serving mode deployment name
  rw [if_pos served] at found
  exact Server.handle_methodName plain found body state

theorem deployAll_cons (host : PluginHost) {endpoint : Endpoint} {implementation : Implementation}
    (made : endpoint.instantiate = .ok implementation) (rest : List Endpoint) :
    host.deployAll (endpoint :: rest) =
      (host.deploy endpoint.name implementation).mapError .transport >>= (·.deployAll rest) := by
  rw [deployAll, made]
  rfl

theorem deployAll_append (host : PluginHost) (before after : List Endpoint) :
    host.deployAll (before ++ after) = host.deployAll before >>= (·.deployAll after) := by
  induction before generalizing host with
  | nil => rfl
  | cons endpoint rest ih =>
    rw [List.cons_append, deployAll, deployAll, bind_assoc]
    simp only [ih, bind_assoc]

/-- Endpoints whose names are new, also among each other, are all served. -/
theorem deployAll_of_new {made : Deployment} {endpoints : List Endpoint}
    (fresh : made.Fresh endpoints) (new : ((deployment ++ made).map (·.1)).Nodup) :
    (serving mode deployment).deployAll endpoints = .ok (serving mode (deployment ++ made)) := by
  induction fresh generalizing deployment with
  | nil => rw [List.append_nil, deployAll]
  | @cons entry endpoint made rest this _ ih =>
    obtain ⟨name, implementation⟩ := entry
    obtain ⟨rfl, made⟩ := this
    have apart : endpoint.name ∉ deployment.map (·.1) := by
      intro taken
      rw [List.map_append, List.nodup_append] at new
      exact new.2.2 _ taken _ (List.mem_cons_self ..) rfl
    -- what is served after one more endpoint is again what some deployment makes it
    rw [List.append_cons] at new ⊢
    rw [deployAll_cons _ made, deploy_serving, if_neg apart]
    exact ih new

theorem deployAll_empty {endpoints : List Endpoint} (fresh : deployment.Fresh endpoints)
    (distinct : (endpoints.map (·.name)).Nodup) :
    (empty mode).deployAll endpoints = .ok (serving mode deployment) := by
  change (serving mode []).deployAll endpoints = _
  rw [← fresh.names] at distinct
  exact deployAll_of_new fresh distinct

/-- The first endpoint whose name is taken is refused. -/
theorem deployAll_of_taken {before after : List Endpoint} {endpoint : Endpoint}
    (built : ∀ other ∈ before ++ endpoint :: after,
      ∃ implementation, other.instantiate = .ok implementation)
    (distinct : (before.map (·.name)).Nodup) (taken : endpoint.name ∈ before.map (·.name)) :
    (empty mode).deployAll (before ++ endpoint :: after) =
      .error (.transport (.duplicateService endpoint.name)) := by
  rw [List.forall_mem_append, List.forall_mem_cons] at built
  obtain ⟨earlier, ⟨implementation, made⟩, -⟩ := built
  obtain ⟨deployment, fresh⟩ := Deployment.exists_fresh earlier
  rw [deployAll_append, deployAll_empty fresh distinct]
  change (serving mode deployment).deployAll (endpoint :: after) = _
  rw [← fresh.names] at taken
  rw [deployAll_cons _ made, deploy_serving, if_pos taken]
  rfl

end PluginHost

namespace Config

/-- The sections of a checked configuration resolve, and to one mode. A server takes its endpoints if
they can be made, lists them in their order, and starts with each as it was made. An endpoint is
found under its name, which no other has. Whatever state the implementations have come to, a call of
a method of the endpoint is handled by its own, with this method and this body, and the others stay
as they are. Endpoints among which a name is repeated are refused with the first one that is. -/
theorem served_under_own_names (config : Config)
    (built : ∀ endpoint ∈ config.endpoints,
      ∃ implementation, endpoint.instantiate = .ok implementation) (mode : Mode) :
    (config.validate = .ok () →
      ((∀ server, config.server = some server →
          ∃ role, config.serverRole = .ok role ∧ role.mode = server.mode) ∧
        (∀ host, config.host = some host →
          ∃ role, config.hostRole = .ok role ∧ role.mode = host.mode) ∧
        ∀ near far, config.serverRole = .ok near → config.hostRole = .ok far →
          near.mode = far.mode) ∧
      ∃ host, config.pluginHost mode = .ok host ∧ host.server.mode = mode ∧
        host.server.endpoints =
          config.endpoints.map (fun endpoint => (endpoint.name, endpoint.capability)) ∧
        host.deployment.Fresh config.endpoints ∧
        ∀ before endpoint after, config.endpoints = before ++ endpoint :: after →
          config.endpoint? endpoint.name = some endpoint ∧
          (∀ other ∈ before ++ after, other.name ≠ endpoint.name) ∧
          ∀ (first : Deployment) implementation (last : Deployment) method body,
            first.map (·.1) = before.map (·.name) → last.map (·.1) = after.map (·.name) →
            '.' ∉ method.toList →
            Server.handle host.server.registry (Registry.methodName endpoint.name method) body
                (first ++ (endpoint.name, implementation) :: last) =
              (implementation.handle (Codec.ofMode mode) method body).within fun next =>
                first ++ (endpoint.name, next) :: last) ∧
    (¬ (config.endpoints.map (·.name)).Nodup →
      ∃ before endpoint after, config.endpoints = before ++ endpoint :: after ∧
        (before.map (·.name)).Nodup ∧ endpoint.name ∈ before.map (·.name) ∧
        config.pluginHost mode = .error (.transport (.duplicateService endpoint.name))) := by
  constructor
  · intro valid
    have distinct := nodup_of_valid valid
    obtain ⟨deployment, fresh⟩ := Deployment.exists_fresh built
    refine ⟨roles_of_valid valid, PluginHost.serving mode deployment, ?_, rfl, fresh.capabilities,
      fresh, ?_⟩
    · exact PluginHost.deployAll_empty fresh distinct
    · intro before endpoint after placed
      have alone : endpoint.name ∉ (before ++ after).map (·.name) := by
        rw [placed, List.map_append, List.map_cons, List.nodup_middle, ← List.map_append] at distinct
        exact (List.nodup_cons.mp distinct).1
      have others := alone
      rw [List.map_append, List.mem_append, not_or] at others
      refine ⟨endpoint?_of_first placed others.1, fun other inside same => alone ?_, ?_⟩
      · exact List.mem_map.mpr ⟨other, inside, same⟩
      · intro first implementation last method body named ended plain
        have listed : endpoint.name ∈ deployment.map (·.1) := by
          rw [fresh.names, placed, List.map_append]
          exact List.mem_append_right _ (List.mem_cons_self ..)
        rw [PluginHost.handle_serving listed plain]
        exact Deployment.service_of_once _ (named ▸ others.1) (ended ▸ others.2) ..
  · intro repeated
    obtain ⟨before, endpoint, after, placed, distinct, taken⟩ := exists_first_taken repeated
    refine ⟨before, endpoint, after, placed, distinct, taken, ?_⟩
    rw [pluginHost, placed]
    exact PluginHost.deployAll_of_taken (placed ▸ built) distinct taken

section Example

def catalog : Endpoint := ⟨"catalog", .datasource, "static", .null⟩

def narrator : Endpoint := ⟨"narrator", .builder, "echo", .null⟩

def listening (endpoints : List Endpoint) : Config where
  server := some ⟨":7411", .legacy⟩
  endpoints := endpoints

theorem served_under_own_names_listening :
    (∃ host, (listening [catalog, narrator]).pluginHost .legacy = .ok host ∧
      host.server.endpoints = [("catalog", .datasource), ("narrator", .builder)] ∧
      (listening [catalog, narrator]).endpoint? "narrator" = some narrator ∧
      ∀ catalog plan body, Server.handle host.server.registry "narrator.Run" body
          [("catalog", catalog), ("narrator", .echo plan)] =
        ((Implementation.echo plan).handle (Codec.ofMode .legacy) "Run" body).within fun next =>
          [("catalog", catalog), ("narrator", next)]) ∧
    (listening [catalog, catalog]).pluginHost .legacy =
      .error (.transport (.duplicateService "catalog")) := by
  have static : ∃ implementation, catalog.instantiate = .ok implementation := ⟨_, rfl⟩
  have echo : ∃ implementation, narrator.instantiate = .ok implementation := ⟨_, rfl⟩
  constructor
  · have both := served_under_own_names (listening [catalog, narrator])
      (List.forall_mem_cons.mpr ⟨static, List.forall_mem_singleton.mpr echo⟩) .legacy
    obtain ⟨-, host, served, -, listed, -, reached⟩ := both.1 (by decide +kernel)
    obtain ⟨found, -, handled⟩ := reached [catalog] narrator [] rfl
    exact ⟨host, served, listed, found, fun _ _ body =>
      handled [("catalog", _)] _ [] "Run" body rfl rfl (by decide)⟩
  · have both := served_under_own_names (listening [catalog, catalog])
      (List.forall_mem_cons.mpr ⟨static, List.forall_mem_singleton.mpr static⟩) .legacy
    obtain ⟨before, endpoint, after, placed, -, -, refused⟩ := both.2 (by decide)
    have inside : endpoint ∈ (listening [catalog, catalog]).endpoints :=
      placed ▸ List.mem_append_right _ (List.mem_cons_self ..)
    obtain rfl : endpoint = catalog := by simpa [listening] using inside
    exact refused

end Example

end Config

end PluginBridge
