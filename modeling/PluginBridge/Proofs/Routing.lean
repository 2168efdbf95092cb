import Mathlib.Data.List.Induction
import PluginBridge.Proofs.Fields
import PluginBridge.Transport.Visits

/-! A caller and a registry agree on what a name means. The caller puts a point between the endpoint
and the method, the registry parts the name at its last point. As no method has a point in its name,
the endpoint is found again, whatever points it has itself. It stands for the service that was
registered under it first. -/

namespace PluginBridge

namespace Registry

variable {ς : Type}

/-! ## Names -/

theorem splitName_plain {method : List Char} (plain : '.' ∉ method) : splitName? method = none := by
  induction method with
  | nil => rfl
  | cons c rest ih =>
    rw [List.mem_cons, not_or] at plain
    rw [splitName?, ih plain.2]
    exact if_neg (Ne.symm plain.1)

/-- A name is split at its last point, whatever points stand before that. -/
theorem splitName_append (endpoint : List Char) {method : List Char} (plain : '.' ∉ method) :
    splitName? (endpoint ++ '.' :: method) = some (endpoint, method) := by
  induction endpoint with
  | nil =>
    rw [List.nil_append, splitName?, splitName_plain plain]
    exact if_pos rfl
  | cons c rest ih => rw [List.cons_append, splitName?, ih]

theorem route_plain (registry : Registry ς) {name : String} (plain : '.' ∉ name.toList) :
    registry.route name = .error (.malformedMethod name) := by
  rw [route, splitName_plain plain]

theorem route_eq (registry : Registry ς) (endpoint : String) {method : String}
    (plain : '.' ∉ method.toList) :
    registry.route (methodName endpoint method) =
      match registry.find? endpoint with
      | some service => .ok (service, method)
      | none => .error (.unknownService endpoint) := by
  have spelled : (methodName endpoint method).toList = endpoint.toList ++ '.' :: method.toList := by
    simp [methodName]
  have parts := splitName_append endpoint.toList plain
  cases found : registry.find? endpoint <;>
    simp only [route, spelled, parts, String.ofList_toList, found]

theorem route_methodName {registry : Registry ς} {endpoint method : String} {service : ς}
    (plain : '.' ∉ method.toList) (found : registry.find? endpoint = some service) :
    registry.route (methodName endpoint method) = .ok (service, method) := by
  rw [route_eq registry endpoint plain, found]

/-! ## Registrations -/

theorem find?_concat (registry : Registry ς) (endpoint : String) (service : ς) (sought : String) :
    find? (registry ++ [(endpoint, service)]) sought =
      (registry.find? sought).or (if sought = endpoint then some service else none) := by
  rw [find?, List.lookup_append, Fields.lookup_cons_eq_ite, List.lookup_nil, ← find?]

/-- A service that is added is found under its name, and all others as before. -/
theorem find?_eq_some_of_register {services more : Registry ς} {endpoint : String} {service : ς}
    (added : services.register endpoint service = .ok more) {sought : String} {found : ς} :
    more.find? sought = some found ↔
      services.find? sought = some found ∨ (endpoint = sought ∧ service = found) := by
  rw [register] at added
  split_ifs at added with taken
  obtain rfl := Except.ok.inj added
  rw [find?_concat]
  by_cases same : sought = endpoint
  · subst same
    simp [Option.not_isSome_iff_eq_none.mp taken]
  · simp [same, Ne.symm same]

theorem collect_concat (offered : List (String × ς)) (endpoint : String) (service : ς) :
    collect (offered ++ [(endpoint, service)]) =
      match (collect offered).register endpoint service with
      | .ok registry => registry
      | .error _ => collect offered := by
  rw [collect, List.foldl_append]
  rfl

/-- An endpoint name stands for the service that it was offered with first. -/
theorem find?_collect (offered : List (String × ς)) (endpoint : String) :
    (collect offered).find? endpoint = offered.lookup endpoint := by
  induction offered using List.reverseRecOn with
  | nil => rfl
  | append_singleton offered pair ih =>
    obtain ⟨name, service⟩ := pair
    rw [collect_concat, register, List.lookup_append, Fields.lookup_cons_eq_ite, List.lookup_nil, ← ih]
    by_cases taken : ((collect offered).find? name).isSome
    · rw [if_pos taken]
      by_cases same : endpoint = name
      · subst same
        obtain ⟨first, found⟩ := Option.isSome_iff_exists.mp taken
        rw [found, Option.some_or]
      · rw [if_neg same, Option.or_none]
    · rw [if_neg taken]
      exact find?_concat ..

def Offered (offered : List (String × ς)) (endpoint : String) : Prop :=
  ∃ service, (endpoint, service) ∈ offered

theorem offered_iff {offered : List (String × ς)} {endpoint : String} :
    Offered offered endpoint ↔ endpoint ∈ offered.map (·.1) := by
  simp [Offered]

theorem lookup_eq_none_iff {offered : List (String × ς)} {endpoint : String} :
    offered.lookup endpoint = none ↔ ¬ Offered offered endpoint := by
  rw [List.lookup_eq_none_iff, Offered, not_exists]
  simp only [bne_iff_ne, ne_eq, Prod.forall]
  exact ⟨fun other service inside => other endpoint service inside rfl,
    fun absent name service inside same => absent service (same ▸ inside)⟩

theorem lookup_append_of_first {before after : List (String × ς)} {endpoint : String}
    (first : ¬ Offered before endpoint) (service : ς) :
    (before ++ (endpoint, service) :: after).lookup endpoint = some service := by
  rw [List.lookup_append, lookup_eq_none_iff.mpr first, Option.none_or, List.lookup_cons_self]

/-- A name that was offered is taken, and stays with the service that has it. -/
theorem register_collect_of_offered {offered : List (String × ς)} {endpoint : String}
    (taken : Offered offered endpoint) (service : ς) :
    (collect offered).register endpoint service = .error (.duplicateService endpoint) ∧
      collect (offered ++ [(endpoint, service)]) = collect offered := by
  have found : ((collect offered).find? endpoint).isSome := by
    rw [find?_collect, ← Option.ne_none_iff_isSome]
    exact fun absent => lookup_eq_none_iff.mp absent taken
  have refused : (collect offered).register endpoint service =
      .error (.duplicateService endpoint) := if_pos found
  exact ⟨refused, by rw [collect_concat, refused]⟩

theorem register_collect_of_new {offered : List (String × ς)} {endpoint : String}
    (new : ¬ Offered offered endpoint) (service : ς) :
    (collect offered).register endpoint service = .ok (collect offered ++ [(endpoint, service)]) := by
  rw [register, find?_collect, lookup_eq_none_iff.mpr new]
  rfl

end Registry

open Registry (Offered)

/-! ## Services on record -/

namespace Service

variable {σ : Type}

theorem recordingEach_append (before after : List (String × Service σ)) (endpoint : String)
    (service : Service σ) :
    ∃ later, recordingEach (before ++ (endpoint, service) :: after) =
      recordingEach before ++ (endpoint, service.recording before.length) :: later := by
  rw [recordingEach, List.mapIdx_append, List.mapIdx_cons, Nat.zero_add]
  exact ⟨_, rfl⟩

theorem offered_recordingEach {offered : List (String × Service σ)} {endpoint : String} :
    Offered (recordingEach offered) endpoint ↔ Offered offered endpoint := by
  constructor
  · rintro ⟨_, inside⟩
    obtain ⟨place, within, same⟩ := List.mem_mapIdx.mp inside
    obtain ⟨rfl, _⟩ := Prod.mk.inj same
    exact ⟨_, List.getElem_mem within⟩
  · rintro ⟨service, inside⟩
    obtain ⟨place, within, same⟩ := List.mem_iff_getElem.mp inside
    exact ⟨_, List.mem_mapIdx.mpr ⟨place, within, by rw [same]⟩⟩

end Service

namespace Server

variable {σ : Type}

/-- How a request whose name asks for a service of the registry is handled. -/
theorem handle_methodName {server : Server σ} {endpoint method : String} {service : Service σ}
    (plain : '.' ∉ method.toList) (found : Registry.find? server endpoint = some service)
    (body : Bytes) (state : σ) :
    server.handle (Registry.methodName endpoint method) body state = service method body state := by
  rw [handle, Registry.route_methodName plain found]

theorem handle_unknown {server : Server σ} {endpoint method : String} (plain : '.' ∉ method.toList)
    (absent : Registry.find? server endpoint = none) (body : Bytes) (state : σ) :
    server.handle (Registry.methodName endpoint method) body state =
      .reply state (.error (.unknownService endpoint)) := by
  rw [handle, Registry.route_eq server endpoint plain, absent]

theorem handle_plain (server : Server σ) {name : String} (plain : '.' ∉ name.toList) (body : Bytes)
    (state : σ) : server.handle name body state = .reply state (.error (.malformedMethod name)) := by
  rw [handle, Registry.route_plain server plain]

/-- After any services were offered, a name that is taken is refused and the registry stays as it
is. A call of a method of an endpoint reaches the service that was offered under the endpoint first,
and no other, with this method and this body; if there is none, it is refused with the name of the
endpoint. A name without a point is refused as such. A refused call reaches no service. -/
theorem routed_to_first (offered : List (String × Service σ)) :
    let server : Server (σ × List Visit) := Registry.collect (Service.recordingEach offered)
    (∀ endpoint service, Offered offered endpoint →
      Registry.register server endpoint service = .error (.duplicateService endpoint) ∧
      Registry.collect (Service.recordingEach offered ++ [(endpoint, service)]) = server) ∧
    (∀ endpoint service, ¬ Offered offered endpoint →
      Registry.register server endpoint service = .ok (server ++ [(endpoint, service)])) ∧
    (∀ endpoint method body state visits, '.' ∉ method.toList →
      (∀ before service after, offered = before ++ (endpoint, service) :: after →
        ¬ Offered before endpoint →
        server.handle (Registry.methodName endpoint method) body (state, visits) =
          (service method body state).within fun next =>
            (next, visits ++ [⟨before.length, method, body⟩])) ∧
      (¬ Offered offered endpoint →
        server.handle (Registry.methodName endpoint method) body (state, visits) =
          .reply (state, visits) (.error (.unknownService endpoint)))) ∧
    ∀ name body state visits, '.' ∉ name.toList →
      server.handle name body (state, visits) =
        .reply (state, visits) (.error (.malformedMethod name)) := by
  intro server
  refine ⟨?_, ?_, ?_, fun name body state visits plain => handle_plain server plain body _⟩
  · intro endpoint service taken
    exact Registry.register_collect_of_offered (Service.offered_recordingEach.mpr taken) service
  · intro endpoint service new
    exact Registry.register_collect_of_new (Service.offered_recordingEach.not.mpr new) service
  · intro endpoint method body state visits plain
    constructor
    · rintro before service after rfl first
      obtain ⟨later, recorded⟩ := Service.recordingEach_append before after endpoint service
      have found : Registry.find? server endpoint = some (service.recording before.length) := by
        rw [Registry.find?_collect, recorded]
        exact Registry.lookup_append_of_first (Service.offered_recordingEach.not.mpr first) _
      exact handle_methodName plain found body _
    · intro new
      have absent : Registry.find? server endpoint = none := by
        rw [Registry.find?_collect]
        exact Registry.lookup_eq_none_iff.mpr (Service.offered_recordingEach.not.mpr new)
      exact handle_unknown plain absent body _

section Example

def echoing : Service Unit :=
  .ofAnswer fun _ body state => (state, .ok body)

def refusing : Service Unit :=
  .ofAnswer fun method _ state => (state, .error (.unknownMethod method))

/-- Names with points, without any letter, and one that is taken already. -/
def dotted : List (String × Service Unit) :=
  [("a", refusing), ("a.b", echoing), ("", refusing), ("a.b", refusing)]

theorem routed_to_first_dotted :
    let server : Server (Unit × List Visit) := Registry.collect (Service.recordingEach dotted)
    Registry.register server "" (echoing.recording 4) = .error (.duplicateService "") ∧
    server.handle "a.b.Get" [7] ((), []) = .reply ((), [⟨1, "Get", [7]⟩]) (.ok [7]) ∧
    server.handle ".Get" [7] ((), []) =
      .reply ((), [⟨2, "Get", [7]⟩]) (.error (.unknownMethod "Get")) ∧
    server.handle "b.Get" [7] ((), []) = .reply ((), []) (.error (.unknownService "b")) ∧
    server.handle "Get" [7] ((), []) = .reply ((), []) (.error (.malformedMethod "Get")) := by
  obtain ⟨refuses, _, routes, malformed⟩ := routed_to_first dotted
  have plain : '.' ∉ "Get".toList := by decide
  refine ⟨(refuses "" _ ⟨refusing, by simp [dotted]⟩).1, ?_, ?_, ?_, malformed "Get" [7] () [] plain⟩
  · exact (routes "a.b" "Get" [7] () [] plain).1 [("a", refusing)] echoing _ rfl (by simp [Offered])
  · exact (routes "" "Get" [7] () [] plain).1 (dotted.take 2) refusing _ rfl
      (by simp [Offered, dotted])
  · exact (routes "b" "Get" [7] () [] plain).2 (by simp [Offered, dotted])

end Example

end Server

end PluginBridge
