import Ibridger.Cpp.Server
import Ibridger.Cpp.ServiceRegistry
import Ibridger.Cpp.TypedMethod

/-! # Building a C++ server

`ServerBuilder` of `server_builder.cpp` and the constructor of `Server` in `server.cpp`,
which registers the built-in service before any other.
-/

namespace Ibridger.Cpp

open Rpc Wire

inductive TransportType where
  | auto
  | unixSocket
  | namedPipe
deriving DecidableEq

/-- `config_`, as far as the builder sets it, and `services_`. -/
structure ServerBuilder (Service : Type) where
  endpoint : List UInt8 := []
  transport : TransportType := .auto
  config : ServerConfig := {}
  registerBuiltins : Bool := true
  services : List Service := []

/-- A call of the builder that sets something. -/
inductive BuilderCall (Service : Type) where
  | setEndpoint (endpoint : List UInt8)
  | setTransport (type : TransportType)
  | addService (service : Service)
  | setMaxConnections (n : Nat)
  | enableBuiltins (enabled : Bool)

def BuilderCall.added {Service : Type} : BuilderCall Service → Option Service
  | .addService service => some service
  | .setEndpoint _ | .setTransport _ | .setMaxConnections _ | .enableBuiltins _ => none

/-- `PingService`, with the function of its method. -/
def PingService.service {Handler : Type} (ping : Handler) : ServiceBase Handler :=
  (ServiceBase.ofName kPingServiceName).registerMethod kPingMethodName (some ping)

namespace ServiceRegistry

variable {Service Handler : Type}

/-- The services of a process, the built-in one among them. -/
def withBuiltin (objects : Service → ServiceBase Handler) (ping : Handler) :
    Option Service → ServiceBase Handler
  | none => PingService.service ping
  | some service => objects service

/-- The registry that the constructor of `Server` makes. -/
def construct (objects : Service → ServiceBase Handler) (ping : Handler)
    (registerBuiltins : Bool) : ServiceRegistry (Option Service) Handler :=
  let registry := { objects := withBuiltin objects ping, services := ∅ }
  if registerBuiltins then (registry.registerService none).2 else registry

end ServiceRegistry

namespace ServerBuilder

variable {Service Handler : Type}

def apply (builder : ServerBuilder Service) : BuilderCall Service → ServerBuilder Service
  | .setEndpoint endpoint => { builder with endpoint := endpoint }
  | .setTransport type => { builder with transport := type }
  | .addService service => { builder with services := builder.services ++ [service] }
  | .setMaxConnections n => { builder with config := { maxConnections := n } }
  | .enableBuiltins enabled => { builder with registerBuiltins := enabled }

/-- The builder behind some calls. -/
def after (calls : List (BuilderCall Service)) : ServerBuilder Service := calls.foldl apply {}

/-- The server and its registry, or the exception. What `register_service` returns is lost. -/
def build (builder : ServerBuilder Service) (objects : Service → ServiceBase Handler)
    (ping : Handler) : Except String (Server × ServiceRegistry (Option Service) Handler) :=
  if builder.endpoint = [] then .error "ServerBuilder: endpoint must not be empty"
  else
    .ok (Server.init builder.config,
      builder.services.foldl (fun registry service => (registry.registerService (some service)).2)
        (.construct objects ping builder.registerBuiltins))

end ServerBuilder

/-! ## What is found -/

namespace ServiceRegistry

variable {Service Handler : Type}
  {registry : ServiceRegistry Service Handler}

theorem registerService_objects (registry : ServiceRegistry Service Handler) (service : Service) :
    (registry.registerService service).2.objects = registry.objects := by
  unfold registerService
  split
  · rfl
  · rfl

/-- A service is found behind those that are there. -/
theorem registerService_find (registry : ServiceRegistry Service Handler) (service : Service)
    (name : String) : (registry.registerService service).2.findService name =
      (registry.findService name).or
        (if (registry.objects service).name = name then some service else none) := by
  rw [registerService]
  split
  next htaken => exact (Registration.lookup_or_of_mem htaken).symm
  next hfree => exact Registration.lookup_insert_of_notMem hfree

/-- Of services that are registered one after the other, the first of a name is found. -/
theorem registerAll (registry : ServiceRegistry Service Handler) (services : List Service) :
    (services.foldl (fun registry service => (registry.registerService service).2)
        registry).objects = registry.objects ∧
      ∀ name, (services.foldl (fun registry service => (registry.registerService service).2)
          registry).findService name =
        (registry.findService name).or
          (services.find? fun service => (registry.objects service).name = name) := by
  induction services generalizing registry with
  | nil => exact ⟨rfl, fun name => (Option.or_none).symm⟩
  | cons service services ih =>
      obtain ⟨hobjects, hfound⟩ := ih (registry.registerService service).2
      rw [registerService_objects] at hobjects hfound
      refine ⟨hobjects, ?_⟩
      intro name
      rw [List.foldl_cons, hfound, registerService_find, Option.or_assoc, List.find?_cons]
      congr 1
      by_cases hname : (registry.objects service).name = name
      · simp [hname]
      · simp [hname]

theorem construct_registers (objects : Service → ServiceBase Handler) (ping : Handler)
    (registerBuiltins : Bool) : (construct objects ping registerBuiltins).objects =
        withBuiltin objects ping ∧
      ∀ name, (construct objects ping registerBuiltins).findService name =
        (if registerBuiltins then [none] else []).find?
          fun service => (withBuiltin objects ping service).name = name := by
  cases registerBuiltins with
  | false => exact ⟨rfl, fun name => Finmap.lookup_empty name⟩
  | true =>
      exact registerAll { objects := withBuiltin objects ping, services := ∅ } [none]

end ServiceRegistry

namespace ServerBuilder

variable {Service Handler : Type} {builder : ServerBuilder Service}
  {objects : Service → ServiceBase Handler} {ping : Handler} {server : Server}
  {registry : ServiceRegistry (Option Service) Handler}

/-- The services of a server, in the order in which they are registered. -/
def registered (builder : ServerBuilder Service) : List (Option Service) :=
  (if builder.registerBuiltins then [none] else []) ++ builder.services.map some

/-- The other calls do not disturb the order of the services. -/
theorem after_services (calls : List (BuilderCall Service)) :
    (after calls).services = calls.filterMap BuilderCall.added := by
  induction calls using List.reverseRecOn with
  | nil => rfl
  | append_singleton calls call ih =>
      rw [after, List.foldl_append, List.foldl_cons, List.foldl_nil, ← after,
        List.filterMap_append, ← ih]
      cases call with
      | addService service => rfl
      | setEndpoint | setTransport | setMaxConnections | enableBuiltins =>
          exact (List.append_nil _).symm

/-- A server finds the first service of a name. -/
theorem build_finds (hbuild : builder.build objects ping = .ok (server, registry)) :
    registry.objects = ServiceRegistry.withBuiltin objects ping ∧
      ∀ name, registry.findService name = builder.registered.find?
        fun service => (ServiceRegistry.withBuiltin objects ping service).name = name := by
  rw [build] at hbuild
  split at hbuild
  · cases hbuild
  cases hbuild
  obtain ⟨hobjects, hfound⟩ :=
    ServiceRegistry.construct_registers objects ping builder.registerBuiltins
  obtain ⟨hsame, hall⟩ := ServiceRegistry.registerAll
    (.construct objects ping builder.registerBuiltins) (builder.services.map some)
  rw [List.foldl_map] at hsame hall
  rw [hobjects] at hsame hall
  refine ⟨hsame, ?_⟩
  intro name
  rw [hall, hfound, registered, List.find?_append]

end ServerBuilder

end Ibridger.Cpp
