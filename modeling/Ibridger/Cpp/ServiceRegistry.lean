import Ibridger.Cpp.Dispatcher
import Ibridger.Foundation.Registration

/-! # The service registry

`ServiceBase` of `service_base.cpp` and `ServiceRegistry` of `service_registry.cpp`. A
`std::unordered_map` is a finite map, whose entries are in no order. The registry holds
pointers, so methods that are registered later on are found as well.
-/

namespace Ibridger.Cpp

open Registration Rpc Wire

/-- A service with its methods. An empty `std::function` is `none`. -/
structure ServiceBase (Handler : Type) where
  name : String
  handlers : Finmap fun _ : String => Option Handler
  methodNames : List String
  nodup : methodNames.Nodup
  mem_methodNames : ∀ method, method ∈ methodNames ↔ method ∈ handlers

namespace ServiceBase

variable {Handler : Type}

def ofName (name : String) : ServiceBase Handler where
  name := name
  handlers := ∅
  methodNames := []
  nodup := List.nodup_nil
  mem_methodNames method := by simp [Finmap.notMem_empty]

def getMethod (service : ServiceBase Handler) (method : String) : Option Handler :=
  (service.handlers.lookup method).join

def registerMethod (service : ServiceBase Handler) (method : String) (handler : Option Handler) :
    ServiceBase Handler where
  name := service.name
  handlers := service.handlers.insert method handler
  methodNames :=
    if method ∈ service.handlers then service.methodNames else service.methodNames ++ [method]
  nodup := by
    split
    · exact service.nodup
    next hnew =>
      -- a name without a handler is not in the list
      rw [← service.mem_methodNames] at hnew
      rw [← List.concat_eq_append]
      exact service.nodup.concat hnew
  mem_methodNames other := by
    have hother := service.mem_methodNames other
    rw [Finmap.mem_insert]
    split
    next hold =>
      rw [hother]
      constructor
      · exact Or.inr
      · rintro (rfl | hmem)
        · exact hold
        · exact hmem
    · rw [List.mem_append, List.mem_singleton, hother, or_comm]

/-- The list of the methods names each once. -/
theorem count_methodNames (service : ServiceBase Handler) (method : String) :
    service.methodNames.count method =
      if (service.handlers.lookup method).isSome then 1 else 0 := by
  have hmem : method ∈ service.methodNames ↔ (service.handlers.lookup method).isSome = true :=
    (service.mem_methodNames method).trans Finmap.lookup_isSome.symm
  rw [service.nodup.count]
  simp only [hmem]

end ServiceBase

structure ServiceDescriptor where
  name : String
  methods : List String
deriving DecidableEq

/-- The registry, and the services that its pointers lead to. -/
structure ServiceRegistry (Service Handler : Type) where
  objects : Service → ServiceBase Handler
  services : Finmap fun _ : String => Service

inductive RegistryEvent (Service Handler : Type) where
  | registerMethod (service : Service) (method : String) (handler : Option Handler)
  | registerService (service : Service)

namespace ServiceRegistry

variable {Service Handler : Type} [DecidableEq Service]

/-- No service is registered, and none has methods. -/
def fresh (names : Service → String) : ServiceRegistry Service Handler where
  objects service := .ofName (names service)
  services := ∅

def registerService (registry : ServiceRegistry Service Handler) (service : Service) :
    Option ErrorCode × ServiceRegistry Service Handler :=
  if (registry.objects service).name ∈ registry.services then
    (some (.ibridger .alreadyRegistered), registry)
  else
    (none, { registry with
      services := registry.services.insert (registry.objects service).name service })

def findService (registry : ServiceRegistry Service Handler) (name : String) : Option Service :=
  registry.services.lookup name

/-- The descriptors come in no order. -/
def listServices (registry : ServiceRegistry Service Handler) : Multiset ServiceDescriptor :=
  registry.services.entries.map fun entry =>
    { name := entry.1, methods := (registry.objects entry.2).methodNames }

def step (registry : ServiceRegistry Service Handler) :
    RegistryEvent Service Handler → ServiceRegistry Service Handler
  | .registerMethod service method handler =>
      { registry with
        objects := Function.update registry.objects service
          ((registry.objects service).registerMethod method handler) }
  | .registerService service => (registry.registerService service).2

def after (names : Service → String) (events : List (RegistryEvent Service Handler)) :
    ServiceRegistry Service Handler :=
  events.foldl step (fresh names)

/-- What the dispatcher finds. -/
def table (registry : ServiceRegistry Service Handler) : ServiceTable Handler := fun name =>
  (registry.findService name).map fun service => (registry.objects service).getMethod

/-- A descriptor names the method of the service. -/
def Advertised (registry : ServiceRegistry Service Handler) (name method : String) : Prop :=
  ∃ descriptor ∈ registry.listServices, descriptor.name = name ∧ method ∈ descriptor.methods

end ServiceRegistry

/-- The registered function can be called. -/
def RegistryEvent.Callable {Service Handler : Type} : RegistryEvent Service Handler → Prop
  | .registerMethod _ _ handler => handler.isSome
  | .registerService _ => True

/-! ## What has been registered -/

namespace RegistryEvent

variable {Service Handler : Type} [DecidableEq Service]

/-- The service that an event registers, under its name. -/
def service (names : Service → String) :
    RegistryEvent Service Handler → Option (String × Service)
  | .registerMethod _ _ _ => none
  | .registerService service => some (names service, service)

/-- The method that an event registers on a service. -/
def methodOf (service : Service) :
    RegistryEvent Service Handler → Option (String × Option Handler)
  | .registerMethod target method handler =>
      if target = service then some (method, handler) else none
  | .registerService _ => none

end RegistryEvent

namespace ServiceRegistry

variable {Service Handler : Type} [DecidableEq Service]

/-- The first service counts, and the last handler. -/
structure Follows (names : Service → String) (events : List (RegistryEvent Service Handler))
    (registry : ServiceRegistry Service Handler) : Prop where
  named : ∀ service, (registry.objects service).name = names service
  found : ∀ name, registry.findService name = first (RegistryEvent.service names) name events
  handled : ∀ service method, (registry.objects service).handlers.lookup method =
    last (RegistryEvent.methodOf service) method events

/-- The lists of the registry agree with what the dispatcher finds, and both with what has
been registered. -/
structure Coherent (names : Service → String) (events : List (RegistryEvent Service Handler))
    (registry : ServiceRegistry Service Handler) : Prop where
  /-- Each name under which a service was registered is listed once, and no other. -/
  services_once : ∀ name, (registry.listServices.map ServiceDescriptor.name).count name =
    if (first (RegistryEvent.service names) name events).isSome then 1 else 0
  /-- A descriptor lists the methods of the first service of its name, each once. -/
  methods_once : ∀ descriptor ∈ registry.listServices, ∃ service,
    first (RegistryEvent.service names) descriptor.name events = some service ∧
      ∀ method, descriptor.methods.count method =
        if (last (RegistryEvent.methodOf service) method events).isSome then 1 else 0
  dispatched : ∀ (behave : Handler → List UInt8 → HandlerOutcome) request,
    registry.Advertised request.serviceName request.methodName ↔
      (Dispatcher.dispatch behave registry.table request).status ≠ .notFound
  found : ∀ name, registry.findService name = first (RegistryEvent.service names) name events
  refused : ∀ service, (registry.findService (names service)).isSome →
    registry.registerService service = (some (.ibridger .alreadyRegistered), registry)
  handled : ∀ service method, (registry.objects service).getMethod method =
    (last (RegistryEvent.methodOf service) method events).join

variable {names : Service → String} {events : List (RegistryEvent Service Handler)}
  {registry : ServiceRegistry Service Handler}

theorem fresh_follows : (fresh names : ServiceRegistry Service Handler).Follows names [] where
  named _ := rfl
  found _ := rfl
  handled _ _ := rfl

theorem after_concat (names : Service → String) (events : List (RegistryEvent Service Handler))
    (event : RegistryEvent Service Handler) :
    after names (events ++ [event]) = (after names events).step event := by
  rw [after, List.foldl_append]
  rfl

namespace Follows

/-- Registering a method changes the handlers of one service. -/
theorem registerMethod (hfollows : registry.Follows names events) (service : Service)
    (method : String) (handler : Option Handler) :
    (registry.step (.registerMethod service method handler)).Follows names
      (events ++ [.registerMethod service method handler]) := by
  constructor
  · intro other
    by_cases hother : other = service
    · subst hother
      simp only [step, Function.update_self]
      exact hfollows.named other
    · simp only [step, Function.update_of_ne hother]
      exact hfollows.named other
  · intro name
    rw [first_concat, under_of_none rfl, Option.or_none]
    exact hfollows.found name
  · intro other name
    rw [last_concat, ← hfollows.handled]
    -- the handlers of the other services stay
    by_cases hother : other = service
    · subst hother
      have hregisters : RegistryEvent.methodOf other (.registerMethod other method handler) =
          some (method, handler) := if_pos rfl
      rw [under_of_some hregisters]
      simp only [step, Function.update_self, ServiceBase.registerMethod]
      rw [lookup_insert]
      split
      · rfl
      · rfl
    · have hregisters : RegistryEvent.methodOf other (.registerMethod service method handler) =
          none := if_neg (Ne.symm hother)
      rw [under_of_none hregisters]
      simp only [step, Function.update_of_ne hother]
      rfl

/-- Registering a service changes what is found under its name, unless that is taken. -/
theorem registerService (hfollows : registry.Follows names events) (service : Service) :
    (registry.step (.registerService service)).Follows names
      (events ++ [.registerService service]) := by
  have hobjects : (registry.registerService service).2.objects = registry.objects := by
    unfold ServiceRegistry.registerService
    split
    · rfl
    · rfl
  constructor
  · intro other
    simp only [step, hobjects]
    exact hfollows.named other
  · intro name
    have hregisters : RegistryEvent.service names (.registerService service :
        RegistryEvent Service Handler) = some (names service, service) := rfl
    rw [first_concat, ← hfollows.found, under_of_some hregisters]
    simp only [step, ServiceRegistry.registerService, hfollows.named, findService]
    split
    -- a refused service is not found, not even behind the first
    next htaken => exact (lookup_or_of_mem htaken).symm
    next hfree => exact lookup_insert_of_notMem hfree
  · intro other name
    rw [last_concat, under_of_none rfl, ← hfollows.handled]
    simp only [step, hobjects]
    rfl

theorem after (names : Service → String) (events : List (RegistryEvent Service Handler)) :
    (after names events).Follows names events := by
  induction events using List.reverseRecOn with
  | nil => exact fresh_follows
  | append_singleton events event ih =>
      rw [after_concat]
      cases event with
      | registerMethod service method handler => exact ih.registerMethod service method handler
      | registerService service => exact ih.registerService service

end Follows

omit [DecidableEq Service] in
theorem mem_listServices {descriptor : ServiceDescriptor} :
    descriptor ∈ registry.listServices ↔ ∃ service,
      registry.findService descriptor.name = some service ∧
        descriptor.methods = (registry.objects service).methodNames := by
  unfold listServices findService
  rw [Multiset.mem_map]
  constructor
  · rintro ⟨⟨name, service⟩, hentry, rfl⟩
    exact ⟨service, Finmap.lookup_eq_some_iff.mpr hentry, rfl⟩
  · rintro ⟨service, hfound, hmethods⟩
    refine ⟨⟨descriptor.name, service⟩, Finmap.lookup_eq_some_iff.mp hfound, ?_⟩
    rw [← hmethods]

omit [DecidableEq Service] in
theorem advertised_iff {name method : String} :
    registry.Advertised name method ↔ ∃ service, registry.findService name = some service ∧
      method ∈ (registry.objects service).methodNames := by
  unfold Advertised
  constructor
  · rintro ⟨descriptor, hlisted, rfl, hmethod⟩
    obtain ⟨service, hfound, hmethods⟩ := mem_listServices.mp hlisted
    exact ⟨service, hfound, hmethods ▸ hmethod⟩
  · rintro ⟨service, hfound, hmethod⟩
    exact ⟨⟨name, _⟩, mem_listServices.mpr ⟨service, hfound, rfl⟩, rfl, hmethod⟩

/-- A handler that can be called is found if it is listed. -/
theorem Follows.getMethod_isSome (hfollows : registry.Follows names events)
    (hcallable : ∀ event ∈ events, event.Callable) (service : Service) (method : String) :
    ((registry.objects service).getMethod method).isSome ↔
      method ∈ (registry.objects service).methodNames := by
  rw [(registry.objects service).mem_methodNames, ← Finmap.lookup_isSome, ServiceBase.getMethod]
  cases hlookup : (registry.objects service).handlers.lookup method with
  | none => simp
  | some handler =>
      rw [hfollows.handled] at hlookup
      obtain ⟨event, hevent, hregisters⟩ := exists_of_last hlookup
      have hsome : handler.isSome := by
        cases event with
        | registerService other => cases hregisters
        | registerMethod other name registered =>
            rw [RegistryEvent.methodOf, Option.ite_none_right_eq_some] at hregisters
            cases hregisters.2
            exact hcallable _ hevent
      simp [hsome]

/-- After any calls that register callable handlers and services, listing, lookup and
dispatch agree. -/
theorem after_coherent (names : Service → String) (events : List (RegistryEvent Service Handler))
    (hcallable : ∀ event ∈ events, event.Callable) :
    (after names events).Coherent names events := by
  have hfollows := Follows.after names events
  constructor
  · intro name
    have hnames : (after names events).listServices.map ServiceDescriptor.name =
        (after names events).services.entries.map Sigma.fst := by
      rw [listServices, Multiset.map_map]
      rfl
    rw [hnames, count_keys, ← hfollows.found]
    rfl
  · intro descriptor hlisted
    obtain ⟨service, hfound, hmethods⟩ := mem_listServices.mp hlisted
    refine ⟨service, hfollows.found _ ▸ hfound, ?_⟩
    intro method
    rw [hmethods, ServiceBase.count_methodNames, hfollows.handled]
  · intro behave request
    rw [advertised_iff, ne_eq, Dispatcher.dispatch_notFound_iff, ServiceTable.resolve, table]
    cases hfound : (after names events).findService request.serviceName with
    | none => simp
    | some service =>
        have hmethod := hfollows.getMethod_isSome hcallable service request.methodName
        simp [← hmethod, Option.isSome_iff_ne_none]
  · exact hfollows.found
  · intro service htaken
    have hmem : names service ∈ (after names events).services := Finmap.lookup_isSome.mp htaken
    rw [registerService, hfollows.named, if_pos hmem]
  · intro service method
    rw [ServiceBase.getMethod, hfollows.handled]

/-- Two services of one name, and a handler that is replaced behind their registration. -/
theorem after_coherent_duplicate :
    let names : Bool → String := fun _ => "ibridger.Echo"
    let events : List (RegistryEvent Bool Nat) :=
      [.registerMethod false "Echo" (some 0), .registerService false, .registerService true,
        .registerMethod false "Echo" (some 1)]
    (∀ event ∈ events, event.Callable) ∧ (after names events).Coherent names events := by
  intro names events
  have hcallable : ∀ event ∈ events, event.Callable := by
    simp [events, RegistryEvent.Callable]
  exact ⟨hcallable, after_coherent names events hcallable⟩

end ServiceRegistry

end Ibridger.Cpp
