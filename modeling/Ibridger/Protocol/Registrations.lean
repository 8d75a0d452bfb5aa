import Ibridger.Cpp.ServerBuilder
import Ibridger.Js.Registration

/-! # The same services on both servers

A list of service definitions, registered in order on a JS server and on a C++ server. The
JS server merges definitions of one name, and the C++ server drops all but the first one,
be it the built-in service.
-/

namespace Ibridger.Protocol

open Js (ServiceDefinition ServiceMap)
open Rpc Wire

variable {Handler : Type}

/-- The handler of a method on the JS server. -/
def latest (definitions : List (ServiceDefinition Handler)) (name method : String) :
    Option Handler :=
  (definitions.reverse.findSome? (ServiceDefinition.sets name method)).join

/-- The handler of a method on the C++ server. -/
def earliest (definitions : List (ServiceDefinition Handler)) (name method : String) :
    Option Handler :=
  (definitions.find? fun definition => definition.name = name).bind
    fun definition => (definition.handler method).join

/-- What the last definition with a method says of it, the first definition of the service
says as well. The definitions in between may say something else. -/
def Repeats (definitions : List (ServiceDefinition Handler)) : Prop :=
  ∀ before definition after, definitions = before ++ definition :: after →
    ∀ first, (before.find? fun other => other.name = definition.name) = some first →
      ∀ method handler, definition.handler method = some handler →
        (∀ later ∈ after, later.name = definition.name → later.handler method = none) →
          (first.handler method).join = handler

variable {definitions before after : List (ServiceDefinition Handler)}
  {definition : ServiceDefinition Handler} {name method : String} {handler : Option Handler}

theorem sets_eq_some : definition.sets name method = some handler ↔
    definition.name = name ∧ definition.handler method = some handler := by
  rw [ServiceDefinition.sets, Option.ite_none_right_eq_some]

theorem latest_of_split (hsplit : definitions = before ++ definition :: after)
    (hhandler : definition.sets name method = some handler)
    (hlater : ∀ later ∈ after, later.sets name method = none) :
    latest definitions name method = handler := by
  have hfound : definitions.reverse.findSome? (ServiceDefinition.sets name method) =
      some handler := by
    refine List.findSome?_eq_some_iff.mpr
      ⟨after.reverse, definition, before.reverse, ?_, hhandler, ?_⟩
    · rw [hsplit, List.reverse_append, List.reverse_cons, List.append_assoc,
        List.singleton_append]
    · exact fun later hmem => hlater later (List.mem_reverse.mp hmem)
  rw [latest, hfound, Option.join_some]

theorem earliest_of_find {first : ServiceDefinition Handler}
    (hsplit : definitions = before ++ definition :: after)
    (hfirst : (before.find? fun other => other.name = name) = some first) :
    earliest definitions name method = (first.handler method).join := by
  rw [earliest, hsplit, List.find?_append, hfirst, Option.some_or, Option.bind_some]

/-- The last word of the definitions on every method is the first one exactly if they
repeat it. -/
theorem latest_eq_earliest_iff (definitions : List (ServiceDefinition Handler)) :
    (∀ name method, latest definitions name method = earliest definitions name method) ↔
      Repeats definitions := by
  constructor
  · intro hsame before definition after hsplit first hfirst method handler hhandler hlater
    have hlatest : latest definitions definition.name method = handler := by
      refine latest_of_split hsplit (sets_eq_some.mpr ⟨rfl, hhandler⟩) ?_
      intro later hmem
      rw [ServiceDefinition.sets]
      split
      next hname => exact hlater later hmem hname
      next => rfl
    rw [← earliest_of_find hsplit hfirst, ← hsame, hlatest]
  · intro hrepeats name method
    cases hfound : definitions.reverse.findSome? (ServiceDefinition.sets name method) with
    | none =>
        rw [latest, hfound, Option.join_none, earliest]
        symm
        cases hfirst : definitions.find? fun definition => definition.name = name with
        | none => rfl
        | some first =>
            have hname : first.name = name := by simpa using List.find?_some hfirst
            have hnone := List.findSome?_eq_none_iff.mp hfound first
              (List.mem_reverse.mpr (List.mem_of_find?_eq_some hfirst))
            rw [ServiceDefinition.sets, if_pos hname] at hnone
            rw [Option.bind_some, hnone, Option.join_none]
    | some handler =>
        obtain ⟨front, definition, back, hsplit, hhandler, hnone⟩ :=
          List.findSome?_eq_some_iff.mp hfound
        have hdefinitions : definitions = back.reverse ++ definition :: front.reverse := by
          rw [← List.reverse_reverse definitions, hsplit]
          simp
        have hlatest := latest_of_split hdefinitions hhandler
          fun later hmem => hnone later (List.mem_reverse.mp hmem)
        obtain ⟨hname, hown⟩ := sets_eq_some.mp hhandler
        rw [hlatest]
        cases hfirst : back.reverse.find? fun other => other.name = name with
        | none =>
            have hhead : ((definition :: front.reverse).find? fun other => other.name = name) =
                some definition := List.find?_cons_of_pos (decide_eq_true hname)
            rw [earliest, hdefinitions, List.find?_append, hfirst, Option.none_or, hhead,
              Option.bind_some, hown, Option.join_some]
        | some first =>
            rw [earliest_of_find hdefinitions hfirst]
            refine (hrepeats back.reverse definition front.reverse hdefinitions first ?_ method
              handler hown ?_).symm
            · rw [hname, hfirst]
            · intro later hmem hsame
              have hlater := hnone later (List.mem_reverse.mp hmem)
              rwa [ServiceDefinition.sets, if_pos (hsame.trans hname)] at hlater

/-! ## The servers -/

/-- The C++ service whose constructor registers the methods of a definition. -/
def service (definition : ServiceDefinition Handler) : Cpp.ServiceBase Handler :=
  definition.methods.foldl (fun service entry => service.registerMethod entry.1 entry.2)
    (.ofName definition.name)

theorem registerAll_methods (service : Cpp.ServiceBase Handler)
    (methods : List (String × Option Handler)) :
    (methods.foldl (fun service entry => service.registerMethod entry.1 entry.2) service).name =
        service.name ∧
      ∀ method, (methods.foldl (fun service entry => service.registerMethod entry.1 entry.2)
          service).handlers.lookup method =
        (Registration.last some method methods).or (service.handlers.lookup method) := by
  induction methods using List.reverseRecOn with
  | nil => exact ⟨rfl, fun _ => rfl⟩
  | append_singleton methods entry ih =>
      have hentry : some entry = some (entry.1, entry.2) := rfl
      rw [List.foldl_append, List.foldl_cons, List.foldl_nil]
      refine ⟨ih.1, ?_⟩
      intro method
      rw [Registration.last_concat, Registration.under_of_some hentry, Option.or_assoc, ← ih.2,
        Cpp.ServiceBase.registerMethod, Registration.lookup_insert]
      split
      · rfl
      · rfl

theorem service_name (definition : ServiceDefinition Handler) :
    (service definition).name = definition.name :=
  (registerAll_methods _ _).1

theorem service_getMethod (definition : ServiceDefinition Handler) (method : String) :
    (service definition).getMethod method = (definition.handler method).join := by
  rw [Cpp.ServiceBase.getMethod, service, (registerAll_methods _ _).2]
  exact congrArg Option.join (Option.or_none ..)

/-- The definitions of a server with the built-in service or without it. -/
def withPing (builtins : Bool) (ping : Handler) (definitions : List (ServiceDefinition Handler)) :
    List (ServiceDefinition Handler) :=
  (if builtins then [.ping ping] else []) ++ definitions

theorem js_resolve (builtins : Bool) (ping : Handler)
    (definitions : List (ServiceDefinition Handler)) (request : Envelope) :
    (definitions.foldl ServiceMap.register (.construct (some builtins) ping)).table.resolve
        request =
      latest (withPing builtins ping definitions) request.serviceName request.methodName := by
  have hconstruct : ServiceMap.construct (some builtins) ping =
      (if builtins then [ServiceDefinition.ping ping] else []).foldl ServiceMap.register ∅ := by
    cases builtins with
    | false => rfl
    | true => rfl
  rw [hconstruct, ← List.foldl_append, ← withPing, ServiceMap.table_resolve,
    ServiceMap.registerAll_entry, latest]
  exact congrArg Option.join (Option.or_none ..)

/-- The built-in service has a definition as well. -/
theorem withBuiltin_eq {Service : Type} (define : Service → ServiceDefinition Handler)
    (ping : Handler) (added : Option Service) :
    Cpp.ServiceRegistry.withBuiltin (fun added => service (define added)) ping added =
      service (added.elim (.ping ping) define) := by
  cases added with
  | none => rfl
  | some added => rfl

theorem cpp_resolve {Service : Type} {define : Service → ServiceDefinition Handler}
    {ping : Handler} {builder : Cpp.ServerBuilder Service} {server : Cpp.Server}
    {registry : Cpp.ServiceRegistry (Option Service) Handler}
    (hbuild : builder.build (fun added => service (define added)) ping = .ok (server, registry))
    (request : Envelope) : registry.table.resolve request =
      earliest (withPing builder.registerBuiltins ping (builder.services.map define))
        request.serviceName request.methodName := by
  obtain ⟨hobjects, hfound⟩ := Cpp.ServerBuilder.build_finds hbuild
  have hdefinitions : withPing builder.registerBuiltins ping (builder.services.map define) =
      builder.registered.map fun added => added.elim (.ping ping) define := by
    rw [withPing, Cpp.ServerBuilder.registered, List.map_append, List.map_map]
    cases builder.registerBuiltins with
    | false => rfl
    | true => rfl
  rw [ServiceTable.resolve, Cpp.ServiceRegistry.table, hfound, hobjects, earliest, hdefinitions,
    List.find?_map]
  simp only [withBuiltin_eq, service_name, Function.comp_def]
  cases builder.registered.find? fun added =>
      (added.elim (.ping ping) define : ServiceDefinition Handler).name = request.serviceName with
  | none => rfl
  | some added => exact service_getMethod _ _

/-- A JS server and a C++ server with the same definitions, registered in the same order
with or without the built-in service, have the same handler for every request exactly if
the first definition of a service says of each method what the last one with it says. -/
theorem registrations_agree_iff {Service : Type} (define : Service → ServiceDefinition Handler)
    (ping : Handler) (calls : List (Cpp.BuilderCall Service)) {server : Cpp.Server}
    {registry : Cpp.ServiceRegistry (Option Service) Handler}
    (hbuild : (Cpp.ServerBuilder.after calls).build (fun added => service (define added)) ping =
      .ok (server, registry)) :
    let definitions := (calls.filterMap Cpp.BuilderCall.added).map define
    let builtins := (Cpp.ServerBuilder.after calls).registerBuiltins
    (∀ request, (definitions.foldl ServiceMap.register
        (.construct (some builtins) ping)).table.resolve request =
      registry.table.resolve request) ↔ Repeats (withPing builtins ping definitions) := by
  intro definitions builtins
  have hservices : (Cpp.ServerBuilder.after calls).services.map define = definitions := by
    rw [Cpp.ServerBuilder.after_services]
  rw [← latest_eq_earliest_iff]
  constructor
  · intro hsame name method
    have hrequest := hsame { Envelope.empty with serviceName := name, methodName := method }
    rw [js_resolve, cpp_resolve hbuild, hservices] at hrequest
    exact hrequest
  · intro hsame request
    rw [js_resolve, cpp_resolve hbuild, hservices]
    exact hsame _ _

/-- JS puts a service of this name in the place of the built-in one, and C++ drops it. -/
theorem ping_replaced_in_js_only :
    let replaced : ServiceDefinition Bool := ⟨"ibridger.Ping", [("Ping", some true)]⟩
    ∃ server registry, (Cpp.ServerBuilder.after [.setEndpoint [47], .addService ()]).build
        (fun _ => service replaced) false = .ok (server, registry) ∧
      ¬ ∀ request, ([replaced].foldl ServiceMap.register
          (.construct (some true) false)).table.resolve request =
        registry.table.resolve request := by
  intro replaced
  refine ⟨_, _, rfl, ?_⟩
  intro hsame
  have hrepeats := (registrations_agree_iff (fun _ => replaced) false
    [.setEndpoint [47], .addService ()] rfl).mp hsame
  have hfirst := hrepeats [.ping false] replaced [] rfl (.ping false) rfl "Ping" (some true) rfl
    fun later hmem => absurd hmem List.not_mem_nil
  cases hfirst

end Ibridger.Protocol
