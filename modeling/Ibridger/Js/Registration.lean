import Ibridger.Foundation.Registration
import Ibridger.Js.Dispatch

/-! # The services of the JS server

`register`, `registerBuiltinPing` and the constructor of `IBridgerServer` in `server.ts`.
Registering a service again merges its methods into those that are there, so a method
belongs to the last definition that has it.
-/

namespace Ibridger.Js

open Registration Rpc Wire

def PING_SERVICE_NAME : String := "ibridger.Ping"

def PING_METHOD_NAME : String := "Ping"

/-- A name and a `ServiceDefinition`, by its `Object.entries`. A handler that is `undefined`
is `none`. -/
structure ServiceDefinition (Handler : Type) where
  name : String
  methods : List (String × Option Handler)

/-- `services`, a `Map` of `Map`s. -/
abbrev ServiceMap (Handler : Type) : Type :=
  Finmap fun _ : String => Finmap fun _ : String => Option Handler

namespace ServiceDefinition

variable {Handler : Type}

/-- What the object has for a method. -/
def handler (definition : ServiceDefinition Handler) (method : String) : Option (Option Handler) :=
  last some method definition.methods

/-- What the definition sets a method of a service to. -/
def sets (name method : String) (definition : ServiceDefinition Handler) :
    Option (Option Handler) :=
  if definition.name = name then definition.handler method else none

/-- The built-in service. -/
def ping (handler : Handler) : ServiceDefinition Handler where
  name := PING_SERVICE_NAME
  methods := [(PING_METHOD_NAME, some handler)]

end ServiceDefinition

namespace ServiceMap

variable {Handler : Type} {services : ServiceMap Handler}

def register (services : ServiceMap Handler) (definition : ServiceDefinition Handler) :
    ServiceMap Handler :=
  let existing := (services.lookup definition.name).getD ∅
  services.insert definition.name
    (definition.methods.foldl (fun existing entry => existing.insert entry.1 entry.2) existing)

/-- The constructor; `registerBuiltins` is `none` where the configuration lacks it. -/
def construct (registerBuiltins : Option Bool) (ping : Handler) : ServiceMap Handler :=
  if registerBuiltins ≠ some false then (∅ : ServiceMap Handler).register (.ping ping) else ∅

/-- What `dispatch` finds. -/
def table (services : ServiceMap Handler) : ServiceTable Handler := fun name =>
  (services.lookup name).map fun methods method => (methods.lookup method).join

/-- What is there for a method of a service. -/
def entry (services : ServiceMap Handler) (name method : String) : Option (Option Handler) :=
  (services.lookup name).bind fun methods => methods.lookup method

theorem table_resolve (services : ServiceMap Handler) (request : Envelope) :
    services.table.resolve request =
      (services.entry request.serviceName request.methodName).join := by
  rw [ServiceTable.resolve, table, entry]
  cases services.lookup request.serviceName with
  | none => rfl
  | some methods => rfl

/-! ## Registering -/

/-- Entries that are set one after the other. -/
theorem lookup_setAll (existing : Finmap fun _ : String => Option Handler)
    (entries : List (String × Option Handler)) (method : String) :
    (entries.foldl (fun existing entry => existing.insert entry.1 entry.2) existing).lookup method =
      (last some method entries).or (existing.lookup method) := by
  induction entries using List.reverseRecOn with
  | nil => rfl
  | append_singleton entries entry ih =>
      have hentry : some entry = some (entry.1, entry.2) := rfl
      rw [List.foldl_append, List.foldl_cons, List.foldl_nil, lookup_insert, last_concat,
        under_of_some hentry, Option.or_assoc, ih]
      split
      · rfl
      · rfl

theorem register_entry (services : ServiceMap Handler) (definition : ServiceDefinition Handler)
    (name method : String) : (services.register definition).entry name method =
      (definition.sets name method).or (services.entry name method) := by
  rw [entry, register, lookup_insert, ServiceDefinition.sets]
  split
  next hname =>
    rw [Option.bind_some, lookup_setAll, entry, ← hname, ServiceDefinition.handler]
    cases services.lookup definition.name with
    | none => rfl
    | some methods => rfl
  next => rfl

/-- The last definition that has a method counts. -/
theorem registerAll_entry (services : ServiceMap Handler)
    (definitions : List (ServiceDefinition Handler)) (name method : String) :
    (definitions.foldl register services).entry name method =
      (definitions.reverse.findSome? (ServiceDefinition.sets name method)).or
        (services.entry name method) := by
  induction definitions using List.reverseRecOn with
  | nil => rfl
  | append_singleton definitions definition ih =>
      rw [List.foldl_append, List.foldl_cons, List.foldl_nil, register_entry, ih,
        List.reverse_concat, List.findSome?_cons]
      cases definition.sets name method with
      | none => rfl
      | some handler => rfl

end ServiceMap

end Ibridger.Js
