import Ibridger.Js.LateResponses
import Ibridger.Js.Replies

/-! # Typed methods

`typedMethod` of `server.ts` and the typed side of `call`: handlers on messages,
and what the caller of a method gets to see of its handler.
-/

namespace Ibridger.Js

open Rpc Wire

/-- The class that protobuf.js generates for a message. Both functions may throw. -/
structure ProtoType (Message : Type) where
  encode : Message → Except String (List UInt8)
  decode : List UInt8 → Except String Message

/-- Decoding gives back what was encoded. -/
def ProtoType.Inverse {Message : Type} (type : ProtoType Message) : Prop :=
  ∀ message bytes, type.encode message = .ok bytes → type.decode bytes = .ok message

/-- How the promise of a typed handler settles, with `e.message` or `String(e)`
for a rejection. -/
abbrev TypedHandler (Req Resp : Type) : Type :=
  Req → Except String Resp

def typedMethod {Req Resp : Type} (reqType : ProtoType Req) (respType : ProtoType Resp)
    (handler : TypedHandler Req Resp) : MethodHandler := fun payload =>
  match reqType.decode payload with
  | .error message => .threw message
  | .ok req =>
      match handler req with
      | .error message => .threw message
      | .ok resp =>
          match respType.encode resp with
          | .error message => .threw message
          | .ok bytes => .returned bytes

/-- `typedMethod` with the messages that the handler is called with. -/
def typedCalls {Req Resp : Type} (reqType : ProtoType Req) (respType : ProtoType Resp)
    (handler : TypedHandler Req Resp) (payload : List UInt8) : List Req × HandlerOutcome :=
  ((reqType.decode payload).toOption.toList, typedMethod reqType respType handler payload)

theorem typedCalls_snd {Req Resp : Type} (reqType : ProtoType Req) (respType : ProtoType Resp)
    (handler : TypedHandler Req Resp) (payload : List UInt8) :
    (typedCalls reqType respType handler payload).2 =
      typedMethod reqType respType handler payload := rfl

section

variable {Req Resp : Type} {reqType : ProtoType Req} {handler : TypedHandler Req Resp}
  {payload : List UInt8} {message : String}

theorem typedCalls_of_malformed (respType : ProtoType Resp) (handler : TypedHandler Req Resp)
    (hdecode : reqType.decode payload = .error message) :
    typedCalls reqType respType handler payload = ([], .threw message) := by
  rw [typedCalls, typedMethod, hdecode]
  rfl

theorem typedCalls_of_failed (respType : ProtoType Resp) {req : Req}
    (hdecode : reqType.decode payload = .ok req) (hthrows : handler req = .error message) :
    typedCalls reqType respType handler payload = ([req], .threw message) := by
  rw [typedCalls, typedMethod, hdecode]
  dsimp only
  rw [hthrows]
  rfl

end

/-- A request that names a handler is answered with what the handler does. -/
theorem Dispatch.reply_of_resolve {services : ServiceTable MethodHandler} {request : Envelope}
    {handler : MethodHandler} (hresolve : services.resolve request = some handler) :
    reply services request = respond request (handler request.payload) := by
  unfold reply
  cases hlocate : locate services request with
  | error response =>
      rw [(of_locate_error hlocate).1] at hresolve
      cases hresolve
  | ok located =>
      rw [resolve_of_locate_ok hlocate] at hresolve
      cases hresolve
      rfl

/-- What is answered when a handler did not return a value. -/
theorem Dispatch.respond_of_threw (request : Envelope) (message : String) :
    (respond request (.threw message)).type = .error ∧
      (respond request (.threw message)).status = .internal ∧
      (respond request (.threw message)).requestId = request.requestId :=
  ⟨rfl, rfl, rfl⟩

/-- The message types of the methods, which callers and handlers share. -/
structure MethodTypes where
  Req : String → String → Type
  Resp : String → String → Type
  reqType : ∀ service method, ProtoType (Req service method)
  respType : ∀ service method, ProtoType (Resp service method)

/-- What a handler that is called in place comes to. -/
inductive LocalResult (Resp : Type) where
  | returned (value : Resp)
  | threw (message : String)
  | unregistered

namespace MethodTypes

variable (types : MethodTypes)

structure Inverse : Prop where
  reqType : ∀ service method, (types.reqType service method).Inverse
  respType : ∀ service method, (types.respType service method).Inverse

/-- The typed handlers of the registered services. -/
abbrev Handlers : Type :=
  ∀ service, Option (∀ method,
    Option (TypedHandler (types.Req service method) (types.Resp service method)))

/-- What a user calls `call` with. -/
structure Invocation where
  service : String
  method : String
  request : types.Req service method

variable {types}

/-- The table of the server once every handler is wrapped and registered. -/
def Handlers.services (handlers : types.Handlers) : ServiceTable MethodHandler := fun service =>
  (handlers service).map fun methods method =>
    (methods method).map (typedMethod (types.reqType service method) (types.respType service method))

/-- The handler is called in place. -/
def Handlers.callLocally (handlers : types.Handlers) (call : types.Invocation) :
    LocalResult (types.Resp call.service call.method) :=
  match handlers call.service with
  | none => .unregistered
  | some methods =>
      match methods call.method with
      | none => .unregistered
      | some handler =>
          match handler call.request with
          | .ok value => .returned value
          | .error message => .threw message

/-- The value that the handler returns for the call, if any, can be encoded. -/
def Handlers.Encodes (handlers : types.Handlers) (call : types.Invocation) : Prop :=
  ∀ value, handlers.callLocally call = .returned value →
    ∃ bytes, (types.respType call.service call.method).encode value = .ok bytes

def Invocation.encoded (call : types.Invocation) : Except String (List UInt8) :=
  (types.reqType call.service call.method).encode call.request

/-- The envelope is a request of the call. -/
structure Invocation.Requests (call : types.Invocation) (request : Envelope) : Prop where
  serviceName_eq : request.serviceName = call.service
  methodName_eq : request.methodName = call.method
  encoded_eq : call.encoded = .ok request.payload

/-- A value that one of the calls resolves with. -/
abbrev Returned (calls : Nat → types.Invocation) : Type :=
  Σ i, types.Resp (calls i).service (calls i).method

/-- `respType.decode` of a call. -/
def decode (calls : Nat → types.Invocation) (i : Nat) (payload : List UInt8) :
    Except String (Returned calls) :=
  ((types.respType (calls i).service (calls i).method).decode payload).map fun value => ⟨i, value⟩

variable {calls : Nat → types.Invocation}

/-- A remote call comes to what the local one comes to: it resolves with the
value, or it is rejected with what was thrown or for want of a handler. -/
structure SameAsLocal (handlers : types.Handlers) (i : Nat)
    (result : Except CallError (Returned calls)) : Prop where
  resolved_iff : ∀ value, result = .ok ⟨i, value⟩ ↔
    handlers.callLocally (calls i) = .returned value
  notFound_iff : (∃ message, result = .error (.rpc .notFound message)) ↔
    handlers.callLocally (calls i) = .unregistered
  internal_iff : (∃ message, result = .error (.rpc .internal message)) ↔
    ∃ message, handlers.callLocally (calls i) = .threw message
  message_eq : ∀ message, message ≠ "" → handlers.callLocally (calls i) = .threw message →
    result = .error (.rpc .internal message)

/-- What reaches the caller. -/
inductive Reaches (calls : Nat → types.Invocation) (i : Nat) :
    LocalResult (types.Resp (calls i).service (calls i).method) →
      Except CallError (Returned calls) → Prop where
  | returned (value : types.Resp (calls i).service (calls i).method) :
      Reaches calls i (.returned value) (.ok ⟨i, value⟩)
  | threw (message : String) :
      Reaches calls i (.threw message)
        (.error (.rpc .internal (if message = "" then "Internal server error" else message)))
  | unregistered (message : String) :
      Reaches calls i .unregistered (.error (.rpc .notFound message))

theorem Reaches.sameAsLocal {handlers : types.Handlers} {i : Nat}
    {result : Except CallError (Returned calls)}
    (hreaches : Reaches calls i (handlers.callLocally (calls i)) result) :
    SameAsLocal handlers i result := by
  generalize hlocal : handlers.callLocally (calls i) = here at hreaches
  cases hreaches with
  | returned value =>
      constructor <;> rw [hlocal]
      · intro other
        constructor
        · rintro ⟨⟩
          rfl
        · rintro ⟨⟩
          rfl
      · exact ⟨fun ⟨_, h⟩ => (by cases h), fun h => (by cases h)⟩
      · exact ⟨fun ⟨_, h⟩ => (by cases h), fun ⟨_, h⟩ => (by cases h)⟩
      · rintro message - ⟨⟩
  | threw message =>
      constructor <;> rw [hlocal]
      · exact fun value => ⟨fun h => (by cases h), fun h => (by cases h)⟩
      · exact ⟨fun ⟨_, h⟩ => (by cases h), fun h => (by cases h)⟩
      · exact ⟨fun _ => ⟨message, rfl⟩, fun _ => ⟨_, rfl⟩⟩
      · rintro other hother ⟨⟩
        rw [if_neg hother]
  | unregistered message =>
      constructor <;> rw [hlocal]
      · exact fun value => ⟨fun h => (by cases h), fun h => (by cases h)⟩
      · exact ⟨fun _ => rfl, fun _ => ⟨message, rfl⟩⟩
      · exact ⟨fun ⟨_, h⟩ => (by cases h), fun ⟨_, h⟩ => (by cases h)⟩
      · rintro other - ⟨⟩

/-- The wrapped handler on an encoded request. -/
theorem typedMethod_encoded (htypes : types.Inverse) {call : types.Invocation}
    {payload : List UInt8} (hencoded : call.encoded = .ok payload)
    (handler : TypedHandler (types.Req call.service call.method)
      (types.Resp call.service call.method))
    (hencodes : ∀ value, handler call.request = .ok value →
      ∃ bytes, (types.respType call.service call.method).encode value = .ok bytes) :
    (∃ message, handler call.request = .error message ∧
        typedMethod (types.reqType _ _) (types.respType _ _) handler payload = .threw message) ∨
      ∃ value bytes, handler call.request = .ok value ∧
        (types.respType call.service call.method).decode bytes = .ok value ∧
        typedMethod (types.reqType _ _) (types.respType _ _) handler payload =
          .returned bytes := by
  unfold typedMethod
  rw [htypes.reqType _ _ _ _ hencoded]
  dsimp only
  cases hhandler : handler call.request with
  | error message => exact .inl ⟨message, rfl, rfl⟩
  | ok value =>
      obtain ⟨response, hresponse⟩ := hencodes value hhandler
      refine .inr ⟨value, response, rfl, htypes.respType _ _ _ _ hresponse, ?_⟩
      dsimp only
      rw [hresponse]

theorem append_ne_empty {first : String} (hfirst : first ≠ "") (second : String) :
    first ++ second ≠ "" := by
  intro hempty
  exact hfirst (String.append_eq_empty_iff.mp hempty).1

/-- What the server finds for the request of a call. -/
theorem locate_services (handlers : types.Handlers) {call : types.Invocation} {request : Envelope}
    (hrequests : call.Requests request) :
    (handlers.callLocally call = .unregistered ∧ ∃ message, message ≠ "" ∧
        Dispatch.locate handlers.services request =
          .error (Dispatch.errorEnvelope request .notFound message)) ∨
      ∃ handler, handlers.callLocally call =
          (match handler call.request with
          | .ok value => .returned value
          | .error message => .threw message) ∧
        Dispatch.locate handlers.services request =
          .ok (typedMethod (types.reqType _ _) (types.respType _ _) handler) := by
  unfold Dispatch.locate Handlers.services Handlers.callLocally
  rw [hrequests.serviceName_eq, hrequests.methodName_eq]
  cases handlers call.service with
  | none => exact .inl ⟨rfl, _, append_ne_empty (by decide) _, rfl⟩
  | some methods =>
      dsimp only [Option.map_some]
      cases methods call.method with
      | none =>
          refine .inl ⟨rfl, _, ?_, rfl⟩
          rw [String.append_assoc, String.append_assoc]
          exact append_ne_empty (by decide) _
      | some handler => exact .inr ⟨handler, rfl, rfl⟩

theorem outcome_errorEnvelope {Value : Type} (parse : List UInt8 → Except String Value)
    (request : Envelope) {status : StatusCode} (hstatus : status ≠ .ok) {message : String}
    (hmessage : message ≠ "") :
    Client.outcome parse (Dispatch.errorEnvelope request status message) =
      .error (.rpc status message) := by
  rw [Client.outcome, Dispatch.errorEnvelope, if_pos hstatus, if_neg hmessage]

/-- The response to the request of a call brings what the local call comes to. -/
theorem reaches_outcome (htypes : types.Inverse) (handlers : types.Handlers) {i : Nat}
    {request : Envelope} (hrequests : (calls i).Requests request)
    (hencodes : handlers.Encodes (calls i)) :
    Reaches calls i (handlers.callLocally (calls i))
      (Client.outcome (decode calls i) (Dispatch.reply handlers.services request)) := by
  rcases locate_services handlers hrequests with ⟨hlocal, message, hmessage, hlocate⟩ |
    ⟨handler, hlocal, hlocate⟩
  · rw [hlocal, Dispatch.reply, hlocate]
    dsimp only
    rw [outcome_errorEnvelope _ _ (by decide) hmessage]
    exact .unregistered message
  · rw [hlocal, Dispatch.reply, hlocate]
    dsimp only
    have hvalues : ∀ value, handler (calls i).request = .ok value →
        ∃ bytes, (types.respType (calls i).service (calls i).method).encode value = .ok bytes := by
      intro value hvalue
      apply hencodes
      rw [hlocal, hvalue]
    rcases typedMethod_encoded htypes hrequests.encoded_eq handler hvalues with
      ⟨message, hhandler, hthrew⟩ | ⟨value, bytes, hhandler, hvalue, hreturned⟩
    · rw [hhandler, hthrew, Dispatch.respond]
      -- the message that the server puts in is never empty
      have hnonempty : (if message = "" then "Internal server error" else message) ≠ "" := by
        split
        · decide
        next hmessage => exact hmessage
      rw [outcome_errorEnvelope _ _ (by decide) hnonempty]
      exact .threw message
    · rw [hhandler, hreturned, Dispatch.respond, Client.outcome]
      dsimp only
      rw [if_neg (not_not.mpr rfl), decode, hvalue]
      exact .returned value

end MethodTypes

end Ibridger.Js
