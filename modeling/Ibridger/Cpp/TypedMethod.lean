import Ibridger.Cpp.Replies

/-! # Typed methods of the C++ server

The wrapper of `ServiceBase::register_method<TReq, TResp>` of `service_base.h` and the
handler of `PingService` of `ping_service.cpp`: both parse the payload, build a response
and serialize it.
-/

namespace Ibridger.Cpp

open Rpc Wire

/-- A message class that `protoc` generates: `ParseFromString` and `SerializeToString`. -/
structure MessageType (Message : Type) where
  parse : List UInt8 → Option Message
  serialize : Message → Option (List UInt8)

/-- How a typed handler ends: it returns a message, or it throws. -/
inductive TypedOutcome (Resp : Type) where
  | returned (resp : Resp)
  | threw (what : String)
  | threwUnknown
deriving DecidableEq

/-- Parse, call the handler, serialize; the messages are those of the two error codes.
The first component is the messages that the handler is called with. -/
def typedHandler {Req Resp : Type} (badMessage unserializable : String)
    (reqType : MessageType Req) (respType : MessageType Resp)
    (handler : Req → TypedOutcome Resp) (payload : List UInt8) : List Req × HandlerOutcome :=
  match reqType.parse payload with
  | none => ([], .error badMessage)
  | some req =>
      ([req],
        match handler req with
        | .threw what => .threw what
        | .threwUnknown => .threwUnknown
        | .returned resp =>
            match respType.serialize resp with
            | none => .error unserializable
            | some out => .returned out)

/-- The wrapper of a typed handler; the codes are `std::errc::bad_message` and
`std::errc::io_error`. -/
def ServiceBase.typed {Req Resp : Type} (reqType : MessageType Req) (respType : MessageType Resp)
    (handler : Req → TypedOutcome Resp) (payload : List UInt8) : List Req × HandlerOutcome :=
  typedHandler "Bad message" "Input/output error" reqType respType handler payload

/-- `ibridger::Pong`. -/
structure Pong where
  serverId : String
  timestampMs : Int
deriving DecidableEq

namespace PingService

def kPingServerId : String := "ibridger-server"

def kPingServiceName : String := "ibridger.Ping"

def kPingMethodName : String := "Ping"

/-- The lambda of `get_method`, at a time of the system clock. -/
def ping {Ping : Type} (pingType : MessageType Ping) (pongType : MessageType Pong) (nowMs : Int)
    (payload : List UInt8) : List Ping × HandlerOutcome :=
  typedHandler Error.serializationError.message Error.serializationError.message pingType pongType
    (fun _ => .returned ⟨kPingServerId, nowMs⟩) payload

def getMethod {Ping : Type} (pingType : MessageType Ping) (pongType : MessageType Pong)
    (nowMs : Int) (method : String) : Option MethodHandler :=
  if method = kPingMethodName then some fun payload => (ping pingType pongType nowMs payload).2
  else none

end PingService

section

variable {Req Resp : Type} {badMessage unserializable : String} {reqType : MessageType Req}
  {respType : MessageType Resp} {handler : Req → TypedOutcome Resp} {payload : List UInt8}

theorem typedHandler_of_malformed (hparse : reqType.parse payload = none) :
    typedHandler badMessage unserializable reqType respType handler payload =
      ([], .error badMessage) := by
  rw [typedHandler, hparse]

theorem typedHandler_calls {req : Req} (hparse : reqType.parse payload = some req) :
    (typedHandler badMessage unserializable reqType respType handler payload).1 = [req] := by
  rw [typedHandler, hparse]

/-- A handler that throws leaves the wrapper with its exception. -/
theorem typedHandler_of_failed {req : Req} (hparse : reqType.parse payload = some req)
    (hfails : ∀ resp, handler req ≠ .returned resp) :
    (typedHandler badMessage unserializable reqType respType handler payload).2.outcome =
      .failed := by
  rw [typedHandler, hparse]
  dsimp only
  cases hends : handler req with
  | returned resp => exact absurd hends (hfails resp)
  | threw what => rfl
  | threwUnknown => rfl

end

theorem ServiceBase.typed_of_malformed {Req Resp : Type} {reqType : MessageType Req}
    (respType : MessageType Resp) (handler : Req → TypedOutcome Resp) {payload : List UInt8}
    (hparse : reqType.parse payload = none) :
    typed reqType respType handler payload = ([], .error "Bad message") :=
  typedHandler_of_malformed hparse

theorem PingService.ping_of_malformed {Ping : Type} {pingType : MessageType Ping}
    (pongType : MessageType Pong) (nowMs : Int) {payload : List UInt8}
    (hparse : pingType.parse payload = none) :
    ping pingType pongType nowMs payload = ([], .error "serialization error") :=
  typedHandler_of_malformed hparse

/-- A request that names a handler is answered with what the handler does. -/
theorem Dispatcher.reply_of_resolve {table : ServiceTable MethodHandler} {request : Envelope}
    {handler : MethodHandler} (hresolve : table.resolve request = some handler) :
    reply table request = respond request (handler request.payload) := by
  unfold reply
  cases hlocate : locate table request with
  | error response =>
      rw [(of_locate_error hlocate).1] at hresolve
      cases hresolve
  | ok located =>
      rw [resolve_of_locate_ok hlocate] at hresolve
      cases hresolve
      rfl

/-- What is answered when a handler did not return a value. -/
theorem Dispatcher.respond_of_failed (request : Envelope) {outcome : HandlerOutcome}
    (hfailed : outcome.outcome = .failed) :
    (respond request outcome).type = .error ∧ (respond request outcome).status = .internal ∧
      (respond request outcome).requestId = request.requestId := by
  cases outcome with
  | returned payload => cases hfailed
  | error message => exact ⟨rfl, rfl, rfl⟩
  | threw what => exact ⟨rfl, rfl, rfl⟩
  | threwUnknown => exact ⟨rfl, rfl, rfl⟩

end Ibridger.Cpp
