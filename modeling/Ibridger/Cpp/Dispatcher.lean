import Ibridger.Cpp.Framing
import Ibridger.Rpc.Session

/-! # The C++ envelope codec and dispatcher

`EnvelopeCodec` of `envelope_codec.cpp` and `Dispatcher` of `dispatcher.cpp`.
What a handler does is an argument of the part of `dispatch` behind its call.
-/

namespace Ibridger.Cpp

open Rpc Wire

namespace EnvelopeCodec

variable {Conn : Type} [IConnection Conn] (format : EnvelopeFormat)

def send (conn : Conn) (envelope : Envelope) : Option (Option ErrorCode × Conn) :=
  match format.serialize envelope with
  | none => some (some (.ibridger .serializationError), conn)
  | some bytes => FramedConnection.sendFrame conn bytes

def recv (conn : Conn) : Option (Except ErrorCode Envelope × Conn) :=
  match FramedConnection.recvFrame conn with
  | none => none
  | some (.error err, conn) => some (.error err, conn)
  | some (.ok bytes, conn) =>
      match format.parse bytes with
      | .error _ => some (.error (.ibridger .serializationError), conn)
      | .ok envelope => some (.ok envelope, conn)

end EnvelopeCodec

/-- How a handler leaves `dispatch`: with a value, with an error that has a
message, or with an exception. -/
inductive HandlerOutcome where
  | returned (payload : List UInt8)
  | error (message : String)
  | threw (what : String)
  | threwUnknown
deriving DecidableEq, Repr

def HandlerOutcome.outcome : HandlerOutcome → Outcome
  | .returned payload => .returned payload
  | _ => .failed

namespace Dispatcher

def makeError (requestId : UInt64) (status : StatusCode) (message : String) : Envelope :=
  { Envelope.empty with
    type := .error, requestId := requestId, status := status, errorMessage := message }

/-- The response when a handler was called. -/
def respond (request : Envelope) : HandlerOutcome → Envelope
  | .returned payload =>
      { Envelope.empty with
        type := .response, requestId := request.requestId, status := .ok, payload := payload }
  | .error message => makeError request.requestId .internal message
  | .threw what => makeError request.requestId .internal ("handler threw: " ++ what)
  | .threwUnknown => makeError request.requestId .internal "handler threw unknown exception"

/-- `dispatch` up to the call of the handler: the handler, or a response without one. -/
def locate {Handler : Type} (table : ServiceTable Handler) (request : Envelope) :
    Except Envelope Handler :=
  match table request.serviceName with
  | none =>
      .error (makeError request.requestId .notFound
        ("service '" ++ request.serviceName ++ "' not found"))
  | some methods =>
      match methods request.methodName with
      | none =>
          .error (makeError request.requestId .notFound
            ("method '" ++ request.methodName ++ "' not found on service '" ++
              request.serviceName ++ "'"))
      | some handler => .ok handler

/-- `dispatch`, where `behave` says what the handlers do with a payload. -/
def dispatch {Handler : Type} (behave : Handler → List UInt8 → HandlerOutcome)
    (table : ServiceTable Handler) (request : Envelope) : Envelope :=
  match locate table request with
  | .error response => response
  | .ok handler => respond request (behave handler request.payload)

variable {Handler : Type} {table : ServiceTable Handler} {request response : Envelope}

theorem resolve_of_locate_ok {handler : Handler} (hlocate : locate table request = .ok handler) :
    table.resolve request = some handler := by
  unfold locate at hlocate
  rw [ServiceTable.resolve]
  split at hlocate
  · cases hlocate
  next methods hmethods =>
    split at hlocate
    · cases hlocate
    next handler' hhandler =>
      cases hlocate
      rw [hmethods, Option.bind_some, hhandler]

/-- A request that names no handler is answered with `NOT_FOUND`. -/
theorem of_locate_error (hlocate : locate table request = .error response) :
    table.resolve request = none ∧ Answers table ⟨request, none, response⟩ := by
  have hboth : table.resolve request = none ∧
      ∃ message, response = makeError request.requestId .notFound message := by
    unfold locate at hlocate
    rw [ServiceTable.resolve]
    split at hlocate
    next hservice =>
      cases hlocate
      rw [hservice]
      exact ⟨rfl, _, rfl⟩
    next methods hmethods =>
      split at hlocate
      next hmethod =>
        cases hlocate
        rw [hmethods, Option.bind_some]
        exact ⟨hmethod, _, rfl⟩
      · cases hlocate
  obtain ⟨hnone, message, rfl⟩ := hboth
  refine ⟨hnone, ⟨rfl, ?_, ?_, ?_, ?_⟩⟩ <;> simp [hnone, makeError]

/-- The response when a handler was called reports what the handler did. -/
theorem respond_answers {handler : Handler} (hresolve : table.resolve request = some handler)
    (outcome : HandlerOutcome) :
    Answers table ⟨request, some outcome.outcome, respond request outcome⟩ := by
  cases outcome <;>
    refine ⟨rfl, ?_, ?_, ?_, ?_⟩ <;> simp [hresolve, respond, makeError, HandlerOutcome.outcome]

/-- A handler does not come to `NOT_FOUND`. -/
theorem respond_status_ne (request : Envelope) (outcome : HandlerOutcome) :
    (respond request outcome).status ≠ .notFound := by
  cases outcome <;> simp [respond, makeError]

/-- Only a request that names no handler is answered with `NOT_FOUND`. -/
theorem dispatch_notFound_iff (behave : Handler → List UInt8 → HandlerOutcome) :
    (dispatch behave table request).status = .notFound ↔ table.resolve request = none := by
  unfold dispatch
  cases hlocate : locate table request with
  | error response =>
      obtain ⟨hnone, hanswers⟩ := of_locate_error hlocate
      have hstatus := (hanswers.notFound_iff.mpr hnone).2
      exact ⟨fun _ => hnone, fun _ => hstatus⟩
  | ok handler =>
      rw [resolve_of_locate_ok hlocate]
      simp [respond_status_ne]

end Dispatcher

end Ibridger.Cpp
