import Ibridger.Js.Framing
import Ibridger.Rpc.Session

/-! # The dispatch of the JS server

`IBridgerServer.dispatch` and `errorEnvelope` of `server.ts`. What a handler
does is an argument of the part of `dispatch` behind its call.
-/

namespace Ibridger.Js

open Rpc Wire

/-- How the promise of a handler settles. For a rejection or a thrown error,
`message` is `e.message`, or `String(e)` where `e` is no `Error`. -/
inductive HandlerOutcome where
  | returned (payload : List UInt8)
  | threw (message : String)
deriving DecidableEq, Repr

def HandlerOutcome.outcome : HandlerOutcome → Outcome
  | .returned payload => .returned payload
  | .threw _ => .failed

namespace Dispatch

def errorEnvelope (request : Envelope) (status : StatusCode) (message : String) : Envelope :=
  { Envelope.empty with
    type := .error, status := status, requestId := request.requestId, errorMessage := message }

/-- The response when a handler was called. -/
def respond (request : Envelope) : HandlerOutcome → Envelope
  | .returned payload =>
      { Envelope.empty with
        type := .response, status := .ok, requestId := request.requestId, payload := payload }
  | .threw message =>
      errorEnvelope request .internal (if message = "" then "Internal server error" else message)

/-- `dispatch` up to the call of the handler: the handler, or a response without one. -/
def locate {Handler : Type} (services : ServiceTable Handler) (request : Envelope) :
    Except Envelope Handler :=
  match services request.serviceName with
  | none =>
      .error (errorEnvelope request .notFound ("Service not found: " ++ request.serviceName))
  | some service =>
      match service request.methodName with
      | none =>
          .error (errorEnvelope request .notFound
            ("Method not found: " ++ request.serviceName ++ "/" ++ request.methodName))
      | some handler => .ok handler

variable {Handler : Type} {services : ServiceTable Handler} {request response : Envelope}

theorem resolve_of_locate_ok {handler : Handler}
    (hlocate : locate services request = .ok handler) :
    services.resolve request = some handler := by
  unfold locate at hlocate
  rw [ServiceTable.resolve]
  split at hlocate
  · cases hlocate
  next service hservice =>
    split at hlocate
    · cases hlocate
    next handler' hhandler =>
      cases hlocate
      rw [hservice, Option.bind_some, hhandler]

/-- A request that names no handler is answered with `NOT_FOUND`. -/
theorem of_locate_error (hlocate : locate services request = .error response) :
    services.resolve request = none ∧ Answers services ⟨request, none, response⟩ := by
  have hboth : services.resolve request = none ∧
      ∃ message, response = errorEnvelope request .notFound message := by
    unfold locate at hlocate
    rw [ServiceTable.resolve]
    split at hlocate
    next hservice =>
      cases hlocate
      rw [hservice]
      exact ⟨rfl, _, rfl⟩
    next service hservice =>
      split at hlocate
      next hmethod =>
        cases hlocate
        rw [hservice, Option.bind_some]
        exact ⟨hmethod, _, rfl⟩
      · cases hlocate
  obtain ⟨hnone, message, rfl⟩ := hboth
  refine ⟨hnone, ⟨rfl, ?_, ?_, ?_, ?_⟩⟩ <;> simp [hnone, errorEnvelope]

/-- The response when a handler was called reports what the handler did. -/
theorem respond_answers {handler : Handler} (hresolve : services.resolve request = some handler)
    (outcome : HandlerOutcome) :
    Answers services ⟨request, some outcome.outcome, respond request outcome⟩ := by
  cases outcome <;>
    refine ⟨rfl, ?_, ?_, ?_, ?_⟩ <;>
      simp [hresolve, respond, errorEnvelope, HandlerOutcome.outcome]

end Dispatch

end Ibridger.Js
