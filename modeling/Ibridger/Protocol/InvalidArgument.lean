import Ibridger.Cpp.TypedMethod
import Ibridger.Js.TypedMethod

/-! # Malformed request payloads

The typed wrappers of both SDKs report a payload that does not parse as they report a
handler that fails, and both dispatchers answer either with `INTERNAL`.
-/

namespace Ibridger.Protocol

open Rpc Wire

/-- A request, and the handler that a server has for it. -/
structure Addressed {Handler : Type} (handler : Handler) where
  table : ServiceTable Handler
  request : Envelope
  resolve_eq : table.resolve request = some handler

/-- A request to a method behind one of the typed wrappers. -/
inductive TypedRequest : Type 1 where
  | serviceBase {Req Resp : Type} (reqType : Cpp.MessageType Req) (respType : Cpp.MessageType Resp)
      (handler : Req → Cpp.TypedOutcome Resp)
      (addressed : Addressed fun payload =>
        (Cpp.ServiceBase.typed reqType respType handler payload).2)
  | pingService {Ping : Type} (pingType : Cpp.MessageType Ping)
      (pongType : Cpp.MessageType Cpp.Pong) (nowMs : Int)
      (addressed : Addressed fun payload => (Cpp.PingService.ping pingType pongType nowMs payload).2)
  | typedMethod {Req Resp : Type} (reqType : Js.ProtoType Req) (respType : Js.ProtoType Resp)
      (handler : Js.TypedHandler Req Resp)
      (addressed : Addressed (Js.typedMethod reqType respType handler))

namespace TypedRequest

def request : TypedRequest → Envelope
  | serviceBase _ _ _ addressed => addressed.request
  | pingService _ _ _ addressed => addressed.request
  | typedMethod _ _ _ addressed => addressed.request

/-- The answer of the server. -/
def response : TypedRequest → Envelope
  | serviceBase _ _ _ addressed => Cpp.Dispatcher.reply addressed.table addressed.request
  | pingService _ _ _ addressed => Cpp.Dispatcher.reply addressed.table addressed.request
  | typedMethod _ _ _ addressed => Js.Dispatch.reply addressed.table addressed.request

/-- The payload decodes as the request type of the method. -/
def Decodes (typed : TypedRequest) : Prop :=
  match typed with
  | serviceBase reqType _ _ addressed => (reqType.parse addressed.request.payload).isSome
  | pingService pingType _ _ addressed => (pingType.parse addressed.request.payload).isSome
  | typedMethod reqType _ _ addressed => (reqType.decode addressed.request.payload).toOption.isSome

/-- How often the user's handler is called. -/
def calls : TypedRequest → Nat
  | serviceBase reqType respType handler addressed =>
      (Cpp.ServiceBase.typed reqType respType handler addressed.request.payload).1.length
  | pingService pingType pongType nowMs addressed =>
      (Cpp.PingService.ping pingType pongType nowMs addressed.request.payload).1.length
  | typedMethod reqType respType handler addressed =>
      (Js.typedCalls reqType respType handler addressed.request.payload).1.length

/-- The payload decodes, but the handler does not return a message. -/
def HandlerFails (typed : TypedRequest) : Prop :=
  match typed with
  | serviceBase reqType _ handler addressed =>
      ∃ req, reqType.parse addressed.request.payload = some req ∧
        ∀ resp, handler req ≠ .returned resp
  | pingService _ _ _ _ => False
  | typedMethod reqType _ handler addressed =>
      ∃ req message, reqType.decode addressed.request.payload = .ok req ∧
        handler req = .error message

/-- The answer is an error with the given status and the id of the request. -/
structure AnsweredWith (typed : TypedRequest) (status : StatusCode) : Prop where
  type_eq : typed.response.type = .error
  status_eq : typed.response.status = status
  requestId_eq : typed.response.requestId = typed.request.requestId

/-- A payload that does not decode and a handler that fails have different answers. -/
structure ToldApart (typed : TypedRequest) : Prop where
  malformed : ¬ typed.Decodes → typed.calls = 0 ∧ typed.AnsweredWith .invalidArgument
  failed : typed.HandlerFails → typed.AnsweredWith .internal

theorem answeredWith_of_cpp {typed : TypedRequest} {outcome : Cpp.HandlerOutcome}
    (hresponse : typed.response = Cpp.Dispatcher.respond typed.request outcome)
    (hfailed : outcome.outcome = .failed) : typed.AnsweredWith .internal := by
  obtain ⟨htype, hstatus, hid⟩ := Cpp.Dispatcher.respond_of_failed typed.request hfailed
  rw [← hresponse] at htype hstatus hid
  exact ⟨htype, hstatus, hid⟩

theorem answeredWith_of_js {typed : TypedRequest} {message : String}
    (hresponse : typed.response = Js.Dispatch.respond typed.request (.threw message)) :
    typed.AnsweredWith .internal := by
  obtain ⟨htype, hstatus, hid⟩ := Js.Dispatch.respond_of_threw typed.request message
  rw [← hresponse] at htype hstatus hid
  exact ⟨htype, hstatus, hid⟩

/-- A payload that does not decode keeps the handler from being called, but the answer
is that of a handler that failed. -/
theorem malformed_internal (typed : TypedRequest) (hmalformed : ¬ typed.Decodes) :
    typed.calls = 0 ∧ typed.AnsweredWith .internal := by
  cases typed with
  | serviceBase reqType respType handler addressed =>
      have hparse : reqType.parse addressed.request.payload = none := by
        simpa [Decodes] using hmalformed
      have hbad := Cpp.ServiceBase.typed_of_malformed respType handler hparse
      refine ⟨?_, answeredWith_of_cpp (Cpp.Dispatcher.reply_of_resolve addressed.resolve_eq) ?_⟩
      · rw [calls, hbad, List.length_nil]
      · rw [hbad]
        rfl
  | pingService pingType pongType nowMs addressed =>
      have hparse : pingType.parse addressed.request.payload = none := by
        simpa [Decodes] using hmalformed
      have hbad := Cpp.PingService.ping_of_malformed pongType nowMs hparse
      refine ⟨?_, answeredWith_of_cpp (Cpp.Dispatcher.reply_of_resolve addressed.resolve_eq) ?_⟩
      · rw [calls, hbad, List.length_nil]
      · rw [hbad]
        rfl
  | typedMethod reqType respType handler addressed =>
      dsimp only [Decodes] at hmalformed
      cases hdecode : reqType.decode addressed.request.payload with
      | ok req =>
          rw [hdecode] at hmalformed
          exact absurd rfl hmalformed
      | error message =>
          have hbad := Js.typedCalls_of_malformed respType handler hdecode
          refine ⟨by rw [calls, hbad, List.length_nil], ?_⟩
          apply answeredWith_of_js
          change Js.Dispatch.reply _ _ = _
          rw [Js.Dispatch.reply_of_resolve addressed.resolve_eq, ← Js.typedCalls_snd, hbad]
          rfl

theorem failed_internal (typed : TypedRequest) (hfails : typed.HandlerFails) :
    typed.calls = 1 ∧ typed.AnsweredWith .internal := by
  cases typed with
  | serviceBase reqType respType handler addressed =>
      obtain ⟨req, hparse, hthrows⟩ := hfails
      refine ⟨?_, answeredWith_of_cpp (Cpp.Dispatcher.reply_of_resolve addressed.resolve_eq) ?_⟩
      · rw [calls, Cpp.ServiceBase.typed, Cpp.typedHandler_calls hparse, List.length_singleton]
      · exact Cpp.typedHandler_of_failed hparse hthrows
  | pingService => exact hfails.elim
  | typedMethod reqType respType handler addressed =>
      obtain ⟨req, message, hdecode, hthrows⟩ := hfails
      have hcalls := Js.typedCalls_of_failed respType hdecode hthrows
      refine ⟨by rw [calls, hcalls, List.length_singleton], ?_⟩
      apply answeredWith_of_js
      change Js.Dispatch.reply _ _ = _
      rw [Js.Dispatch.reply_of_resolve addressed.resolve_eq, ← Js.typedCalls_snd, hcalls]
      rfl

/-- The two are told apart exactly where the payload decodes. -/
theorem toldApart_iff (typed : TypedRequest) : typed.ToldApart ↔ typed.Decodes := by
  constructor
  · intro htold
    by_contra hmalformed
    have hstatus := (htold.malformed hmalformed).2.status_eq
    rw [(malformed_internal typed hmalformed).2.status_eq] at hstatus
    cases hstatus
  · intro hdecodes
    exact ⟨fun hmalformed => absurd hdecodes hmalformed, fun hfails =>
      (failed_internal typed hfails).2⟩

/-- An Echo service whose requests have to be empty, and whose handler always throws. -/
def refusing : Js.MethodHandler :=
  Js.typedMethod ⟨fun _ => .ok [], fun bytes => if bytes = [] then .ok () else .error "no"⟩
    ⟨fun _ => .ok [], fun _ => .ok ()⟩ fun _ => .error "no"

/-- A request to the service. -/
def refused (payload : List UInt8) : TypedRequest :=
  .typedMethod ⟨fun _ => .ok [], fun bytes => if bytes = [] then .ok () else .error "no"⟩
    ⟨fun _ => .ok [], fun _ => .ok ()⟩ (fun _ => .error "no")
    ⟨fun _ => some fun _ => some refusing, { Envelope.empty with payload := payload }, rfl⟩

/-- The server answers a malformed payload and a failed handler in the same way. -/
theorem malformed_like_failed :
    ¬ (refused [1]).Decodes ∧ (refused []).HandlerFails ∧
      (refused [1]).response = (refused []).response ∧
      (refused [1]).response.status ≠ .invalidArgument := by
  refine ⟨?_, ⟨(), "no", rfl, rfl⟩, rfl, ?_⟩
  · intro hdecodes
    cases hdecodes
  · intro hstatus
    cases hstatus

end TypedRequest

end Ibridger.Protocol
