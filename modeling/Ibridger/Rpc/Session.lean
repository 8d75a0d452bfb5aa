import Ibridger.Wire.Envelope

/-! # What a server session has to do

The part of both servers that does not depend on the language: which handler a
request names, what the answer to it has to be, and how requests, calls of
handlers and responses are aligned on one connection. The sessions of the two
SDKs are compared with this description.
-/

namespace Ibridger.Rpc

open Wire

universe uHandler

/-- The services of a server and their methods. -/
abbrev ServiceTable (Handler : Type uHandler) : Type uHandler :=
  String → Option (String → Option Handler)

/-- How a handler ended. -/
inductive Outcome where
  | returned (payload : List UInt8)
  | failed
deriving DecidableEq, Repr

/-- A request, how its handler ended if one was called, and the response. -/
structure Exchange where
  request : Envelope
  outcome : Option Outcome
  response : Envelope
deriving DecidableEq, Repr

variable {Handler : Type uHandler}

def ServiceTable.resolve (table : ServiceTable Handler) (request : Envelope) : Option Handler :=
  (table request.serviceName).bind fun methods => methods request.methodName

/-- The call that a request leads to. -/
def ServiceTable.invocation (table : ServiceTable Handler) (request : Envelope) :
    Option (Handler × List UInt8) :=
  (table.resolve request).map fun handler => (handler, request.payload)

/-- The response is the one that the request and its handler call for. -/
structure Answers (table : ServiceTable Handler) (exchange : Exchange) : Prop where
  requestId_eq : exchange.response.requestId = exchange.request.requestId
  called_iff : exchange.outcome.isSome ↔ (table.resolve exchange.request).isSome
  ok_iff : ∀ payload,
    exchange.response.type = .response ∧ exchange.response.status = .ok ∧
        exchange.response.payload = payload ↔
      exchange.outcome = some (.returned payload)
  notFound_iff : exchange.response.type = .error ∧ exchange.response.status = .notFound ↔
    table.resolve exchange.request = none
  internal_iff : exchange.response.type = .error ∧ exchange.response.status = .internal ↔
    exchange.outcome = some .failed

/-- What a session has done: its completed exchanges, the request whose handler
is running, and the calls of handlers. -/
structure Log (Handler : Type uHandler) where
  exchanges : List Exchange
  current : Option Envelope
  invocations : List (Handler × List UInt8)

namespace Log

def empty : Log Handler where
  exchanges := []
  current := none
  invocations := []

/-- A handler is called for a request. -/
def call (log : Log Handler) (handler : Handler) (request : Envelope) : Log Handler :=
  { log with
    current := some request, invocations := log.invocations ++ [(handler, request.payload)] }

/-- A request gets its response. -/
def answer (log : Log Handler) (exchange : Exchange) : Log Handler :=
  { log with exchanges := log.exchanges ++ [exchange], current := none }

/-- The requests that have been taken up. -/
def requests (log : Log Handler) : List Envelope :=
  log.exchanges.map Exchange.request ++ log.current.toList

def responses (log : Log Handler) : List Envelope :=
  log.exchanges.map Exchange.response

/-- The responses are the right ones, and handlers are called once for each
request that names one, with its payload, and for nothing else. -/
structure Sound (table : ServiceTable Handler) (log : Log Handler) : Prop where
  answers : ∀ exchange ∈ log.exchanges, Answers table exchange
  resolves : ∀ request ∈ log.current, (table.resolve request).isSome
  invocations_eq : log.invocations = log.requests.filterMap table.invocation

variable {table : ServiceTable Handler} {log : Log Handler}

theorem sound_empty : (empty : Log Handler).Sound table :=
  ⟨fun _ hmem => (by cases hmem), fun _ hmem => (by cases hmem), rfl⟩

theorem requests_of_idle (hidle : log.current = none) :
    log.requests = log.exchanges.map Exchange.request := by
  rw [requests, hidle, Option.toList_none, List.append_nil]

@[simp] theorem requests_call (hidle : log.current = none) (handler : Handler)
    (request : Envelope) : (log.call handler request).requests = log.requests ++ [request] := by
  rw [requests_of_idle hidle]
  rfl

@[simp] theorem responses_empty : (empty : Log Handler).responses = [] := rfl

theorem responses_answer (log : Log Handler) (exchange : Exchange) :
    (log.answer exchange).responses = log.responses ++ [exchange.response] := by
  rw [responses, answer, List.map_append]
  rfl

theorem requests_answer (log : Log Handler) (exchange : Exchange) :
    (log.answer exchange).requests = log.exchanges.map Exchange.request ++ [exchange.request] := by
  rw [requests, answer, List.map_append, Option.toList_none, List.append_nil]
  rfl

namespace Sound

theorem call (hsound : log.Sound table) (hidle : log.current = none) {handler : Handler}
    {request : Envelope} (hresolve : table.resolve request = some handler) :
    (log.call handler request).Sound table := by
  refine ⟨hsound.answers, ?_, ?_⟩
  · intro other hother
    cases hother
    rw [hresolve]
    rfl
  · have hcalled : table.invocation request = some (handler, request.payload) := by
      rw [ServiceTable.invocation, hresolve, Option.map_some]
    rw [requests_call hidle, List.filterMap_append, ← hsound.invocations_eq,
      List.filterMap_cons_some hcalled, List.filterMap_nil]
    rfl

/-- The running handler has ended. -/
theorem answer_called (hsound : log.Sound table) {exchange : Exchange}
    (hcurrent : log.current = some exchange.request) (hanswers : Answers table exchange) :
    (log.answer exchange).Sound table ∧ (log.answer exchange).requests = log.requests := by
  have hrequests : (log.answer exchange).requests = log.requests := by
    rw [requests_answer, requests, hcurrent]
    rfl
  refine ⟨⟨?_, fun _ hmem => (by cases hmem), ?_⟩, hrequests⟩
  · intro other hother
    rcases List.mem_append.mp hother with hold | hnew
    · exact hsound.answers other hold
    · rw [List.mem_singleton.mp hnew]
      exact hanswers
  · rw [hrequests]
    exact hsound.invocations_eq

/-- A request names no handler. -/
theorem answer_refused (hsound : log.Sound table) (hidle : log.current = none)
    {exchange : Exchange} (hresolve : table.resolve exchange.request = none)
    (hanswers : Answers table exchange) :
    (log.answer exchange).Sound table ∧
      (log.answer exchange).requests = log.requests ++ [exchange.request] := by
  have hrequests : (log.answer exchange).requests = log.requests ++ [exchange.request] := by
    rw [requests_answer, requests_of_idle hidle]
  have huncalled : table.invocation exchange.request = none := by
    rw [ServiceTable.invocation, hresolve, Option.map_none]
  refine ⟨⟨?_, fun _ hmem => (by cases hmem), ?_⟩, hrequests⟩
  · intro other hother
    rcases List.mem_append.mp hother with hold | hnew
    · exact hsound.answers other hold
    · rw [List.mem_singleton.mp hnew]
      exact hanswers
  · rw [hrequests, List.filterMap_append, ← hsound.invocations_eq,
      List.filterMap_cons_none huncalled, List.filterMap_nil, List.append_nil]
    rfl

end Sound

end Log

/-! ## The service of a connection -/

/-- The requests of the input are answered in order with one response each, and
the output is the frames of the responses, as far as they have been written. -/
structure Serves (table : ServiceTable Handler) (format : EnvelopeFormat)
    (received output : List UInt8) (log : Log Handler) : Prop where
  sound : log.Sound table
  requests_prefix : log.requests <+: format.envelopes received
  output_prefix : ∃ rest, format.Emitted (output ++ rest) log.responses

/-- Every readable request of the input has its response in the output. -/
structure Served (format : EnvelopeFormat) (received output : List UInt8)
    (log : Log Handler) : Prop where
  requests_eq : log.exchanges.map Exchange.request = format.envelopes received
  output_eq : format.Emitted output log.responses

/-- The envelope has a frame, and the frame is not too large. -/
def Sendable (format : EnvelopeFormat) (envelope : Envelope) : Prop :=
  ∃ bytes, format.serialize envelope = some bytes ∧ bytes.length ≤ MAX_FRAME_SIZE

theorem not_sendable_of_none {format : EnvelopeFormat} {envelope : Envelope}
    (hserialize : format.serialize envelope = none) : ¬ Sendable format envelope := by
  rintro ⟨bytes, hbytes, -⟩
  rw [hserialize] at hbytes
  cases hbytes

instance (format : EnvelopeFormat) : DecidablePred (Sendable format) := fun envelope =>
  match hserialize : format.serialize envelope with
  | none => .isFalse (not_sendable_of_none hserialize)
  | some bytes => decidable_of_iff (bytes.length ≤ MAX_FRAME_SIZE) <| by
      rw [Sendable, hserialize]
      exact ⟨fun hfits => ⟨bytes, rfl, hfits⟩, fun ⟨_, hbytes, hfits⟩ =>
        Option.some_inj.mp hbytes ▸ hfits⟩

theorem Sendable.length_le {format : EnvelopeFormat} {envelope : Envelope} {bytes : List UInt8}
    (hsendable : Sendable format envelope) (hserialize : format.serialize envelope = some bytes) :
    bytes.length ≤ MAX_FRAME_SIZE := by
  obtain ⟨other, hother, hfits⟩ := hsendable
  rwa [Option.some_inj.mp (hserialize.symm.trans hother)]

/-- What cannot be sent has no bytes, or too many. -/
theorem cases_of_not_sendable {format : EnvelopeFormat} {envelope : Envelope}
    (hrefused : ¬ Sendable format envelope) : format.serialize envelope = none ∨
      ∃ bytes, format.serialize envelope = some bytes ∧ MAX_FRAME_SIZE < bytes.length := by
  cases hserialize : format.serialize envelope with
  | none => exact .inl rfl
  | some bytes => exact .inr ⟨bytes, rfl, Nat.lt_of_not_le fun hfits => hrefused ⟨bytes, hserialize, hfits⟩⟩

/-- What can be sent is read as it was. -/
theorem Sendable.parses {format : EnvelopeFormat} {envelope : Envelope}
    (hsendable : Sendable format envelope) (hinverse : format.Inverse) :
    ∃ bytes, format.serialize envelope = some bytes ∧ bytes.length ≤ MAX_FRAME_SIZE ∧
      format.parse bytes = .ok envelope := by
  obtain ⟨bytes, hserialize, hfits⟩ := hsendable
  exact ⟨bytes, hserialize, hfits, hinverse envelope bytes hserialize hfits⟩

/-- The responses of a session can be sent. -/
def Log.Fits (format : EnvelopeFormat) (log : Log Handler) : Prop :=
  ∀ response ∈ log.responses, Sendable format response

end Ibridger.Rpc
