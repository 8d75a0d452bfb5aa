import Ibridger.Cpp.Session
import Ibridger.Foundation.Interleaving
import Ibridger.Js.Session
import Ibridger.Wire.KnownMessages

/-! # Server sessions of the two SDKs

Both servers give every connection a session of its own over one table of
services. However the connections are interleaved, each session answers the
requests of its connection in order, and calls handlers for nothing else.
-/

namespace Ibridger.Protocol

open Rpc Transition Wire
open Js (Promise)

/-- Every session of a C++ or a JS server, whatever the others do: the requests
are answered in order, all of them have their answers when the session is at
rest, and it ends at nothing but an unreadable frame. -/
theorem sessions_serve {Connection Handler : Type} [DecidableEq Connection]
    (table : ServiceTable Handler) (format : EnvelopeFormat) (hinverse : format.Inverse) :
    (∀ (events : List (Connection × Cpp.SessionEvent)) last connection,
      (∀ event ∈ events, event.2.Open) →
      run (interleave (Cpp.Session.step table format)) (fun _ => Cpp.Session.fresh) events =
        some last →
      (last connection).log.Fits format →
      Serves table format (last connection).arrived (last connection).conn.wire
          (last connection).log ∧
        ((last connection).AtRest format →
          Served format (last connection).arrived (last connection).conn.wire
            (last connection).log) ∧
        ((last connection).phase = .ended → format.Breaks (last connection).arrived)) ∧
    (∀ (events : List (Connection × Js.SessionEvent)) last connection,
      run (interleave (Js.Session.step table format)) (fun _ => Js.Session.fresh) events =
        some last →
      (last connection).log.Fits format →
      Serves table format (last connection).conn.received (last connection).conn.output
          (last connection).log ∧
        ((last connection).AtRest table format →
          Served format (last connection).conn.received (last connection).conn.output
            (last connection).log) ∧
        ((last connection).phase = .ended → format.Breaks (last connection).conn.received)) := by
  constructor
  · intro events last connection hopen hrun hsizes
    refine Cpp.Session.serves_of_run hinverse ?_ (run_eventsOf hrun connection) hsizes
    intro event hevent
    exact hopen _ (mem_of_mem_eventsOf hevent)
  · intro events last connection hrun hsizes
    exact Js.Session.serves_of_run hinverse (run_eventsOf hrun connection) hsizes

def namelessResponse : Envelope :=
  { Envelope.empty with
    type := .error, status := .notFound, requestId := 1, errorMessage := "Service not found: " }

/-- The two messages as protobuf writes them. -/
def namelessFormat : EnvelopeFormat :=
  .knowing [(namelessRequest, [16, 1]),
    (namelessResponse, [8, 3, 16, 1, 48, 2, 58, 19, 83, 101, 114, 118, 105, 99, 101, 32, 110, 111,
      116, 32, 102, 111, 117, 110, 100, 58, 32])]

/-- A JS server without services answers the nameless request. -/
theorem nameless_request_served :
    ∃ last, run (interleave (Js.Session.step (fun _ => none : ServiceTable Unit) namelessFormat))
        (fun _ : Unit => Js.Session.fresh)
        [((), .data [0, 0, 0, 2, 16, 1]), ((), .resume), ((), .resume), ((), .written 0),
          ((), .resume), ((), .written 1), ((), .resume)] = some last ∧
      (last ()).log.responses = [namelessResponse] ∧
      Served namelessFormat (last ()).conn.received (last ()).conn.output (last ()).log := by
  have hinverse : namelessFormat.Inverse :=
    EnvelopeFormat.knowing_inverse (by decide)
  obtain ⟨-, hserve⟩ :=
    @sessions_serve Unit Unit _ (fun _ => none) namelessFormat hinverse
  obtain ⟨last, hrun, hresponses, hsends, read, hphase, hresume⟩ :
      ∃ last, run
          (interleave (Js.Session.step (fun _ => none : ServiceTable Unit) namelessFormat))
          (fun _ : Unit => Js.Session.fresh)
          [((), .data [0, 0, 0, 2, 16, 1]), ((), .resume), ((), .resume), ((), .written 0),
            ((), .resume), ((), .written 1), ((), .resume)] = some last ∧
        (last ()).log.responses = [namelessResponse] ∧
        (last ()).conn.sends = [.resolved (), .resolved ()] ∧
        ∃ read, (last ()).phase = .receiving read ∧ read.resume (last ()).conn = none :=
    ⟨_, rfl, rfl, rfl, _, rfl, rfl⟩
  refine ⟨last, hrun, hresponses, (hserve _ last () hrun ?_).2.1 ⟨?_, ?_, ?_⟩⟩
  · intro response hresponse
    rw [hresponses, List.mem_singleton] at hresponse
    rw [hresponse]
    exact ⟨_, rfl, by decide⟩
  · simp only [Js.Session.step, hphase, hresume, Option.map_none]
  · intro request hhandling
    rw [hphase] at hhandling
    cases hhandling
  · intro send hsend
    rw [hsends] at hsend
    have hwritten : Promise.pending ∉ [Promise.resolved (), Promise.resolved ()] := by decide
    exact hwritten (List.mem_of_getElem? hsend)

end Ibridger.Protocol
