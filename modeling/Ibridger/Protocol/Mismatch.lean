import Ibridger.Cpp.Correlation
import Ibridger.Cpp.Mismatch
import Ibridger.Js.Mismatch
import Ibridger.Js.SameConnection

/-! # Mismatched request ids

A response with another request id says that the two sides no longer agree about
the exchange. In neither SDK does it end the connection.
-/

namespace Ibridger.Protocol

open Transition Wire

/-- In a run of either client, every mismatch ends its connection exactly when the
mismatches come from connections that have already ended; the C++ client has no
such mismatches. -/
theorem mismatch_fatal_iff {Value : Type} (format : EnvelopeFormat)
    (decode : Nat → List UInt8 → Except String Value) :
    (∀ (config : Js.ClientConfig) (events : List Js.ClientEvent),
      Along (Js.Client.step format decode) (Js.Client.LeavesOnMismatch format decode)
          (Js.Client.init config) events ↔
        Guarded (Js.Client.step format decode) (Js.Client.MismatchesOnlyEnded format)
          (Js.Client.init config) events) ∧
    ∀ (config : Cpp.ClientConfig) (events : List Cpp.ClientEvent),
      Along (Cpp.Client.step format) (Cpp.Client.LeavesOnMismatch format)
          (Cpp.Client.init config) events ↔
        Guarded (Cpp.Client.step format) (Cpp.Client.NoMismatch format)
          (Cpp.Client.init config) events :=
  ⟨Js.Client.run_leavesOnMismatch_iff, fun config => Cpp.Client.run_leavesOnMismatch_iff config⟩

/-- A response that answers none of the requests. -/
def strayResponse : Envelope := { Envelope.empty with type := .response, requestId := 7 }

/-- The first request, as protobuf.js writes it, and the stray response. -/
def strayMessages : List (Envelope × List UInt8) :=
  [(namelessRequest, [8, 0, 16, 1, 26, 0, 34, 0, 42, 0]), (strayResponse, [8, 1, 16, 7])]

/-- The first call reads a stray response: it is rejected, and in both SDKs the
client stays connected to the peer that has sent it. -/
theorem stray_response_keeps_connection :
    (∃ client next : Js.Client (List UInt8),
      Reachable (Js.Client.step (.knowing strayMessages) fun _ => .ok) (Js.Client.init {})
        client ∧
      client.step (.knowing strayMessages) (fun _ => .ok) (.resume 0) = some next ∧
      next.codec = some 0 ∧
      ¬ Js.Client.LeavesOnMismatch (.knowing strayMessages) (fun _ => .ok) client (.resume 0)
        next) ∧
    ∃ (client next : Cpp.Client) (event : Cpp.ClientEvent),
      Reachable (Cpp.Client.step (.knowing strayMessages)) (Cpp.Client.init {}) client ∧
      client.step (.knowing strayMessages) event = some next ∧
      next.codec = some 0 ∧
      ¬ Cpp.Client.LeavesOnMismatch (.knowing strayMessages) client event next := by
  have hserialize : (EnvelopeFormat.knowing strayMessages).serialize namelessRequest =
      some [8, 0, 16, 1, 26, 0, 34, 0, 42, 0] :=
    EnvelopeFormat.knowing_serialize (by decide) (by decide)
  have hparse : (EnvelopeFormat.knowing strayMessages).parse [8, 1, 16, 7] = .ok strayResponse :=
    EnvelopeFormat.knowing_parse (by decide) (by decide)
  constructor
  · obtain ⟨client, hrun, hphase, hread, hcodec⟩ :
        ∃ client : Js.Client (List UInt8),
          run (Js.Client.step (.knowing strayMessages) fun _ => .ok) (Js.Client.init {})
            [.connect, .connected 0 false, .call 0 "" "" (.ok []) {}, .written 0 0 none, .resume 0,
              .written 0 1 none, .resume 0, .resume 0, .data 0 [0, 0, 0, 4, 8, 1, 16, 7], .read 0,
              .read 0] = some client ∧
          (client.calls 0).phase = .receiving 0 1 30000 ∧
          client.reads[0]? = some ⟨0, 0, .settled (.ok [8, 1, 16, 7])⟩ ∧
          client.codec = some 0 :=
      ⟨_, run_cons_eq_some.mpr ⟨_, rfl, run_cons_eq_some.mpr ⟨_, rfl, run_cons_eq_some.mpr
        ⟨_, Js.Client.call_eq_some rfl rfl rfl rfl hserialize, rfl⟩⟩⟩, rfl, rfl, rfl⟩
    have hends : Js.Client.EndsByMismatch (.knowing strayMessages) client (.resume 0) 0 :=
      ⟨0, 0, 1, 30000, 0, _, strayResponse, rfl, hphase, hread, hparse, by decide⟩
    obtain ⟨next, hstep⟩ : ∃ next, client.step (.knowing strayMessages) (fun _ => .ok)
        (.resume 0) = some next := by
      simp only [Js.Client.step, Js.Client.resume, hphase, hread]
      exact ⟨_, rfl⟩
    obtain ⟨i, id, response, -, rfl⟩ := hends.step_eq hstep
    refine ⟨client, _, ⟨_, hrun⟩, hstep, hcodec, ?_⟩
    intro hleaves
    exact (hleaves 0 hends).forgotten hcodec
  · obtain ⟨client, hconnect, hcodec, hidle, hlinks, hrequest⟩ :
        ∃ client, (Cpp.Client.init {}).step (.knowing strayMessages) (.connect .connected) =
            some client ∧ client.codec = some 0 ∧ (client.calls 0).phase = .idle ∧
          client.links = (Cpp.Client.init {}).links ∧
          Cpp.Client.requestOf ((client.named 0 "" "" []).calls 0) client.nextRequestId =
            namelessRequest :=
      ⟨_, rfl, rfl, rfl, rfl, rfl⟩
    obtain ⟨left, unread, -, -, hsend, hrecv⟩ :=
      @Cpp.Client.offer_answering _ client 0 _ _ namelessRequest strayResponse _ rfl
        (by rw [hlinks]; exact Cpp.Client.rests_init {} 0) hserialize (by decide) hparse (by decide)
    have hsends := Cpp.Client.Sends.began 0 0 "" "" []
      (Cpp.Client.answering [8, 0, 16, 1, 26, 0, 34, 0, 42, 0] [8, 1, 16, 7]) hcodec hidle
    rw [hrequest] at hsends
    have hends : Cpp.Client.EndsByMismatch (.knowing strayMessages) client _ 0 :=
      ⟨0, namelessRequest, _, _, strayResponse, hsends, hsend, hrecv, by decide⟩
    obtain ⟨next, hstep, hcurrent, -⟩ := hends.exists_step
    refine ⟨client, next, _, .single hconnect, hstep, hcurrent, ?_⟩
    intro hleaves
    exact (hleaves 0 hends).forgotten hcurrent

end Ibridger.Protocol
