import Ibridger.Cpp.EmptyFrames
import Ibridger.Cpp.Replies
import Ibridger.Js.EmptyFrames
import Ibridger.Js.Replies
import Ibridger.Protocol.Session

/-! # Empty frames

The framing layers of both SDKs read an empty frame as an empty payload, and the
codecs above them parse that as an envelope like any other: a server answers it,
and a client takes it for the response to its call.
-/

namespace Ibridger.Protocol

open LengthPrefix Rpc Spacing Transition Wire
open Js (Promise)

/-- Empty frames between others. Both servers send the same responses exactly where
the empty frames go unnoticed. A call of either client has the same result where
none comes before the response whose turn it is, and only there if the responses
are those to the requests. -/
theorem empty_frames_unnoticed_iff {Value : Type} {format : EnvelopeFormat}
    (hinverse : format.Inverse) (hempty : format.parse [] = .ok .empty)
    (decode : Nat → List UInt8 → Except String Value) {spaced : List (Option (List UInt8))}
    (hfits : frameHeader.Fits (plain spaced)) :
    (∀ (services : ServiceTable Js.MethodHandler) (first second : Js.Session Js.MethodHandler),
      first.Completes services format (frameHeader.stream (plain spaced)) →
      second.Completes services format (frameHeader.stream (filled [] spaced)) →
      (format.envelopes first.conn.output = format.envelopes second.conn.output ↔
        Unnoticed format (Js.Dispatch.reply services) spaced)) ∧
    (∀ (table : ServiceTable Cpp.MethodHandler) (first second : Cpp.Session Cpp.MethodHandler),
      first.Completes table format (frameHeader.stream (plain spaced)) →
      second.Completes table format (frameHeader.stream (filled [] spaced)) →
      (format.envelopes first.conn.wire = format.envelopes second.conn.wire ↔
        Unnoticed format (Cpp.Dispatcher.reply table) spaced)) ∧
    (∀ first second : Js.Client Value,
      first.ReadsFrom format decode (frameHeader.stream (plain spaced)) →
      second.ReadsFrom format decode (frameHeader.stream (filled [] spaced)) →
      ∀ i r request result result', first.Gets format i r request result →
        second.Gets format i r request result' →
        (none ∉ spaced.take (r + 1) → result = result') ∧
        (Mirrored format (format.envelopes (first.conns 0).output) (plain spaced) r →
          result = result' → none ∉ spaced.take (r + 1))) ∧
    ∀ first second : Cpp.Client, ∀ c,
      first.ReadsFrom format c (frameHeader.stream (plain spaced)) →
      second.ReadsFrom format c (frameHeader.stream (filled [] spaced)) →
      ∀ i r request result result', first.Gets c i r request result →
        second.Gets c i r request result' →
        (none ∉ spaced.take (r + 1) → result = result') ∧
        (Mirrored format ((first.writesOn c).map Cpp.Write.request) (plain spaced) r →
          result = result' → none ∉ spaced.take (r + 1)) := by
  have hfilled : frameHeader.Fits (filled [] spaced) := forall_mem_filled (Nat.zero_le _) hfits
  refine ⟨?_, ?_, ?_, ?_⟩
  · intro services first second hfirst hsecond
    rw [(hfirst.emitted hinverse).envelopes_eq, (hsecond.emitted hinverse).envelopes_eq,
      EnvelopeFormat.envelopes_stream hfits, EnvelopeFormat.envelopes_stream hfilled]
    exact repliesTo_filled_eq_iff spaced
  · intro table first second hfirst hsecond
    rw [(hfirst.emitted hinverse).envelopes_eq, (hsecond.emitted hinverse).envelopes_eq,
      EnvelopeFormat.envelopes_stream hfits, EnvelopeFormat.envelopes_stream hfilled]
    exact repliesTo_filled_eq_iff spaced
  · intro first second hfirst hsecond i r request result result' hgets hgets'
    refine ⟨Js.Client.result_eq_of_not_mem hinverse hfits hfirst hsecond hgets hgets', ?_⟩
    intro hmirrored hsame hnone
    exact Js.Client.result_ne_of_mem hinverse hempty hfits hfirst hsecond hgets hgets' hmirrored
      hnone hsame
  · intro first second c hfirst hsecond i r request result result' hgets hgets'
    refine ⟨Cpp.Client.result_eq_of_not_mem hfits hfirst hsecond hgets hgets', ?_⟩
    intro hmirrored hsame hnone
    exact Cpp.Client.result_ne_of_mem hempty hfits hfirst hsecond hgets hgets' hmirrored hnone hsame

/-! ## Runs with an empty frame -/

/-- The first request of a JS client, a response to it and the two errors of a
server without services, as protobuf writes them. -/
def keepaliveMessages : List (Envelope × List UInt8) :=
  [(.empty, []), (namelessRequest, [8, 0, 16, 1, 26, 0, 34, 0, 42, 0]),
    ({ Envelope.empty with type := .response, requestId := 1 }, [8, 1, 16, 1]),
    (namelessResponse, [8, 3, 16, 1, 48, 2, 58, 19, 83, 101, 114, 118, 105, 99, 101, 32, 110, 111,
      116, 32, 102, 111, 117, 110, 100, 58, 32]),
    ({ namelessResponse with requestId := 0 }, [8, 3, 48, 2, 58, 19, 83, 101, 114, 118, 105, 99,
      101, 32, 110, 111, 116, 32, 102, 111, 117, 110, 100, 58, 32])]

def keepaliveFormat : EnvelopeFormat :=
  .knowing keepaliveMessages

theorem keepaliveFormat_inverse : keepaliveFormat.Inverse :=
  EnvelopeFormat.knowing_inverse (by decide)

theorem keepaliveFormat_empty : keepaliveFormat.parse [] = .ok .empty :=
  EnvelopeFormat.knowing_parse (by decide) List.mem_cons_self

theorem keepaliveFormat_request :
    keepaliveFormat.serialize namelessRequest = some [8, 0, 16, 1, 26, 0, 34, 0, 42, 0] :=
  EnvelopeFormat.knowing_serialize (by decide) (by decide)

/-- A server without services. -/
def noServices : ServiceTable Js.MethodHandler := fun _ => none

/-- The session waits for a frame, and all its writes are done. -/
theorem completes_of_run {events : List Js.SessionEvent} {session : Js.Session Js.MethodHandler}
    {read : Js.FrameRead} {stream : List UInt8}
    (hrun : run (Js.Session.step noServices keepaliveFormat) Js.Session.fresh events = some session)
    (hunhandled : ∀ event ∈ events, ∀ outcome, event ≠ .handled outcome)
    (hphase : session.phase = .receiving read) (hresume : read.resume session.conn = none)
    (hsends : Promise.pending ∉ session.conn.sends) (hreceived : session.conn.received = stream) :
    session.Completes noServices keepaliveFormat stream := by
  refine ⟨⟨events, ?_, hrun⟩, ⟨?_, ?_, ?_⟩, [], ?_, .inl rfl⟩
  · refine (guarded_of_forall_mem hunhandled).mono ?_
    intro before event next hevent
    cases event with
    | data | written | resume => trivial
    | handled outcome => exact absurd rfl (hevent outcome)
  · simp only [Js.Session.step, hphase, hresume, Option.map_none]
  · intro request hhandling
    rw [hphase] at hhandling
    cases hhandling
  · exact fun send hsend => hsends (List.mem_of_getElem? hsend)
  · rw [List.append_nil]
    exact hreceived

/-- A server gets the request, without and with an empty frame in front of it. -/
theorem keepalive_sessions :
    (∃ session : Js.Session Js.MethodHandler, session.Completes noServices keepaliveFormat
      (frameHeader.stream [[8, 0, 16, 1, 26, 0, 34, 0, 42, 0]])) ∧
    ∃ session : Js.Session Js.MethodHandler, session.Completes noServices keepaliveFormat
      (frameHeader.stream [[], [8, 0, 16, 1, 26, 0, 34, 0, 42, 0]]) := by
  constructor
  · obtain ⟨session, read, hrun, hsends, hreceived, hphase, hresume⟩ :
        ∃ (session : Js.Session Js.MethodHandler) (read : Js.FrameRead),
          run (Js.Session.step noServices keepaliveFormat) Js.Session.fresh
            [.data [0, 0, 0, 10, 8, 0, 16, 1, 26, 0, 34, 0, 42, 0], .resume, .resume, .written 0,
              .resume, .written 1, .resume] = some session ∧
          session.conn.sends = [.resolved (), .resolved ()] ∧
          session.conn.received = frameHeader.stream [[8, 0, 16, 1, 26, 0, 34, 0, 42, 0]] ∧
          session.phase = .receiving read ∧ read.resume session.conn = none :=
      ⟨_, _, rfl, rfl, rfl, rfl, rfl⟩
    exact ⟨session, completes_of_run hrun (by simp) hphase hresume (by rw [hsends]; decide)
      hreceived⟩
  · obtain ⟨session, read, hrun, hsends, hreceived, hphase, hresume⟩ :
        ∃ (session : Js.Session Js.MethodHandler) (read : Js.FrameRead),
          run (Js.Session.step noServices keepaliveFormat) Js.Session.fresh
            [.data [0, 0, 0, 0, 0, 0, 0, 10, 8, 0, 16, 1, 26, 0, 34, 0, 42, 0], .resume, .written 0,
              .resume, .written 1, .resume, .resume, .resume, .written 2, .resume, .written 3,
              .resume] = some session ∧
          session.conn.sends = [.resolved (), .resolved (), .resolved (), .resolved ()] ∧
          session.conn.received = frameHeader.stream [[], [8, 0, 16, 1, 26, 0, 34, 0, 42, 0]] ∧
          session.phase = .receiving read ∧ read.resume session.conn = none :=
      ⟨_, _, rfl, rfl, rfl, rfl, rfl⟩
    exact ⟨session, completes_of_run hrun (by simp) hphase hresume (by rw [hsends]; decide)
      hreceived⟩

/-- The server without services answers the empty frame. -/
theorem keepalive_goesOn : GoesOn keepaliveFormat (Js.Dispatch.reply noServices) [] := by
  refine ⟨.empty, keepaliveFormat_empty, ?_⟩
  have hserialize : keepaliveFormat.serialize { namelessResponse with requestId := 0 } =
      some [8, 3, 48, 2, 58, 19, 83, 101, 114, 118, 105, 99, 101, 32, 110, 111, 116, 32, 102, 111,
        117, 110, 100, 58, 32] := EnvelopeFormat.knowing_serialize (by decide) (by decide)
  exact ⟨_, hserialize, by decide⟩

/-- What the first call of a client makes of the frames that come. -/
def FirstCall (frames : List (List UInt8))
    (result : Except Js.CallError (List UInt8)) : Prop :=
  ∃ client : Js.Client (List UInt8),
    client.ReadsFrom keepaliveFormat (fun _ => .ok) (frameHeader.stream frames) ∧
      client.Gets keepaliveFormat 0 0 namelessRequest result

/-- A call that has begun to receive gets a result. -/
def Brings (left : Js.Client (List UInt8)) (events : List Js.ClientEvent)
    (frames : List (List UInt8)) (result : Except Js.CallError (List UInt8)) : Prop :=
  Guarded (Js.Client.step keepaliveFormat fun _ => .ok) Js.Client.JoinsInOrder left events ∧
    ∃ last read, run (Js.Client.step keepaliveFormat fun _ => .ok) left events = some last ∧
      (last.conns 0).received = frameHeader.stream frames ∧
      (last.calls 0).envelope = some namelessRequest ∧ (last.calls 0).phase = .settled result ∧
      last.reads[0]? = some read ∧ read.call = 0

/-- The first call of a client, up to its `recvFrame`. -/
def firstRequest : List Js.ClientEvent :=
  [.call 0 "" "" (.ok []) {}, .written 0 0 none, .resume 0, .written 0 1 none, .resume 0, .resume 0]

theorem firstCall_of_brings {events : List Js.ClientEvent} {left : Js.Client (List UInt8)}
    {frames : List (List UInt8)} {result : Except Js.CallError (List UInt8)}
    (hrun : run (Js.Client.step keepaliveFormat fun _ => .ok) (Js.Client.init {})
      (.connect :: .connected 0 false :: firstRequest) = some left)
    (hguarded : Guarded (Js.Client.step keepaliveFormat fun _ => .ok) Js.Client.JoinsInOrder
      (Js.Client.init {}) (.connect :: .connected 0 false :: firstRequest))
    (hundisturbed : ∀ event ∈ events, event.Undisturbed) (hbrings : Brings left events frames result)
    (hin_time : ∀ timeoutMs, result ≠ .error (Js.timedOut timeoutMs)) : FirstCall frames result := by
  obtain ⟨hbehind, last, read, hlast, hreceived, henvelope, hphase, hread, hcall⟩ := hbrings
  refine ⟨last, ⟨⟨{}, false, firstRequest ++ events, ?_, hguarded.append hrun hbehind,
    (run_append_of_run hrun).trans hlast⟩, [], ?_⟩,
    ⟨hphase, henvelope, ?_, ⟨read, hread, hcall⟩, hin_time⟩⟩
  · exact List.forall_mem_append.mpr ⟨by decide, hundisturbed⟩
  · rw [List.append_nil]
    exact hreceived
  · exact ⟨_, keepaliveFormat_request, by decide⟩

/-- The first call with a response, with an empty frame behind it and with one in
front of it. -/
theorem keepalive_calls :
    FirstCall [[8, 1, 16, 1]] (.ok []) ∧ FirstCall [[8, 1, 16, 1], []] (.ok []) ∧
      FirstCall [[], [8, 1, 16, 1]]
        (.error (.error "Protocol error: expected request_id 1, got 0")) := by
  obtain ⟨left, hleft, hguarded, hplain, hbehind, hfront⟩ :
      ∃ left : Js.Client (List UInt8),
        run (Js.Client.step keepaliveFormat fun _ => .ok) (Js.Client.init {})
          (.connect :: .connected 0 false :: firstRequest) = some left ∧
        Guarded (Js.Client.step keepaliveFormat fun _ => .ok) Js.Client.JoinsInOrder
          (Js.Client.init {}) (.connect :: .connected 0 false :: firstRequest) ∧
        Brings left [.data 0 [0, 0, 0, 4, 8, 1, 16, 1], .read 0, .read 0, .resume 0]
          [[8, 1, 16, 1]] (.ok []) ∧
        Brings left [.data 0 [0, 0, 0, 4, 8, 1, 16, 1, 0, 0, 0, 0], .read 0, .read 0, .resume 0]
          [[8, 1, 16, 1], []] (.ok []) ∧
        Brings left [.data 0 [0, 0, 0, 0, 0, 0, 0, 4, 8, 1, 16, 1], .read 0, .resume 0]
          [[], [8, 1, 16, 1]]
          (.error (.error "Protocol error: expected request_id 1, got 0")) := by
    refine ⟨_, run_cons_eq_some.mpr ⟨_, rfl, run_cons_eq_some.mpr ⟨_, rfl, run_cons_eq_some.mpr
      ⟨_, Js.Client.call_eq_some rfl rfl rfl rfl keepaliveFormat_request, rfl⟩⟩⟩, ?_,
      ⟨?_, _, _, rfl, rfl, rfl, rfl, rfl, rfl⟩, ⟨?_, _, _, rfl, rfl, rfl, rfl, rfl, rfl⟩,
      ⟨?_, _, _, rfl, rfl, rfl, rfl, rfl, rfl⟩⟩
    · refine .cons rfl trivial (.cons rfl trivial (.cons
        (Js.Client.call_eq_some rfl rfl rfl rfl keepaliveFormat_request) trivial (.cons rfl trivial
        (.cons rfl ?_ (.cons rfl trivial (.cons rfl ?_ (.cons rfl ?_ trivial)))))))
      · rintro c id timeoutMs ⟨⟩
      · rintro c id timeoutMs ⟨⟩
      · rintro c id timeoutMs ⟨⟩
        exact ⟨fun recv hmem => (by cases hmem), .inl rfl⟩
    · refine .cons rfl trivial (.cons rfl trivial (.cons rfl trivial (.cons rfl ?_ trivial)))
      rintro c id timeoutMs ⟨⟩
    · refine .cons rfl trivial (.cons rfl trivial (.cons rfl trivial (.cons rfl ?_ trivial)))
      rintro c id timeoutMs ⟨⟩
    · refine .cons rfl trivial (.cons rfl trivial (.cons rfl ?_ trivial))
      rintro c id timeoutMs ⟨⟩
  refine ⟨firstCall_of_brings hleft hguarded (by decide) hplain ?_,
    firstCall_of_brings hleft hguarded (by decide) hbehind ?_,
    firstCall_of_brings hleft hguarded (by decide) hfront ?_⟩
  all_goals exact fun _ h => (by cases h)

/-- An empty frame behind the response is not noticed by the call. -/
theorem empty_frame_behind_unnoticed :
    ∃ first second : Js.Client (List UInt8), ∃ result result' : Except Js.CallError (List UInt8),
      first.ReadsFrom keepaliveFormat (fun _ => .ok)
        (frameHeader.stream (plain [some [8, 1, 16, 1], none])) ∧
      second.ReadsFrom keepaliveFormat (fun _ => .ok)
        (frameHeader.stream (filled [] [some [8, 1, 16, 1], none])) ∧
      first.Gets keepaliveFormat 0 0 namelessRequest result ∧
      second.Gets keepaliveFormat 0 0 namelessRequest result' ∧ result = result' := by
  obtain ⟨⟨first, hfirst, hgets⟩, ⟨second, hsecond, hgets'⟩, -⟩ := keepalive_calls
  have hfits : frameHeader.Fits (plain [some [8, 1, 16, 1], none]) :=
    frameHeader.fits_cons.mpr ⟨by decide, frameHeader.fits_nil⟩
  obtain ⟨-, -, hcalls, -⟩ := empty_frames_unnoticed_iff keepaliveFormat_inverse
    keepaliveFormat_empty (fun _ => Except.ok) hfits
  exact ⟨first, second, _, _, hfirst, hsecond, hgets, hgets',
    (hcalls first second hfirst hsecond 0 0 _ _ _ hgets hgets').1 (by decide)⟩

/-- In front of a request, an empty frame has a response of its own; in front of a
response, it makes the call fail. -/
theorem empty_frame_taken_for_envelope :
    (∃ first second : Js.Session Js.MethodHandler,
      first.Completes noServices keepaliveFormat
        (frameHeader.stream (plain [none, some [8, 0, 16, 1, 26, 0, 34, 0, 42, 0]])) ∧
      second.Completes noServices keepaliveFormat
        (frameHeader.stream (filled [] [none, some [8, 0, 16, 1, 26, 0, 34, 0, 42, 0]])) ∧
      keepaliveFormat.envelopes first.conn.output ≠
        keepaliveFormat.envelopes second.conn.output) ∧
    ∃ first second : Js.Client (List UInt8), ∃ result result' : Except Js.CallError (List UInt8),
      first.ReadsFrom keepaliveFormat (fun _ => .ok)
        (frameHeader.stream (plain [none, some [8, 1, 16, 1]])) ∧
      second.ReadsFrom keepaliveFormat (fun _ => .ok)
        (frameHeader.stream (filled [] [none, some [8, 1, 16, 1]])) ∧
      first.Gets keepaliveFormat 0 0 namelessRequest result ∧
      second.Gets keepaliveFormat 0 0 namelessRequest result' ∧ result ≠ result' := by
  constructor
  · obtain ⟨⟨first, hfirst⟩, second, hsecond⟩ := keepalive_sessions
    refine ⟨first, second, hfirst, hsecond, ?_⟩
    have hfits : frameHeader.Fits [[8, 0, 16, 1, 26, 0, 34, 0, 42, 0]] :=
      frameHeader.fits_cons.mpr ⟨by decide, frameHeader.fits_nil⟩
    rw [(hfirst.emitted keepaliveFormat_inverse).envelopes_eq,
      (hsecond.emitted keepaliveFormat_inverse).envelopes_eq,
      EnvelopeFormat.envelopes_stream hfits,
      EnvelopeFormat.envelopes_stream (frameHeader.fits_cons.mpr ⟨Nat.zero_le _, hfits⟩)]
    intro hsame
    exact ((repliesTo_filled_eq_iff [none, some [8, 0, 16, 1, 26, 0, 34, 0, 42, 0]]).mp hsame).1
      keepalive_goesOn
  · obtain ⟨⟨first, hfirst, hgets⟩, -, second, hsecond, hgets'⟩ := keepalive_calls
    exact ⟨first, second, _, _, hfirst, hsecond, hgets, hgets', fun h => (by cases h)⟩

end Ibridger.Protocol
