import Ibridger.Cpp.FrameStream
import Ibridger.Js.Receiver
import Ibridger.Js.Sender

/-! # Framing across the two SDKs

The C++ and the JS side write the same bytes for the same payloads, and either
side reads them back, however the bytes arrive. On input that is no stream of
frames the two readers agree as well: both follow the longest parse of the
input and fail where it ends, for the same reason.
-/

namespace Ibridger.Protocol

open LengthPrefix Transition Wire
open Cpp (Accepting Delivers acceptances)
open Cpp.FramedConnection (RecvsUntilError errorOf recvFrames sendFrames)
open Js (Receiver ReceiverEvent Sender)

/-- Payloads that fit become the same bytes from either sender, and come back
from these bytes through either receiver with nothing left over. -/
theorem frames_round_trip (payloads : List (List UInt8)) (hfits : frameHeader.Fits payloads) :
    (∀ conn : Cpp.UnixSocketConnection, Accepting conn.sends →
      (frameHeader.stream payloads).length ≤ acceptances conn.sends →
      ∃ rest, sendFrames conn payloads = some (none,
        { conn with wire := conn.wire ++ frameHeader.stream payloads, sends := rest })) ∧
    (∀ events last, run Sender.step (Sender.ofPayloads payloads) events = some last →
      events.length ≤ 5 * payloads.length ∧
        ((∀ event, last.step event = none) →
          last.conn.output = frameHeader.stream payloads ∧
            last.results = payloads.map fun _ => .ok ())) ∧
    (∀ (conn : Cpp.UnixSocketConnection) behind,
      Delivers behind conn.reads (frameHeader.stream payloads) →
      ∃ left, recvFrames conn payloads.length =
          some (.ok payloads, { conn with reads := left }) ∧
        Delivers behind left []) ∧
    (∀ events last, run Receiver.step Receiver.fresh events = some last →
      events.flatMap ReceiverEvent.bytes = frameHeader.stream payloads →
      last.calls = payloads.length →
      events.countP ReceiverEvent.own ≤ 3 * payloads.length ∧
        (last.step .resume = none →
          last.payloads = payloads ∧ last.current = none ∧ last.error = none ∧
            last.conn.buffer = [])) := by
  refine ⟨?_, ?_, ?_, ?_⟩
  · intro conn haccept henough
    exact Cpp.FramedConnection.sendFrames_accepting hfits haccept henough
  · intro events last hrun
    exact ⟨Sender.length_le_of_run hrun, Sender.output_of_run hfits hrun⟩
  · intro conn behind hdelivers
    rw [← List.append_nil (frameHeader.stream payloads)] at hdelivers
    exact Cpp.FramedConnection.recvFrames_delivers conn hfits hdelivers
  · intro events last hrun harrived hcalls
    have hown := Receiver.own_le_calls hrun
    rw [hcalls] at hown
    have hreceived := (Receiver.received_of_run hrun).trans harrived
    exact ⟨hown, Receiver.payloads_of_run hrun hfits hreceived hcalls⟩

/-- An empty frame and a frame of one byte, cut inside both headers. -/
theorem frames_round_trip_in_pieces :
    ∃ left, recvFrames { Cpp.UnixSocketConnection.ofFd 3 0 with
        reads := [.got [0, 0], .failed .EINTR, .got [0, 0, 0, 0], .got [0, 1, 7]] } 2 =
      some (.ok [[], [7]], { Cpp.UnixSocketConnection.ofFd 3 0 with reads := left }) ∧
        Delivers [] left [] := by
  have hfits : frameHeader.Fits [[], [7]] := by
    intro payload hpayload
    rcases List.mem_cons.mp hpayload with rfl | hpayload
    · decide
    · rw [List.mem_singleton.mp hpayload]
      decide
  obtain ⟨-, -, hrecv, -⟩ := frames_round_trip [[], [7]] hfits
  apply hrecv
  have hstream : frameHeader.stream [[], [7]] = [0, 0] ++ ([0, 0, 0, 0] ++ ([0, 1, 7] ++ [])) := by
    decide
  rw [hstream]
  refine .segment _ (by decide) (.interrupted (.segment _ (by decide) (.segment _ (by decide) ?_)))
  exact .nil

/-- On any input that ends, repeated calls of either reader return the longest
parse of the input and then fail with the error that its ending demands. -/
theorem frames_until_error (input : List UInt8) :
    (∀ frames rest, frameHeader.LongestParse input frames rest ↔
      frames = (frameHeader.parse input).frames ∧ rest = (frameHeader.parse input).rest) ∧
    ((frameHeader.parse input).ending = .oversized ↔
      4 ≤ (frameHeader.parse input).rest.length ∧
        MAX_FRAME_SIZE < frameHeader.announced (frameHeader.parse input).rest) ∧
    (∀ (conn : Cpp.UnixSocketConnection) tail, Delivers (.got [] :: tail) conn.reads input →
      ∃ next, RecvsUntilError conn (frameHeader.parse input).frames
          (errorOf (frameHeader.parse input).ending) next ∧
        (∀ payloads err next', RecvsUntilError conn payloads err next' →
          payloads = (frameHeader.parse input).frames ∧
            err = errorOf (frameHeader.parse input).ending ∧ next' = next) ∧
        ((frameHeader.parse input).ending = .oversized →
          Delivers (.got [] :: tail) next.reads ((frameHeader.parse input).rest.drop 4))) ∧
    (∀ events last, run Receiver.step Receiver.fresh events = some last →
      events.flatMap ReceiverEvent.bytes = input →
      events.countP ReceiverEvent.own ≤ 3 * ((frameHeader.parse input).frames.length + 1) ∧
        (last.conn.socket = .closed → last.step .recvFrame = none → last.step .resume = none →
          last.payloads = (frameHeader.parse input).frames ∧
            last.error.map Js.TransportError.code =
              some (Receiver.codeOf (frameHeader.parse input).ending) ∧
            ((frameHeader.parse input).ending = .oversized →
              last.conn.buffer = (frameHeader.parse input).rest.drop 4))) := by
  refine ⟨fun frames rest => frameHeader.longestParse_iff,
    frameHeader.parse_ending_oversized_iff input, ?_, ?_⟩
  · intro conn tail hdelivers
    obtain ⟨next, hrecvs, hbody⟩ :=
      Cpp.FramedConnection.recvsUntilError_parse conn hdelivers
    refine ⟨next, hrecvs, ?_, hbody⟩
    intro payloads err next' hother
    exact hother.unique hrecvs
  · intro events last hrun harrived
    have hown := Receiver.own_le_calls hrun
    obtain ⟨front, hsplits⟩ := Receiver.splits_of_run hrun
    have hcalls := hsplits.calls_le
    have hparse := Receiver.parse_of_run hrun
    have hreceived := (Receiver.received_of_run hrun).trans harrived
    rw [hreceived] at hcalls hparse
    exact ⟨by omega, hparse⟩

end Ibridger.Protocol
