import Ibridger.Js.OverlappingSends

/-! # When JS frames stay whole

Overlapping `sendFrame` calls write whole frames exactly as long as none begins while
another is between its header and its payload.
-/

namespace Ibridger.Js.Writers

open LengthPrefix Transition Wire

variable {writers next : Writers} {assembly : Assembly UInt8}

/-- A call that has ended well has its frame in the log. -/
theorem Orderly.framed_of_ended (horderly : Orderly writers assembly) {k : Nat}
    (hended : writers.Ended k (.ok ())) : (k, (writers.calls k).payload) ∈ assembly.frames := by
  obtain ⟨hk, hsend⟩ := hended
  have htracks := horderly.tracks k hk
  rw [hsend] at htracks
  cases htracks with
  | succeeded hframe => exact hframe

/-- Where no write has failed, a call that has ended with its frame in the log has ended
well. -/
theorem Orderly.ended_of_framed (horderly : Orderly writers assembly)
    (hunbroken : writers.broken = false) {k : Nat} {payload : List UInt8}
    (hframe : (k, payload) ∈ assembly.frames) {result : Except TransportError Unit}
    (hended : writers.Ended k result) : writers.Ended k (.ok ()) := by
  obtain ⟨hk, hsend⟩ := hended
  refine ⟨hk, ?_⟩
  have htracks := horderly.tracks k hk
  rw [hsend] at htracks ⊢
  cases htracks with
  | succeeded => rfl
  | failed error hnone => exact absurd hframe (hnone hunbroken payload)

theorem Orderly.atomic (horderly : Orderly writers assembly) : Atomic writers := by
  have hassembled := horderly.assembled
  refine ⟨⟨assembly, hassembled.assemble_eq, fun k hk => horderly.framed_of_ended hk,
    fun hunbroken => (horderly.output_eq hunbroken).trans
      (written_eq frameHeader hassembled.assemble_eq)⟩, ?_⟩
  intro hunbroken hall
  refine ⟨assembly.frames.map Prod.fst, hassembled.sorted, ?_, ?_⟩
  · intro k
    constructor
    · intro hk
      obtain ⟨⟨call, payload⟩, hframe, rfl⟩ := List.mem_map.mp hk
      obtain ⟨result, hended⟩ := hall call (hassembled.framed call payload hframe).1
      exact horderly.ended_of_framed hunbroken hframe hended
    · intro hended
      exact List.mem_map.mpr ⟨_, horderly.framed_of_ended hended, rfl⟩
  · have hfits : frameHeader.Fits assembly.payloads := by
      intro payload hpayload
      obtain ⟨frame, hframe, rfl⟩ := List.mem_map.mp hpayload
      exact (hassembled.framed frame.1 frame.2 hframe).2.2
    have hhalf : ∀ call payload, assembly.half = some (call, payload) →
        payload ≠ [] ∧ payload.length ≤ frameHeader.limit := by
      intro call payload h
      obtain ⟨-, -, hshort, hne, -⟩ := hassembled.half call payload h
      exact ⟨hne, hshort⟩
    rw [horderly.output_eq hunbroken, parse_written frameHeader hassembled.assemble_eq hfits hhalf,
      Assembly.payloads, List.map_map]
    apply List.map_congr_left
    intro frame hframe
    exact (hassembled.framed frame.1 frame.2 hframe).2.1

/-- A header behind another header cuts the frames apart. -/
theorem Interleaves.not_atomic {event : WriteEvent} (horderly : Orderly writers assembly)
    (hinterleaves : Interleaves writers event) (hstep : writers.step event = some next) :
    ¬ Atomic next := by
  intro hatomic
  cases event with
  | sendFrame payload =>
      obtain ⟨hfits, hlive, k, hk, ticket, data, hsend, hdata⟩ := hinterleaves
      cases hstep
      obtain ⟨after, hafter, -⟩ := hatomic.whole
      have htracks := horderly.tracks k hk
      rw [hsend] at htracks
      obtain ⟨rfl, hticket, -, hwaits⟩ := htracks.of_header
      have hhalf := (hwaits hdata).1 (horderly.certain hlive hticket)
      rw [(sendFrame_begins hfits).log_eq, record, if_pos hlive, assemble_concat,
        horderly.assembled.assemble_eq, Option.bind_some, Assembly.add_header_eq_none hhalf]
        at hafter
      cases hafter
  | written | resume | close | onClose | onError => exact hinterleaves

/-- Every header is directly followed by its own payload, and a reader finds the payloads
of the calls that succeed, exactly as long as no call interleaves. -/
theorem run_atomic_iff (events : List WriteEvent) :
    Throughout step Atomic init events ↔
      Guarded step (fun writers event => ¬ Interleaves writers event) init events := by
  apply throughout_iff_guarded (fun writers => ∃ assembly, Orderly writers assembly)
  · rintro writers ⟨assembly, horderly⟩
    exact horderly.atomic
  · rintro writers event next ⟨assembly, horderly⟩ hapart hstep
    exact horderly.step hapart hstep
  · rintro writers event next ⟨assembly, horderly⟩ hinterleaves hstep
    exact Interleaves.not_atomic horderly (not_not.mp hinterleaves) hstep
  · exact ⟨.empty, init_orderly⟩

/-- Both calls succeed, but the four bytes behind the first header are the header of the
second call. -/
theorem overlapping_sends_interleave :
    (∃ writers, run step init [.sendFrame [1, 2, 3, 4], .sendFrame [5, 6], .written 0 none,
        .written 1 none, .resume 0, .resume 1, .written 2 none, .written 3 none, .resume 0,
        .resume 1] = some writers ∧
      writers.Ended 0 (.ok ()) ∧ writers.Ended 1 (.ok ()) ∧
      writers.conn.output = [0, 0, 0, 4, 0, 0, 0, 2, 1, 2, 3, 4, 5, 6]) ∧
    ¬ ∀ events, Throughout step Atomic init events := by
  refine ⟨⟨_, rfl, ⟨by decide, rfl⟩, ⟨by decide, rfl⟩, rfl⟩, ?_⟩
  intro hall
  obtain ⟨-, halong⟩ := hall [.sendFrame [1, 2, 3, 4], .sendFrame [5, 6]]
  obtain ⟨-, halong⟩ := halong _ rfl
  obtain ⟨hatomic, -⟩ := halong _ rfl
  obtain ⟨assembly, hassemble, -⟩ := hatomic.whole
  cases hassemble

end Ibridger.Js.Writers
