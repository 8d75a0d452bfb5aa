import Ibridger.Cpp.Deadlines
import Ibridger.Js.Deadlines
import Ibridger.Js.SameConnection

/-! # The deadline of a call

A call in flight waits for the peer to take its request and then for the response.
The JS client arms its timer for the second wait only, and the C++ client none.
-/

namespace Ibridger.Protocol

open Transition Wire

variable {Value : Type} {format : EnvelopeFormat}
  {decode : Nat → List UInt8 → Except String Value}

variable (format decode) in
/-- Every call that waits for its peer has a deadline exactly where no call writes a
request: in JS in each state that is reached, and so along each run; in C++, where
the peer has not taken anything in advance, for each call and whatever its timeout. -/
theorem calls_have_deadline_iff :
    (∀ config events, Throughout (Js.Client.step format decode) Js.Client.Deadline
        (Js.Client.init config) events ↔
      Guarded (Js.Client.step format decode)
        (fun client event => ¬ Js.Client.WritesRequest format client event)
        (Js.Client.init config) events) ∧
    (∀ config client, Reachable (Js.Client.step format decode) (Js.Client.init config) client →
      (client.Deadline ↔ ∀ i, ¬ client.Writes i)) ∧
    ∀ (config : Cpp.TimedClientConfig) client event c request,
      Reachable (Cpp.Client.step format) (Cpp.Client.init config.toClientConfig) client →
      client.exchangeOf event = some (c, request) → (client.links c).conn.sends = [] →
      (client.Ends format event ↔
        ∀ bytes, format.serialize request = some bytes → MAX_FRAME_SIZE < bytes.length) := by
  refine ⟨Js.Client.throughout_deadline_iff, ?_, ?_⟩
  · intro config client hreach
    have htimed : Js.Client.Timed client :=
      hreach.invariant Js.Client.Timed (fun _ _ _ => Js.Client.Timed.step)
        (Js.Client.init_timed config)
    exact htimed.deadline_iff
  · intro config client event c request _ hexchange hsends
    exact Cpp.Client.ends_iff hexchange hsends

/-- A JS client that connects, and a C++ client whose peer takes nothing. -/
theorem calls_have_deadline_connected :
    Throughout (Js.Client.step (.knowing []) fun _ => .ok) Js.Client.Deadline
        (Js.Client.init {} : Js.Client (List UInt8)) [.connect, .connected 0 false] ∧
      ∃ client, Reachable (Cpp.Client.step (.knowing [(namelessRequest, [16, 1])]))
          (Cpp.Client.init {}) client ∧
        ¬ client.Ends (.knowing [(namelessRequest, [16, 1])]) (.call 0 "" "" [] {}) := by
  have hiff := calls_have_deadline_iff (.knowing [(namelessRequest, [16, 1])])
    fun _ => (.ok : List UInt8 → Except String (List UInt8))
  have hjs := (calls_have_deadline_iff (.knowing [])
    fun _ => (.ok : List UInt8 → Except String (List UInt8))).1 {} [.connect, .connected 0 false]
  refine ⟨hjs.mpr (.cons rfl ?_ (.cons rfl ?_ trivial)), ?_⟩
  · rintro ⟨call, c, payload, bytes, hstarting, -⟩
    cases hstarting
  · rintro ⟨call, c, payload, bytes, hstarting, -⟩
    cases hstarting
  · have hreach : Reachable (Cpp.Client.step (.knowing [(namelessRequest, [16, 1])]))
        (Cpp.Client.init {}) _ := ⟨[.connect .connected], rfl⟩
    refine ⟨_, hreach, ?_⟩
    intro hends
    have hsize := (hiff.2.2 {} _ (.call 0 "" "" [] {}) 0 namelessRequest hreach rfl rfl).mp hends
      [16, 1] rfl
    exact absurd hsize (by decide)

/-- A JS call whose peer does not read, and a C++ call whose peer does not answer. -/
theorem call_without_deadline :
    (∃ client : Js.Client (List UInt8),
      run (Js.Client.step (.knowing Js.Client.firstRequest) fun _ => .ok)
          (Js.Client.init { defaultTimeout := some 50 })
          [.connect, .connected 0 false, .call 0 "" "" (.ok []) {}] = some client ∧
        client.callInFlight = true ∧ client.Writes 0 ∧ client.timeout 0 = none ∧
        ¬ client.Deadline) ∧
      ∃ client, run (Cpp.Client.step (.knowing [(namelessRequest, [16, 1])]))
          (Cpp.Client.init ({ timeout := 50 } : Cpp.TimedClientConfig).toClientConfig)
          [.connect .connected] = some client ∧
        client.step (.knowing [(namelessRequest, [16, 1])])
          (.call 0 "" "" [] { sends := [.accepted 100, .accepted 100] }) = none := by
  constructor
  · have hserialize : (EnvelopeFormat.knowing Js.Client.firstRequest).serialize namelessRequest =
        some [8, 0, 16, 1, 26, 0, 34, 0, 42, 0] :=
      EnvelopeFormat.knowing_serialize (by decide) (by decide)
    refine ⟨_, run_cons_eq_some.mpr ⟨_, rfl, run_cons_eq_some.mpr ⟨_, rfl, run_cons_eq_some.mpr
      ⟨_, Js.Client.call_eq_some rfl rfl rfl rfl hserialize, rfl⟩⟩⟩, rfl, rfl, rfl, ?_⟩
    refine @Js.Client.Writes.not_deadline _ _ 0 ?_
    exact rfl
  · exact ⟨_, rfl, Cpp.Client.step_unanswered rfl rfl rfl⟩

end Ibridger.Protocol
