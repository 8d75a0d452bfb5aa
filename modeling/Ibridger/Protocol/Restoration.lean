import Ibridger.Cpp.Restoration
import Ibridger.Js.Restoration

/-! # Calls while a connection is lost

A client with `reconnect` is used by one caller and never told to disconnect. In C++ a call
outlives a loss whenever that comes, as long as the peer it has reached again stays up. In
JS it outlives those that come while no request is on its way.
-/

namespace Ibridger.Protocol

open Transition Wire

variable {Value : Type} {format : EnvelopeFormat}

/-- In every run in which no connection is lost while a JS call sends, and no peer leaves a
C++ call that sends for the second time, a call ends with an error only after its request
was delivered, or because that does not fit, and a call that waits gets its response once
the peer can be reached. -/
theorem reconnect_transparent (hinverse : format.Inverse)
    (decode : Nat → List UInt8 → Except String Value) {options : Js.ReconnectOptions}
    {jsConfig : Js.ClientConfig} (hjs : jsConfig.reconnect = some options)
    {config : Cpp.ReconnectConfig} {cppConfig : Cpp.ClientConfig}
    (hcpp : cppConfig.reconnect = some config) :
    (∀ events, Guarded (Js.Client.step format decode)
        (fun client event => client.Foreseen options event ∧ client.LosesBetween event)
        (Js.Client.init jsConfig) events →
      Along (Js.Client.step format decode) (Js.Client.EndsDelivered format)
          (Js.Client.init jsConfig) events ∧
        Throughout (Js.Client.step format decode) (Js.Client.Restores format decode options)
          (Js.Client.init jsConfig) events) ∧
    ∀ events, Guarded (Cpp.Client.step format)
        (fun client event => client.Foreseen config event ∧ client.StaysUp event)
        (Cpp.Client.init cppConfig) events →
      Throughout (Cpp.Client.step format)
        (fun client => client.ErrsDelivered format ∧ client.Restores format config)
        (Cpp.Client.init cppConfig) events := by
  constructor
  · intro events hguard
    have hkeep : ∀ (client : Js.Client Value) event next, client.Tended format options →
        client.Foreseen options event ∧ client.LosesBetween event →
        client.step format decode event = some next →
        next.Tended format options ∧ client.EndsDelivered format event next := by
      rintro client event next htended ⟨hforeseen, hbetween⟩ hstep
      exact htended.step hforeseen hbetween hstep
    have hfirst := @Js.Client.init_tended Value format options jsConfig hjs
    refine ⟨.of_guarded _ hkeep hfirst hguard, ?_⟩
    apply throughout_of_guarded _ _ _ hfirst hguard
    · exact fun client htended => htended.restores hinverse
    · exact fun client event next htended hallowed hstep =>
        (hkeep client event next htended hallowed hstep).1
  · intro events hguard
    apply throughout_of_guarded (Cpp.Client.Tended format config) _ _
      (Cpp.Client.init_tended hcpp) hguard
    · exact fun client htended => ⟨htended.errsDelivered, htended.restores hinverse⟩
    · rintro client event next htended ⟨hforeseen, hstays⟩ hstep
      exact htended.step hforeseen hstays hstep

/-- A JS call that is made while the connection is down, and a C++ call that is cut off
while it writes its header, get their responses on the next connection. -/
theorem nameless_call_restored :
    (∃ client : Js.Client (List UInt8),
      run (Js.Client.step Cpp.Client.counterFormat fun _ => .ok)
          (Js.Client.init { reconnect := some {} })
          [.connect, .connected 0 false, .close 0, .call 0 "" "" (.ok []) {}] = some client ∧
        Inevitable (Js.Client.step Cpp.Client.counterFormat fun _ => .ok)
          (Js.Client.Own Cpp.Client.counterFormat (Cpp.Client.acknowledge 0 0) 5)
          (fun last => last.Answered Cpp.Client.counterFormat (fun _ => .ok)
            (Cpp.Client.acknowledge 0 0) 0 1 namelessRequest) client) ∧
      ∃ client, run (Cpp.Client.step Cpp.Client.counterFormat)
          (Cpp.Client.init { reconnect := some {} })
          [.connect .connected, .call 0 "" "" [] { sends := [.accepted 3, .failed .EPIPE] }] =
            some client ∧
        Inevitable (Cpp.Client.step Cpp.Client.counterFormat)
          (Cpp.Client.Own Cpp.Client.counterFormat (Cpp.Client.acknowledge 0 0) 5)
          (fun last => last.Answered Cpp.Client.counterFormat (Cpp.Client.acknowledge 0 0) 0 1
            namelessRequest) client := by
  have hrequest : Rpc.Sendable Cpp.Client.counterFormat namelessRequest :=
    ⟨[16, 1], rfl, by decide⟩
  have hreply : Rpc.Sendable Cpp.Client.counterFormat
      (Cpp.Client.acknowledge 0 0 namelessRequest) := ⟨[8, 1, 16, 1], rfl, by decide⟩
  obtain ⟨hjs, hcpp⟩ := @reconnect_transparent (List UInt8) Cpp.Client.counterFormat
    Cpp.Client.counterFormat_inverse (fun _ => .ok) {} { reconnect := some {} } rfl {}
    { reconnect := some {} } rfl
  constructor
  · obtain ⟨client, hrun, hphase, hcodec, hencoded, henvelope, hopened⟩ :
        ∃ client : Js.Client (List UInt8),
          run (Js.Client.step Cpp.Client.counterFormat fun _ => .ok)
              (Js.Client.init { reconnect := some {} })
              [.connect, .connected 0 false, .close 0, .call 0 "" "" (.ok []) {}] = some client ∧
            (client.calls 0).phase = .waiting ∧ client.codec = none ∧
            (client.calls 0).encoded = .ok [] ∧
            Js.Client.requestEnvelope (client.calls 0) client.nextRequestId [] = namelessRequest ∧
            client.opened = 1 :=
      ⟨_, rfl, rfl, rfl, rfl, rfl, rfl⟩
    obtain ⟨-, hthroughout⟩ := hjs [.connect, .connected 0 false, .close 0,
      .call 0 "" "" (.ok []) {}] (.cons rfl ⟨⟨rfl, fun k loop h => (by cases h)⟩, trivial⟩ (.cons rfl
        ⟨fun h => (by cases h), trivial⟩ (.cons rfl ⟨⟨rfl, fun current h => (by cases h; rfl)⟩,
          fun i h => h.elim⟩ (.cons rfl ⟨⟨Nat.one_pos, fun i h => h.elim⟩, trivial⟩ trivial))))
    have hrestores := hthroughout.last hrun
    have hinevitable := hrestores (Cpp.Client.acknowledge 0 0) 5 0 [] namelessRequest rfl hphase
      hcodec hencoded henvelope hrequest hreply
    rw [hopened] at hinevitable
    exact ⟨client, hrun, hinevitable⟩
  · obtain ⟨client, hrun, hphase, hpending, hopened⟩ :
        ∃ client, run (Cpp.Client.step Cpp.Client.counterFormat)
            (Cpp.Client.init { reconnect := some {} })
            [.connect .connected, .call 0 "" "" [] { sends := [.accepted 3, .failed .EPIPE] }] =
              some client ∧
          (client.calls 0).phase = .notifying (.send (.system .EPIPE)) ∧
          (client.calls 0).request = some namelessRequest ∧ client.opened = 1 :=
      ⟨_, rfl, rfl, rfl, rfl⟩
    have hthroughout := hcpp [.connect .connected,
      .call 0 "" "" [] { sends := [.accepted 3, .failed .EPIPE] }] (.cons rfl
        ⟨fun i h => h.elim, trivial⟩ (.cons rfl ⟨⟨fun i h => h.elim, by decide,
          fun h => (by cases h)⟩, trivial⟩ trivial))
    have hrestores := hthroughout.last hrun
    obtain ⟨request, hdue, hinevitable⟩ := hrestores.2 (Cpp.Client.acknowledge 0 0) 5 0 (by decide)
      (.inr ⟨_, hphase⟩)
    unfold Cpp.Client.Due at hdue
    rw [hphase, hpending] at hdue
    cases hdue
    rw [hopened] at hinevitable
    exact ⟨client, hrun, hinevitable hrequest hreply⟩

/-- The connection ends while a call writes its header. -/
def cutOff : List Js.ClientEvent :=
  [.connect, .connected 0 false, .call 0 "" "" (.ok []) {}, .close 0,
    .written 0 0 (some ("write EPIPE", some "EPIPE")), .resume 0]

/-- The JS call is rejected although the next connection is made at the first attempt, and
its request never goes out on that. -/
theorem cut_off_call_rejected :
    ∃ last : Js.Client (List UInt8),
      run (Js.Client.step (.knowing [(namelessRequest, [16, 1])]) fun _ => .ok)
          (Js.Client.init { reconnect := some {} })
          (cutOff ++ [.resume 0, .sleepOver 0, .connected 1 false]) = some last ∧
        Guarded (Js.Client.step (.knowing [(namelessRequest, [16, 1])]) fun _ => .ok)
          (Js.Client.Foreseen {}) (Js.Client.init { reconnect := some {} })
          (cutOff ++ [.resume 0, .sleepOver 0, .connected 1 false]) ∧
        last.codec = some 1 ∧ (last.conns 1).output = [] ∧
        (last.calls 0).phase = .settled (.error (.transport ⟨"write EPIPE", "EPIPE"⟩)) ∧
        ¬ Along (Js.Client.step (.knowing [(namelessRequest, [16, 1])]) fun _ => .ok)
          (Js.Client.EndsDelivered (.knowing [(namelessRequest, [16, 1])]))
          (Js.Client.init { reconnect := some {} })
          (cutOff ++ [.resume 0, .sleepOver 0, .connected 1 false]) := by
  have hserialize : (EnvelopeFormat.knowing [(namelessRequest, [16, 1])]).serialize
      namelessRequest = some [16, 1] :=
    EnvelopeFormat.knowing_serialize (by decide) (by decide)
  obtain ⟨client, hrun, hguard, hphase, hencoded, henvelope, last, hmore, hguard', hends⟩ :
      ∃ client : Js.Client (List UInt8),
        run (Js.Client.step (.knowing [(namelessRequest, [16, 1])]) fun _ => .ok)
            (Js.Client.init { reconnect := some {} }) cutOff = some client ∧
          Guarded (Js.Client.step (.knowing [(namelessRequest, [16, 1])]) fun _ => .ok)
            (Js.Client.Foreseen {}) (Js.Client.init { reconnect := some {} }) cutOff ∧
          (client.calls 0).phase =
            .sending 0 1 30000 (.settled (.error ⟨"write EPIPE", "EPIPE"⟩)) ∧
          (client.calls 0).encoded = .ok [] ∧
          (client.calls 0).envelope = some namelessRequest ∧
          ∃ last, run (Js.Client.step (.knowing [(namelessRequest, [16, 1])]) fun _ => .ok) client
              [.resume 0, .sleepOver 0, .connected 1 false] = some last ∧
            Guarded (Js.Client.step (.knowing [(namelessRequest, [16, 1])]) fun _ => .ok)
              (Js.Client.Foreseen {}) client [.resume 0, .sleepOver 0, .connected 1 false] ∧
            last.codec = some 1 ∧ (last.conns 1).output = [] ∧
            (last.calls 0).phase = .settled (.error (.transport ⟨"write EPIPE", "EPIPE"⟩)) :=
    ⟨_, run_cons_eq_some.mpr ⟨_, rfl, run_cons_eq_some.mpr ⟨_, rfl, run_cons_eq_some.mpr
      ⟨_, Js.Client.call_eq_some rfl rfl rfl rfl hserialize, rfl⟩⟩⟩,
      .cons rfl ⟨rfl, fun _ _ h => (by cases h)⟩ (.cons rfl (fun h => (by cases h)) (.cons
        (Js.Client.call_eq_some rfl rfl rfl rfl hserialize) ⟨Nat.one_pos, fun _ h => h.elim⟩ (.cons rfl
          ⟨rfl, fun _ h => (by cases h; rfl)⟩ (.cons rfl trivial (.cons rfl trivial trivial))))),
      rfl, rfl, rfl, _, rfl,
      .cons rfl trivial (.cons rfl trivial (.cons rfl (fun h => (by cases h)) trivial)), rfl, rfl, rfl⟩
  obtain ⟨hcodec, houtput, hsettled⟩ := hends
  refine ⟨last, ?_, hguard.append hrun hguard', hcodec, houtput, hsettled, ?_⟩
  · rw [run_append_of_run hrun]
    exact hmore
  · intro halong
    have hstep : client.step (.knowing [(namelessRequest, [16, 1])]) (fun _ => .ok) (.resume 0) =
        some (client.finish 0 (.error (.transport ⟨"write EPIPE", "EPIPE"⟩))) := by
      simp only [Js.Client.step, Js.Client.resume, hphase]
    have hself : (client.finish 0 (.error (.transport ⟨"write EPIPE", "EPIPE"⟩))).calls 0 =
        { client.calls 0 with
          phase := .settled (.error (.transport ⟨"write EPIPE", "EPIPE"⟩)) } :=
      client.setPhase_self 0 _
    obtain ⟨hdelivered, -⟩ := (halong.behind hrun) _ hstep
    rcases hdelivered 0 _ (by rw [hself]) with hbefore | hsent | ⟨message, hmessage⟩ |
      ⟨request, hrequest, hlarge⟩
    · rw [hphase] at hbefore
      cases hbefore
    · rw [hphase] at hsent
      cases hsent
    · rw [hself, hencoded] at hmessage
      cases hmessage
    · rw [hself, henvelope] at hrequest
      cases hrequest
      exact hlarge ⟨[16, 1], hserialize, by decide⟩

end Ibridger.Protocol
