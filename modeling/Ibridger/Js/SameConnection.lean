import Ibridger.Js.ClientStep
import Ibridger.Wire.KnownMessages

/-! # A call stays on its connection

`call` reads `this.codec` for `send` and, after an `await`, once more for
`recv`. In between the codec may have been forgotten or replaced.
-/

namespace Ibridger.Js

open Transition UnixSocketConnection Wire

namespace Client

variable {Value : Type} {format : EnvelopeFormat}
  {decode : Nat → List UInt8 → Except String Value}

/-- A `recvFrame` was made for the call. -/
def Receives (client : Client Value) (i : Nat) : Prop :=
  ∃ read ∈ client.reads, read.call = i

/-- Responses are read from the connections that the requests were written to. A
call that was to be sent and for which nothing was read has failed to be sent. -/
structure OnItsConnection (client : Client Value) : Prop where
  reads : ∀ read ∈ client.reads, (client.calls read.call).conn = some read.conn
  lost : ∀ i c result, (client.calls i).conn = some c →
    (client.calls i).phase = .settled result → ¬ client.Receives i →
    result = .error .unserializable ∨ ∃ error, result = .error (.transport error)

/-- When the request of a call has been sent, the codec is still that of its connection. -/
def KeepsCodec (client : Client Value) : ClientEvent → Prop
  | .resume i => ∀ c id timeoutMs,
      (client.calls i).phase = .sending c id timeoutMs (.settled (.ok ())) → client.codec = some c
  | _ => True

/-- How the phase of a call agrees with the connection it has written to and with
whether it has read. -/
inductive Tied (received : Prop) : CallPhase Value → Option Nat → Prop where
  | idle : Tied received .idle none
  | waiting : Tied received .waiting none
  | starting : Tied received .starting none
  | sending (c id timeoutMs : Nat) (send : FrameSend) (hnone : ¬ received) :
      Tied received (.sending c id timeoutMs send) (some c)
  | receiving (r id timeoutMs : Nat) (conn : Option Nat) (hreceived : received) :
      Tied received (.receiving r id timeoutMs) conn
  | unserializable (conn : Option Nat) : Tied received (.failing .unserializable) conn
  | failing (error : CallError) (conn : Option Nat) (hreceived : received) :
      Tied received (.failing error) conn
  | rejected (result : Except CallError Value) : Tied received (.settled result) none
  | unsent (error : CallError) (conn : Option Nat)
      (herror : error = .unserializable ∨ ∃ cause, error = .transport cause) :
      Tied received (.settled (.error error)) conn
  | settled (result : Except CallError Value) (conn : Option Nat) (hreceived : received) :
      Tied received (.settled result) conn

structure SameConnection (client : Client Value) : Prop where
  tied : ∀ i, Tied (client.Receives i) (client.calls i).phase (client.calls i).conn
  reads : ∀ read ∈ client.reads, (client.calls read.call).conn = some read.conn

theorem Tied.congr {received later : Prop} {phase : CallPhase Value} {conn : Option Nat}
    (htied : Tied received phase conn) (hiff : received ↔ later) : Tied later phase conn := by
  rwa [← propext hiff]

theorem Tied.conn_of_idle {received : Prop} {conn : Option Nat}
    (htied : Tied received (.idle : CallPhase Value) conn) : conn = none := by
  cases htied
  rfl

theorem Tied.conn_of_waiting {received : Prop} {conn : Option Nat}
    (htied : Tied received (.waiting : CallPhase Value) conn) : conn = none := by
  cases htied
  rfl

theorem Tied.conn_of_starting {received : Prop} {conn : Option Nat}
    (htied : Tied received (.starting : CallPhase Value) conn) : conn = none := by
  cases htied
  rfl

theorem Tied.conn_of_sending {received : Prop} {conn : Option Nat} {c id timeoutMs : Nat}
    {send : FrameSend} (htied : Tied received (.sending c id timeoutMs send : CallPhase Value) conn) :
    conn = some c ∧ ¬ received := by
  cases htied with
  | sending c id timeoutMs send hnone => exact ⟨rfl, hnone⟩

theorem Tied.receives_of_receiving {received : Prop} {conn : Option Nat} {r id timeoutMs : Nat}
    (htied : Tied received (.receiving r id timeoutMs : CallPhase Value) conn) : received := by
  cases htied
  assumption

theorem Tied.of_failing {received : Prop} {conn : Option Nat} {error : CallError}
    (htied : Tied received (.failing error : CallPhase Value) conn) :
    error = .unserializable ∨ received := by
  cases htied with
  | unserializable => exact .inl rfl
  | failing error conn hreceived => exact .inr hreceived

theorem SameConnection.onItsConnection {client : Client Value} (hsame : SameConnection client) :
    OnItsConnection client := by
  refine ⟨hsame.reads, ?_⟩
  intro i c result hconn hphase hnone
  have htied := hsame.tied i
  rw [hphase, hconn] at htied
  cases htied with
  | unsent error conn herror =>
      rcases herror with rfl | ⟨cause, rfl⟩
      · exact .inl rfl
      · exact .inr ⟨cause, rfl⟩
  | settled result conn hreceived => exact absurd hreceived hnone

theorem init_sameConnection (config : ClientConfig) :
    SameConnection (init config : Client Value) :=
  ⟨fun _ => .idle, fun _ hmem => (by cases hmem)⟩

/-- Steps that are not of a call leave all calls where they are. -/
theorem SameConnection.congr {client next : Client Value} (hsame : SameConnection client)
    (hkept : CallsKept client next) : SameConnection next := by
  have howner : ∀ {first second : Client Value}, first.reads.map Read.owner =
      second.reads.map Read.owner → ∀ read ∈ first.reads,
      ∃ other ∈ second.reads, other.call = read.call ∧ other.conn = read.conn := by
    intro first second heq read hmem
    obtain ⟨other, hother, hpair⟩ := List.mem_map.mp (heq ▸ @List.mem_map_of_mem _ _ _ _ Read.owner hmem)
    exact ⟨other, hother, congrArg Prod.fst hpair, congrArg Prod.snd hpair⟩
  refine ⟨?_, ?_⟩
  · intro i
    rw [hkept.calls_eq]
    apply (hsame.tied i).congr
    constructor
    · rintro ⟨read, hmem, rfl⟩
      obtain ⟨other, hother, hcall, -⟩ := howner hkept.owners_eq.symm read hmem
      exact ⟨other, hother, hcall⟩
    · rintro ⟨read, hmem, rfl⟩
      obtain ⟨other, hother, hcall, -⟩ := howner hkept.owners_eq read hmem
      exact ⟨other, hother, hcall⟩
  · intro read hmem
    obtain ⟨other, hother, hcall, hconn⟩ := howner hkept.owners_eq read hmem
    rw [hkept.calls_eq, ← hcall, ← hconn]
    exact hsame.reads other hother

/-- A call moves on, and nothing more is read. -/
theorem SameConnection.update {client next : Client Value} (hsame : SameConnection client)
    {i : Nat} {call : Call Value} (hcalls : next.calls = Function.update client.calls i call)
    (hreads : next.reads = client.reads)
    (htied : Tied (client.Receives i) call.phase call.conn)
    (hconn : call.conn = (client.calls i).conn ∨ (client.calls i).conn = none) :
    SameConnection next := by
  have hreceives : ∀ j, next.Receives j = client.Receives j := by
    intro j
    rw [Receives, hreads, Receives]
  refine ⟨?_, ?_⟩
  · intro j
    rw [hreceives, hcalls]
    by_cases hj : j = i
    · subst hj
      rw [Function.update_self]
      exact htied
    · rw [Function.update_of_ne hj]
      exact hsame.tied j
  · intro read hmem
    rw [hreads] at hmem
    have hread := hsame.reads read hmem
    rw [hcalls]
    by_cases hj : read.call = i
    · subst hj
      rw [Function.update_self]
      rcases hconn with hconn | hconn
      · rw [hconn, hread]
      · rw [hconn] at hread
        cases hread
    · rw [Function.update_of_ne hj]
      exact hread

/-- A call that moves on stays on its connection. -/
theorem SameConnection.setPhase {client next : Client Value} (hsame : SameConnection client)
    {i : Nat} {phase : CallPhase Value} (hcalls : next.calls = (client.setPhase i phase).calls)
    (hreads : next.reads = client.reads)
    (htied : Tied (client.Receives i) phase (client.calls i).conn) : SameConnection next :=
  hsame.update hcalls hreads htied (.inl rfl)

theorem SameConnection.start {client : Client Value} (hsame : SameConnection client) {i : Nat}
    (hphase : (client.calls i).phase = .starting) : SameConnection (client.start format i) := by
  have hconn : (client.calls i).conn = none := (hphase ▸ hsame.tied i).conn_of_starting
  have hnone : ¬ client.Receives i := by
    rintro ⟨read, hmem, rfl⟩
    rw [hsame.reads read hmem] at hconn
    cases hconn
  have hstarts := client.start_cases format i
  generalize client.start format i = next at hstarts
  cases hstarts with
  | rejected error =>
      refine hsame.setPhase rfl rfl ?_
      rw [hconn]
      exact .rejected _
  | unserializable c payload hcodec hidle hencoded hserialize =>
      refine hsame.update (begun_setPhase_calls client i c payload _) rfl ?_ (.inr hconn)
      exact .unserializable _
  | sending c payload bytes hcodec hidle hencoded hserialize =>
      refine hsame.update (begun_setPhase_calls client i c payload _) rfl ?_ (.inr hconn)
      exact .sending _ _ _ _ hnone

/-- On the connection that its request was written to, a call goes on to read. -/
theorem SameConnection.receive {client : Client Value} (hsame : SameConnection client)
    {i c id timeoutMs : Nat} (hconn : (client.calls i).conn = some c)
    (hcodec : client.codec = some c) : SameConnection (client.receive i id timeoutMs) := by
  have hcalls := receive_calls hcodec i id timeoutMs
  have hreads := receive_reads hcodec i id timeoutMs
  generalize client.receive i id timeoutMs = next at *
  have hconns : ∀ j, (next.calls j).conn = (client.calls j).conn := by
    intro j
    rw [hcalls]
    by_cases hj : j = i
    · subst hj
      rw [Function.update_self]
    · rw [Function.update_of_ne hj]
  refine ⟨?_, ?_⟩
  · intro j
    rw [hcalls]
    by_cases hj : j = i
    · subst hj
      rw [Function.update_self]
      rw [hconn]
      refine .receiving _ _ _ _ ⟨⟨j, c, (recvFrame (client.conns c)).1⟩, ?_, rfl⟩
      rw [hreads]
      exact List.mem_append_right _ List.mem_cons_self
    · rw [Function.update_of_ne hj]
      apply (hsame.tied j).congr
      simp only [Receives, hreads, List.mem_append, List.mem_singleton]
      constructor
      · rintro ⟨other, hmem, rfl⟩
        exact ⟨other, .inl hmem, rfl⟩
      · rintro ⟨other, hmem | rfl, rfl⟩
        · exact ⟨other, hmem, rfl⟩
        · exact absurd rfl hj
  · intro other hmem
    rw [hconns]
    rw [hreads] at hmem
    rcases List.mem_append.mp hmem with hold | hnew
    · exact hsame.reads other hold
    · rw [List.mem_singleton.mp hnew, hconn]

theorem SameConnection.resume {client next : Client Value} (hsame : SameConnection client)
    {i : Nat} (hkeeps : client.KeepsCodec (.resume i))
    (hresume : client.resume format decode i = some next) : SameConnection next := by
  have htied := hsame.tied i
  cases resume_cases hresume with
  | starting hphase => exact hsame.start hphase
  | receiving c id timeoutMs hphase =>
      rw [hphase] at htied
      exact hsame.receive htied.conn_of_sending.1 (hkeeps c id timeoutMs hphase)
  | unsent c id timeoutMs error hphase =>
      exact hsame.setPhase rfl rfl (.unsent _ _ (.inr ⟨error, rfl⟩))
  | sending c id timeoutMs send result hphase hsend =>
      rw [hphase] at htied
      refine hsame.setPhase rfl rfl ?_
      rw [htied.conn_of_sending.1]
      exact .sending _ _ _ _ htied.conn_of_sending.2
  | received r id timeoutMs read result hphase hread hsettled =>
      rw [hphase] at htied
      exact hsame.setPhase rfl rfl (.settled _ _ htied.receives_of_receiving)
  | failing error hphase =>
      rw [hphase] at htied
      refine hsame.setPhase rfl rfl ?_
      rcases htied.of_failing with rfl | hreceived
      · exact .unsent _ _ (.inl rfl)
      · exact .settled _ _ hreceived

theorem SameConnection.step {client next : Client Value} {event : ClientEvent}
    (hsame : SameConnection client) (hkeeps : client.KeepsCodec event)
    (hstep : client.step format decode event = some next) : SameConnection next := by
  by_cases hkept : ¬ event.OfCall
  · exact hsame.congr (step_callsKept hkept hstep)
  cases event with
  | call i service method encoded options =>
      obtain ⟨hphase, hnext⟩ := call_cases hstep
      have hconn : (client.calls i).conn = none := by
        have htied := hsame.tied i
        rw [hphase] at htied
        exact htied.conn_of_idle
      have hcalled : SameConnection (client.called i service method encoded options) :=
        hsame.update rfl rfl .starting (.inr hconn)
      rcases hnext with ⟨-, rfl⟩ | rfl
      · refine hcalled.setPhase rfl rfl ?_
        simp only [called, setCall, Function.update_self]
        exact .waiting
      · apply hcalled.start
        simp only [called, setCall, Function.update_self]
  | poll i =>
      obtain ⟨hphase, hnext⟩ := poll_cases hstep
      have htied := hsame.tied i
      rw [hphase] at htied
      rcases hnext with rfl | rfl | rfl
      · refine hsame.setPhase rfl rfl ?_
        rw [htied.conn_of_waiting]
        exact .starting
      · exact hsame
      · refine hsame.setPhase rfl rfl ?_
        rw [htied.conn_of_waiting]
        exact .rejected _
  | timeout i =>
      obtain ⟨r, id, timeoutMs, hphase, rfl⟩ := timeout_cases hstep
      have htied := hsame.tied i
      rw [hphase] at htied
      exact hsame.setPhase rfl rfl (.failing _ _ htied.receives_of_receiving)
  | resume i => exact hsame.resume hkeeps hstep
  | connect | disconnect | connected | connectFailed | data | close | error | written | sleepOver
  | read => exact absurd id hkept

/-- A call that reads after its codec is gone fails on `null`, or reads from the
connection that has taken its place. -/
theorem not_onItsConnection {client next : Client Value} {event : ClientEvent}
    (hsame : SameConnection client) (hloses : ¬ client.KeepsCodec event)
    (hstep : client.step format decode event = some next) : ¬ next.OnItsConnection := by
  cases event with
  | resume i =>
      simp only [KeepsCodec, not_forall] at hloses
      obtain ⟨c, id, timeoutMs, hphase, hcodec⟩ := hloses
      have htied := hsame.tied i
      rw [hphase] at htied
      obtain ⟨hconn, hnone⟩ := htied.conn_of_sending
      have hnext : client.receive i id timeoutMs = next := by
        simp only [Client.step, Client.resume, hphase] at hstep
        exact Option.some_inj.mp hstep
      unfold receive at hnext
      intro hon
      split at hnext
      · -- `this.codec.recv()` on `null`
        subst hnext
        have hlost := hon.lost i c (.error .typeError)
        simp only [finish, settle, Client.setPhase, setCall, Function.update_self] at hlost
        rcases hlost hconn trivial hnone with herror | ⟨cause, herror⟩
        · cases herror
        · cases herror
      next other hother =>
        subst hnext
        have hread := hon.reads ⟨i, other, (recvFrame (client.conns other)).1⟩
          (List.mem_append_right _ List.mem_cons_self)
        simp only [Client.setPhase, setCall, setConn, Function.update_self] at hread
        rw [hconn] at hread
        rw [hother] at hcodec
        exact hcodec hread.symm
  | connect | disconnect | call | connected | connectFailed | data | close | error | written
  | sleepOver | poll | timeout | read => exact absurd trivial hloses

/-- All calls of a run stay on their connections exactly when each finds its codec
unchanged when its request has been sent. -/
theorem calls_stay_iff (config : ClientConfig) (events : List ClientEvent) :
    Throughout (step format decode) OnItsConnection (init config) events ↔
      Guarded (step format decode) KeepsCodec (init config) events := by
  apply throughout_iff_guarded SameConnection
  · intro client
    exact SameConnection.onItsConnection
  · intro client event next hsame hkeeps hstep
    exact hsame.step hkeeps hstep
  · intro client event next hsame hloses hstep
    exact not_onItsConnection hsame hloses hstep
  · exact init_sameConnection config

/-- What protobuf.js writes for a first request without names and payload. -/
def firstRequest : List (Envelope × List UInt8) :=
  [(namelessRequest, [8, 0, 16, 1, 26, 0, 34, 0, 42, 0])]

/-- Two calls of `connect` overlap. The second connection opens while the first one
takes the request: the call reads from the second. -/
theorem reply_read_from_another_connection :
    ∃ last : Client (List UInt8),
      run (step (.knowing firstRequest) fun _ => .ok) (init {})
        [.connect, .connect, .connected 0 false, .call 0 "" "" (.ok []) {}, .written 0 0 none,
          .resume 0, .connected 1 false, .written 0 1 none, .resume 0, .resume 0] =
        some last ∧
      (last.calls 0).conn = some 0 ∧ last.reads.map Read.owner = [(0, 1)] ∧
      ¬ last.OnItsConnection := by
  have hserialize : (EnvelopeFormat.knowing firstRequest).serialize namelessRequest =
      some [8, 0, 16, 1, 26, 0, 34, 0, 42, 0] :=
    EnvelopeFormat.knowing_serialize (by decide) (by decide)
  refine ⟨_, run_cons_eq_some.mpr ⟨_, rfl, run_cons_eq_some.mpr ⟨_, rfl, run_cons_eq_some.mpr
    ⟨_, rfl, run_cons_eq_some.mpr ⟨_, call_eq_some rfl rfl rfl rfl hserialize, rfl⟩⟩⟩⟩,
    rfl, rfl, ?_⟩
  intro hon
  have hread := hon.reads _ List.mem_cons_self
  cases hread

end Client

end Ibridger.Js
