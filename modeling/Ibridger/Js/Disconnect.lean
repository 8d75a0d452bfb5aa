import Ibridger.Js.ClientStep
import Ibridger.Wire.KnownMessages

/-! # Disconnecting the JS client

What `disconnect` promises to be, and when it is: `codecAsCloseable` finds no
method `close` on the codec, so `disconnect` only forgets the codec, and the
connection, pending connects and reconnect loops go on.
-/

namespace Ibridger.Js

open Transition UnixSocketConnection Wire

namespace Client

variable {Value : Type} {format : EnvelopeFormat}
  {decode : Nat → List UInt8 → Except String Value}

/-! ## What `disconnect` is to be -/

/-- The call sends its request on the connection or awaits its response from it. -/
def Uses (client : Client Value) (i c : Nat) : Prop :=
  match (client.calls i).phase with
  | .sending other _ _ _ => other = c
  | .receiving r _ _ => ∃ read, client.reads[r]? = some read ∧ read.conn = c
  | _ => False

variable (format decode) in
/-- Nothing that the call awaits has settled, no `recvFrame` made for it can go
on, and no write on the connection is under way. -/
structure AtRest (client : Client Value) (i c : Nat) : Prop where
  resume_none : client.step format decode (.resume i) = none
  read_none : ∀ r read, client.reads[r]? = some read → read.call = i →
    client.step format decode (.read r) = none
  written : ∀ send : Nat, (client.conns c).sends[send]? ≠ some .pending

variable (format decode) in
/-- `disconnect`, called now, is final. -/
structure FinalDisconnect (client : Client Value) : Prop where
  /-- It closes the connection. -/
  closes : ∀ c, client.codec = some c →
    (client.disconnect.conns c).connected = false ∧ (client.disconnect.conns c).socket ≠ .live
  /-- A call on the connection gets an error, at the latest when the socket is closed. -/
  fails : ∀ c i, client.codec = some c → client.Uses i c →
    ∀ last, Reachable (step format decode) client.disconnect last →
      (∀ value, (last.calls i).phase ≠ .settled (.ok value)) ∧
      ((last.conns c).socket = .closed → last.AtRest format decode i c →
        ∃ error, (last.calls i).phase = .settled (.error error))
  /-- Until the user connects, the client stays disconnected, reports nothing
  and starts no reconnect loop. -/
  stays : ∀ events last, .connect ∉ events →
    run (step format decode) client.disconnect events = some last →
      last.isConnected = false ∧ last.disconnects = client.disconnects ∧
        last.loops.length = client.loops.length

/-- There is nothing to disconnect from: every socket has emitted `'close'`, no
`connect` is under way, and no reconnect loop sleeps. -/
structure Quiescent (client : Client Value) : Prop where
  closed : ∀ c < client.opened, (client.conns c).socket = .closed
  settled : ∀ (k : Nat) loop, client.connects[k]? ≠ some ⟨loop, .pending⟩
  awake : ∀ (l : Nat) attempt delay, client.loops[l]? ≠ some (.sleeping attempt delay)

/-! ## When it is -/

/-- A quiescent client that the user has disconnected, compared with an earlier state of it. -/
structure Off (before client : Client Value) : Prop where
  quiescent : Quiescent client
  codec_eq : client.codec = none
  disconnects_eq : client.disconnects = before.disconnects
  loops_eq : client.loops = before.loops

theorem Quiescent.congr {client next : Client Value} (hquiescent : Quiescent client)
    (hopened : next.opened = client.opened) (hconnects : next.connects = client.connects)
    (hloops : next.loops = client.loops)
    (hsocket : ∀ c, (next.conns c).socket = (client.conns c).socket) : Quiescent next := by
  refine ⟨?_, ?_, ?_⟩
  · intro c hc
    rw [hsocket]
    exact hquiescent.closed c (hopened ▸ hc)
  · rw [hconnects]
    exact hquiescent.settled
  · rw [hloops]
    exact hquiescent.awake

theorem Quiescent.off {client : Client Value} (hquiescent : Quiescent client) :
    Off client client.disconnect := by
  rw [disconnect_eq]
  exact ⟨hquiescent.congr rfl rfl rfl fun _ => rfl, rfl, rfl, rfl⟩

/-- Only the user's `connect` brings a quiescent client back. -/
theorem off_of_step {before client next : Client Value} {event : ClientEvent}
    (hoff : Off before client) (hevent : event ≠ .connect)
    (hstep : client.step format decode event = some next) : Off before next := by
  obtain ⟨hquiescent, hcodec, hdisconnects, hloops⟩ := hoff
  by_cases hcalm : ¬ event.Lifecycle
  · have hsame := step_calm hcalm hstep
    refine ⟨hquiescent.congr hsame.opened_eq hsame.connects_eq hsame.loops_eq hsame.socket_eq,
      ?_, ?_, ?_⟩
    · rw [hsame.codec_eq, hcodec]
    · rw [hsame.disconnects_eq, hdisconnects]
    · rw [hsame.loops_eq, hloops]
  cases event with
  | connect => exact absurd rfl hevent
  | disconnect =>
      cases hstep
      rw [disconnect_eq]
      exact ⟨hquiescent.congr rfl rfl rfl fun _ => rfl, rfl, hdisconnects, hloops⟩
  | connected k throws =>
      obtain ⟨⟨loop, hpending⟩, -⟩ := connected_eq hstep
      exact absurd hpending (hquiescent.settled k loop)
  | connectFailed k message =>
      obtain ⟨⟨loop, hpending⟩, -⟩ := connectFailed_eq hstep
      exact absurd hpending (hquiescent.settled k loop)
  | sleepOver l =>
      obtain ⟨⟨attempt, delay, hsleeping⟩, -⟩ := sleepOver_eq hstep
      exact absurd hsleeping (hquiescent.awake l attempt delay)
  | close c =>
      simp only [step] at hstep
      split at hstep
      next hopen => exact absurd (hquiescent.closed c hopen.1) hopen.2
      · cases hstep
  | error c message code =>
      simp only [step] at hstep
      split at hstep
      next hopen =>
        rw [hquiescent.closed c hopen.1] at hopen
        cases hopen.2
      · cases hstep
  | call | data | written | poll | timeout | resume | read => exact absurd id hcalm

theorem off_of_run {before client last : Client Value} {events : List ClientEvent}
    (hoff : Off before client) (hevents : .connect ∉ events)
    (hrun : run (step format decode) client events = some last) : Off before last := by
  refine run_invariant_of_guarded (Off before) (fun _ _ _ => off_of_step) hoff ?_ hrun
  apply guarded_of_forall_mem
  intro event hmem heq
  exact hevents (heq ▸ hmem)

/-- A `connect` that is under way may still succeed. -/
theorem connected_of_pending {client : Client Value} {k : Nat} {loop : Option Nat}
    (hpending : client.connects[k]? = some ⟨loop, .pending⟩) :
    ∃ next, client.step format decode (.connected k false) = some next ∧
      next.isConnected = true := by
  have hsome : ∃ next, client.connected k false = some next := by
    unfold connected
    rw [hpending]
    cases loop with
    | none => exact ⟨_, rfl⟩
    | some l => exact ⟨_, rfl⟩
  obtain ⟨next, hnext⟩ := hsome
  refine ⟨next, hnext, ?_⟩
  obtain ⟨-, heq⟩ := connected_eq hnext
  rw [heq]
  rfl

theorem FinalDisconnect.quiescent {client : Client Value}
    (hfinal : client.FinalDisconnect format decode) : client.Quiescent := by
  have hstays := hfinal.stays
  rw [disconnect_eq] at hstays
  refine ⟨?_, ?_, ?_⟩
  · intro c hc
    by_contra hopen
    -- the socket still emits `'close'`
    have hstep : step format decode { client with codec := none } (.close c) =
        some (({ client with codec := none }.setConn c (client.conns c).onClose).onDisconnect) :=
      if_pos ⟨hc, hopen⟩
    obtain ⟨-, hdisconnects, -⟩ := hstays [.close c] _ (by simp) (by rw [run_cons, hstep]; rfl)
    rw [onDisconnect_eq] at hdisconnects
    exact Nat.succ_ne_self _ hdisconnects
  · intro k loop hpending
    obtain ⟨next, hnext, hconnected⟩ :=
      @connected_of_pending _ format decode { client with codec := none } k loop hpending
    obtain ⟨hnot, -⟩ := hstays [.connected k false] next (by simp) (by rw [run_cons, hnext]; rfl)
    rw [hconnected] at hnot
    cases hnot
  · intro l attempt delay hsleeping
    -- the loop wakes up, calls `connect`, and this succeeds
    let connecting : Client Value :=
      { client with
        codec := none
        loops := client.loops.set l (.connecting attempt)
        connects := client.connects ++ [⟨some l, .pending⟩] }
    have hsleep : step format decode { client with codec := none } (.sleepOver l) =
        some connecting := by
      change sleepOver _ _ = _
      unfold sleepOver
      dsimp only
      rw [hsleeping]
      rfl
    obtain ⟨next, hnext, hconnected⟩ :=
      @connected_of_pending _ format decode connecting client.connects.length (some l)
        List.getElem?_concat_length
    obtain ⟨hnot, -⟩ := hstays [.sleepOver l, .connected client.connects.length false] next
      (by simp) (by rw [run_cons, hsleep, Option.bind_some, run_cons, hnext]; rfl)
    rw [hconnected] at hnot
    cases hnot

theorem Quiescent.finalDisconnect {client : Client Value} (hlive : Live client)
    (hquiescent : client.Quiescent) : client.FinalDisconnect format decode := by
  have hnone : ∀ c, client.codec ≠ some c := by
    intro c hcodec
    obtain ⟨hc, hopen⟩ := hlive.codec c hcodec
    rw [hquiescent.closed c hc] at hopen
    cases hopen
  refine ⟨?_, ?_, ?_⟩
  · intro c hcodec
    exact absurd hcodec (hnone c)
  · intro c i hcodec
    exact absurd hcodec (hnone c)
  · intro events last hevents hrun
    have hoff := off_of_run hquiescent.off hevents hrun
    refine ⟨?_, hoff.disconnects_eq, by rw [hoff.loops_eq]⟩
    rw [isConnected, hoff.codec_eq]
    rfl

/-- In every state that a client can reach, `disconnect` is final exactly when
there is nothing to disconnect from. -/
theorem disconnect_final_iff {config : ClientConfig} {client : Client Value}
    (hreach : Reachable (step format decode) (init config) client) :
    client.FinalDisconnect format decode ↔ client.Quiescent := by
  have hlive : Live client :=
    hreach.invariant Live (fun _ _ _ => live_of_step) (init_live config)
  exact ⟨FinalDisconnect.quiescent, Quiescent.finalDisconnect hlive⟩

/-- The server has closed the only connection, and the client does not reconnect. -/
theorem disconnect_final_after_close :
    ∃ client : Client (List UInt8),
      run (step (.knowing []) fun _ => .ok) (init {}) [.connect, .connected 0 false, .close 0] =
        some client ∧ client.FinalDisconnect (.knowing []) fun _ => .ok := by
  have hreach : Reachable (step (.knowing []) fun _ => .ok) (init {}) _ :=
    ⟨[.connect, .connected 0 false, .close 0], rfl⟩
  refine ⟨_, rfl, (disconnect_final_iff hreach).mpr ⟨?_, ?_, ?_⟩⟩
  · intro c hc
    have hzero : c = 0 := Nat.lt_one_iff.mp hc
    subst hzero
    rfl
  · intro k loop hpending
    have hmem := List.mem_of_getElem? hpending
    cases List.mem_singleton.mp hmem
  · intro l attempt delay hsleeping
    cases hsleeping

/-- The socket of a disconnected client stays open. When the server closes it,
the client fires `onDisconnect` and connects again. -/
theorem disconnect_not_final :
    ∃ client last : Client (List UInt8),
      run (step (.knowing []) fun _ => .ok) (init { reconnect := some {} })
        [.connect, .connected 0 false] = some client ∧
      (client.disconnect.conns 0).connected = true ∧
      (client.disconnect.conns 0).socket = .live ∧
      run (step (.knowing []) fun _ => .ok) client.disconnect
        [.close 0, .sleepOver 0, .connected 1 false] = some last ∧
      last.disconnects = client.disconnects + 1 ∧ last.isConnected = true ∧
      ¬ client.FinalDisconnect (.knowing []) fun _ => .ok := by
  refine ⟨_, _, rfl, rfl, rfl, rfl, rfl, rfl, ?_⟩
  intro hfinal
  have hopen : SocketState.live = .closed := hfinal.quiescent.closed 0 Nat.zero_lt_one
  cases hopen

end Client

end Ibridger.Js
