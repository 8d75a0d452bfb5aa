import Ibridger.Js.Accounting
import Ibridger.Js.ClientStep
import Ibridger.Wire.KnownMessages
import Mathlib.Algebra.BigOperators.Group.Finset.Piecewise
import Mathlib.Algebra.Order.BigOperators.Group.Finset

/-! # How often a disconnect is notified

`onDisconnect` of a connection is to be called once, when the socket closes or errors
unexpectedly. Both handlers call it, and neither knows of the other nor of a `close`
of the user, while Node emits `'close'` behind an `'error'` and behind a `close`.
-/

namespace Ibridger.Js

open Transition UnixSocketConnection Wire

/-! ## What Node emits -/

/-- What Node may emit after an event, if the event can come. The user may call
`recv` and `close` at any time. -/
def SocketState.after : SocketState → StreamEvent → Option SocketState
  | .live, .data _ => some .live
  | .live, .error _ _ => some .closing
  | .live, .close | .closing, .close => some .closed
  | .live, .localClose => some .closing
  | socket, .localClose => some socket
  | socket, .recv _ => some socket
  | _, _ => none

namespace UnixSocketConnection

/-- Whether the handler of the event calls `onDisconnect`. -/
def StreamEvent.notifies : StreamEvent → Bool
  | .error _ _ | .close => true
  | .data _ | .recv _ | .localClose => false

/-- How often the handlers call `onDisconnect`. -/
def notices (events : List StreamEvent) : Nat :=
  events.countP StreamEvent.notifies

/-- How often `onDisconnect` is to be called: once, if the first to end the
connection is not the user. -/
def due : List StreamEvent → Nat
  | [] => 0
  | .error _ _ :: _ | .close :: _ => 1
  | .localClose :: _ => 0
  | .data _ :: rest | .recv _ :: rest => due rest

/-- A `'close'` event does not come behind an `'error'` or a `close` of the user. -/
def ClosesFirst (events : List StreamEvent) : Prop :=
  events.Pairwise fun earlier later =>
    earlier = .localClose ∨ earlier.notifies = true → later ≠ .close

instance (events : List StreamEvent) : Decidable (ClosesFirst events) :=
  inferInstanceAs (Decidable (List.Pairwise _ _))

/-- A handler runs when its event is emitted. -/
def socketStep (conn : UnixSocketConnection) (event : StreamEvent) :
    Option UnixSocketConnection :=
  (conn.socket.after event).map fun _ => conn.streamStep event

theorem notices_cons (event : StreamEvent) (rest : List StreamEvent) :
    notices (event :: rest) = notices rest + if event.notifies then 1 else 0 :=
  List.countP_cons

theorem ClosesFirst.of_not_mem {events : List StreamEvent} (hclose : .close ∉ events) :
    ClosesFirst events := by
  refine List.pairwise_iff_forall_sublist.mpr ?_
  intro earlier later hsublist _ hlater
  subst hlater
  exact hclose (hsublist.subset (by simp))

/-! ## What the handlers report -/

theorem quiet_of_closed {events : List StreamEvent} {last : SocketState}
    (hrun : run SocketState.after .closed events = some last) :
    notices events = 0 ∧ .close ∉ events := by
  induction events with
  | nil => simp [notices]
  | cons event rest ih =>
      obtain ⟨next, hnext, hrest⟩ := run_cons_eq_some.mp hrun
      cases event with
      | recv | localClose =>
          cases hnext
          simpa [notices_cons, StreamEvent.notifies] using ih hrest
      | data | error | close => cases hnext

/-- Once the socket is closing, only its `'close'` is left to report. -/
theorem notices_of_closing {events : List StreamEvent} {last : SocketState}
    (hrun : run SocketState.after .closing events = some last) :
    notices events = 0 ↔ .close ∉ events := by
  induction events with
  | nil => simp [notices]
  | cons event rest ih =>
      obtain ⟨next, hnext, hrest⟩ := run_cons_eq_some.mp hrun
      cases event with
      | recv | localClose =>
          cases hnext
          rw [notices_cons, List.mem_cons, not_or, ← ih hrest]
          simp [StreamEvent.notifies]
      | close =>
          rw [notices_cons]
          simp [StreamEvent.notifies]
      | data | error => cases hnext

theorem closesFirst_cons (event : StreamEvent) (rest : List StreamEvent) :
    ClosesFirst (event :: rest) ↔
      (event = .localClose ∨ event.notifies = true → .close ∉ rest) ∧ ClosesFirst rest := by
  rw [ClosesFirst, List.pairwise_cons]
  refine and_congr_left fun _ => ⟨?_, ?_⟩
  · intro hnone hends hclose
    exact hnone _ hclose hends rfl
  · intro hnone later hlater hends heq
    exact hnone hends (heq ▸ hlater)

/-- No event is missed, and `onDisconnect` is called as often as it is to be
exactly when no `'close'` comes behind another end. -/
theorem notices_of_live {events : List StreamEvent} {last : SocketState}
    (hrun : run SocketState.after .live events = some last) :
    due events ≤ notices events ∧ (notices events = due events ↔ ClosesFirst events) := by
  induction events with
  | nil => exact ⟨Nat.le_refl _, iff_of_true rfl List.Pairwise.nil⟩
  | cons event rest ih =>
      obtain ⟨next, hnext, hrest⟩ := run_cons_eq_some.mp hrun
      rw [notices_cons, closesFirst_cons]
      cases event with
      | data | recv =>
          cases hnext
          simpa [StreamEvent.notifies, due] using ih hrest
      | error | localClose =>
          cases hnext
          have hcloses := notices_of_closing hrest
          have hfirst := @ClosesFirst.of_not_mem rest
          simp only [StreamEvent.notifies, due]
          grind
      | close =>
          cases hnext
          obtain ⟨hnone, hclose⟩ := quiet_of_closed hrest
          have hfirst := ClosesFirst.of_not_mem hclose
          simp [StreamEvent.notifies, due, hnone, hclose, hfirst]

theorem streamStep_socket {conn : UnixSocketConnection} {event : StreamEvent}
    {socket : SocketState} (hafter : conn.socket.after event = some socket) :
    (conn.streamStep event).socket = socket := by
  cases event with
  | data chunk =>
      rw [streamStep, onData_socket]
      cases hsocket : conn.socket <;> rw [hsocket] at hafter <;> cases hafter
      rfl
  | recv length =>
      rw [streamStep, recv_socket]
      cases hsocket : conn.socket <;> rw [hsocket] at hafter <;> cases hafter <;> rfl
  | error message code =>
      rw [streamStep, onError_eq]
      cases hsocket : conn.socket <;> rw [hsocket] at hafter <;> cases hafter
      rfl
  | close =>
      rw [streamStep, onClose_eq]
      cases hsocket : conn.socket <;> rw [hsocket] at hafter <;> cases hafter <;> rfl
  | localClose =>
      rw [streamStep, UnixSocketConnection.close]
      cases hsocket : conn.socket <;> rw [hsocket] at hafter <;> cases hafter <;> rfl

theorem streamStep_disconnects (conn : UnixSocketConnection) (event : StreamEvent) :
    (conn.streamStep event).disconnects =
      conn.disconnects + if event.notifies then 1 else 0 := by
  cases event with
  | data chunk =>
      rw [streamStep, onData_eq]
      rfl
  | recv length =>
      rw [streamStep, recv_eq]
      rfl
  | error message code =>
      rw [streamStep, onError_eq]
      rfl
  | close =>
      rw [streamStep, onClose_eq]
      rfl
  | localClose => rfl

/-- What a run of a connection is for its socket and for the one who is notified. -/
theorem socketStep_run {conn last : UnixSocketConnection} {events : List StreamEvent}
    (hrun : run socketStep conn events = some last) :
    run SocketState.after conn.socket events = some last.socket ∧
      last.disconnects = conn.disconnects + notices events := by
  induction events generalizing conn with
  | nil =>
      cases hrun
      exact ⟨rfl, rfl⟩
  | cons event rest ih =>
      obtain ⟨next, hnext, hrest⟩ := run_cons_eq_some.mp hrun
      obtain ⟨socket, hafter, rfl⟩ := Option.map_eq_some_iff.mp hnext
      obtain ⟨hsocket, hcount⟩ := ih hrest
      rw [streamStep_socket hafter] at hsocket
      rw [streamStep_disconnects] at hcount
      refine ⟨run_cons_eq_some.mpr ⟨socket, hafter, hsocket⟩, ?_⟩
      rw [notices_cons, hcount, Nat.add_assoc, Nat.add_comm (notices rest)]

end UnixSocketConnection

/-! ## Through the client -/

/-- The event as one of the socket of connection `c`. -/
def ClientEvent.onSocket (c : Nat) : ClientEvent → Option StreamEvent
  | .data other chunk => if other = c then some (.data chunk) else none
  | .error other message code => if other = c then some (.error message code) else none
  | .close other => if other = c then some .close else none
  | _ => none

/-- What the socket of connection `c` emits. -/
def socketEvents (c : Nat) (events : List ClientEvent) : List StreamEvent :=
  events.filterMap (ClientEvent.onSocket c)

theorem socketEvents_cons (c : Nat) (event : ClientEvent) (rest : List ClientEvent) :
    socketEvents c (event :: rest) = (event.onSocket c).toList ++ socketEvents c rest := by
  rw [socketEvents, List.filterMap_cons]
  cases event.onSocket c <;> rfl

theorem notices_onSocket (c : Nat) (event : ClientEvent) :
    notices (event.onSocket c).toList = if event.lost = some c then 1 else 0 := by
  cases event with
  | data other chunk =>
      by_cases hsame : other = c <;>
        simp [ClientEvent.onSocket, ClientEvent.lost, notices, StreamEvent.notifies, hsame]
  | close other =>
      by_cases hsame : other = c <;>
        simp [ClientEvent.onSocket, ClientEvent.lost, notices, StreamEvent.notifies, hsame]
  | error other message code =>
      by_cases hsame : other = c <;>
        simp [ClientEvent.onSocket, ClientEvent.lost, notices, StreamEvent.notifies, hsame]
  | connect | disconnect | call | connected | connectFailed | written | sleepOver | poll | timeout
  | resume | read => rfl

theorem notices_append (events more : List StreamEvent) :
    notices (events ++ more) = notices events + notices more :=
  List.countP_append

namespace Client

variable {Value : Type} {format : EnvelopeFormat}
  {decode : Nat → List UInt8 → Except String Value}

/-- A step is an event of the socket it comes from, and of no other. -/
theorem step_emits {client next : Client Value} {event : ClientEvent}
    (hstep : client.step format decode event = some next) (c : Nat) :
    run SocketState.after (client.conns c).socket (event.onSocket c).toList =
      some (next.conns c).socket := by
  cases event with
  | data other chunk =>
      simp only [step] at hstep
      split at hstep
      next hopen =>
        cases hstep
        by_cases hsame : other = c
        · subst hsame
          simp [ClientEvent.onSocket, setConn, hopen.2, onData_socket, SocketState.after]
        · simp [ClientEvent.onSocket, setConn, hsame, Function.update_of_ne (Ne.symm hsame)]
      · cases hstep
  | close other =>
      simp only [step] at hstep
      split at hstep
      next hopen =>
        cases hstep
        rw [onDisconnect_eq]
        by_cases hsame : other = c
        · subst hsame
          have hafter : (client.conns other).socket.after .close = some .closed := by
            cases hsocket : (client.conns other).socket with
            | live | closing => rfl
            | closed => exact absurd hsocket hopen.2
          have hclosed : (client.conns other).onClose.socket = .closed := by rw [onClose_eq]
          simp [ClientEvent.onSocket, setConn, hafter, hclosed]
        · simp [ClientEvent.onSocket, setConn, hsame, Function.update_of_ne (Ne.symm hsame)]
      · cases hstep
  | error other message code =>
      simp only [step] at hstep
      split at hstep
      next hopen =>
        cases hstep
        rw [onDisconnect_eq]
        by_cases hsame : other = c
        · subst hsame
          have hclosing : ((client.conns other).onError message code).socket = .closing := by
            rw [onError_eq]
          simp [ClientEvent.onSocket, setConn, hopen.2, hclosing, SocketState.after]
        · simp [ClientEvent.onSocket, setConn, hsame, Function.update_of_ne (Ne.symm hsame)]
      · cases hstep
  | connect | disconnect | connected | connectFailed | sleepOver =>
      obtain ⟨-, hnext⟩ := connecting_eq (by trivial) rfl hstep
      rw [hnext]
      rfl
  | call | written | poll | timeout | resume | read =>
      exact congrArg some ((step_calm id hstep).socket_eq c).symm

/-- Only an opened connection has events. -/
theorem step_opened {client next : Client Value} {event : ClientEvent}
    (hstep : client.step format decode event = some next) {c : Nat}
    (hclosed : client.opened ≤ c) : event.onSocket c = none := by
  cases event with
  | data other chunk | close other | error other message code =>
      simp only [step] at hstep
      split at hstep
      next hopen =>
        have hne : other ≠ c := Nat.ne_of_lt (Nat.lt_of_lt_of_le hopen.1 hclosed)
        exact if_neg hne
      · cases hstep
  | connect | disconnect | call | connected | connectFailed | written | sleepOver | poll | timeout
  | resume | read => rfl

theorem step_disconnects {client next : Client Value} {event : ClientEvent}
    (hstep : client.step format decode event = some next) :
    client.opened ≤ next.opened ∧
      next.disconnects = client.disconnects + if event.lost.isSome then 1 else 0 := by
  cases event with
  | connect | disconnect | connected | connectFailed | sleepOver =>
      obtain ⟨hopened, hnext⟩ := connecting_eq (by trivial) rfl hstep
      refine ⟨hopened, ?_⟩
      rw [hnext]
      rfl
  | close c | error c message code =>
      obtain ⟨-, conn, -, -, rfl⟩ := lost_eq rfl hstep
      rw [onDisconnect_eq]
      exact ⟨Nat.le_refl _, rfl⟩
  | call | data | written | poll | timeout | resume | read =>
      have hcalm := step_calm id hstep
      exact ⟨hcalm.opened_eq.ge, hcalm.disconnects_eq⟩

/-- The notices of all the connections that one event causes. -/
theorem sum_notices {event : ClientEvent} {opened : Nat}
    (hopened : ∀ c, opened ≤ c → event.onSocket c = none) :
    ∑ c ∈ Finset.range opened, notices (event.onSocket c).toList =
      if event.lost.isSome then 1 else 0 := by
  have hlost : ∀ c, event.lost = some c → c < opened := by
    intro c hc
    by_contra hnot
    have hnotice := notices_onSocket c event
    rw [hopened c (Nat.le_of_not_lt hnot), if_pos hc] at hnotice
    cases hnotice
  simp only [notices_onSocket]
  cases hcase : event.lost with
  | none => simp
  | some c =>
      have hmem : c ∈ Finset.range opened := Finset.mem_range.mpr (hlost c hcase)
      simp only [Option.some.injEq, Finset.sum_ite_eq, if_pos hmem]
      rfl

/-- What a run of the client is for the sockets and for its own `onDisconnect`. -/
theorem step_run {client last : Client Value} {events : List ClientEvent}
    (hrun : run (step format decode) client events = some last) :
    client.opened ≤ last.opened ∧
      (∀ c, run SocketState.after (client.conns c).socket (socketEvents c events) =
        some (last.conns c).socket) ∧
      (∀ c, last.opened ≤ c → socketEvents c events = []) ∧
      last.disconnects = client.disconnects +
        ∑ c ∈ Finset.range last.opened, notices (socketEvents c events) := by
  induction events generalizing client with
  | nil =>
      cases hrun
      exact ⟨Nat.le_refl _, fun _ => rfl, fun _ _ => rfl, by simp [socketEvents, notices]⟩
  | cons event rest ih =>
      obtain ⟨next, hnext, hrest⟩ := run_cons_eq_some.mp hrun
      obtain ⟨hopened, hsockets, hnone, hcount⟩ := ih hrest
      obtain ⟨hmore, hnotice⟩ := step_disconnects hnext
      have hgrown := Nat.le_trans hmore hopened
      have hquiet : ∀ c, last.opened ≤ c → event.onSocket c = none := fun c hc =>
        step_opened hnext (Nat.le_trans hgrown hc)
      refine ⟨hgrown, ?_, ?_, ?_⟩
      · intro c
        rw [socketEvents_cons, run_append_of_run (step_emits hnext c)]
        exact hsockets c
      · intro c hc
        rw [socketEvents_cons, hquiet c hc, hnone c hc]
        rfl
      · simp only [socketEvents_cons, notices_append, Finset.sum_add_distrib, sum_notices hquiet]
        omega

/-! ## When each connection is reported once -/

variable (format decode) in
/-- A connection calls its `onDisconnect` as often as it is to be called exactly
when no `'close'` comes behind an `'error'` or a `close` of the user, and the
client its own for all of its connections exactly when this is so of each. -/
theorem disconnect_notified_iff :
    (∀ events conn, run socketStep fromSocket events = some conn →
      (conn.disconnects = due events ↔ ClosesFirst events)) ∧
      ∀ config events client, run (step format decode) (init config) events = some client →
        (client.disconnects = ∑ c ∈ Finset.range client.opened, due (socketEvents c events) ↔
          ∀ c, ClosesFirst (socketEvents c events)) := by
  refine ⟨?_, ?_⟩
  · intro events conn hrun
    obtain ⟨hsocket, hcount⟩ := socketStep_run hrun
    have hzero : fromSocket.disconnects = 0 := rfl
    rw [hcount, hzero, Nat.zero_add]
    exact (notices_of_live hsocket).2
  · intro config events client hrun
    obtain ⟨-, hsockets, hnone, hcount⟩ := step_run hrun
    have hzero : (init config : Client Value).disconnects = 0 := rfl
    rw [hcount, hzero, Nat.zero_add, eq_comm,
      Finset.sum_eq_sum_iff_of_le fun c _ => (notices_of_live (hsockets c)).1]
    constructor
    · intro hequal c
      by_cases hc : c < client.opened
      · exact (notices_of_live (hsockets c)).2.mp (hequal c (Finset.mem_range.mpr hc)).symm
      · rw [hnone c (Nat.le_of_not_lt hc)]
        exact List.Pairwise.nil
    · intro hfirst c _
      exact ((notices_of_live (hsockets c)).2.mpr (hfirst c)).symm

/-- A server that closes the connection is reported once, by the connection and by the client. -/
theorem disconnect_notified_closed :
    (∃ conn, run socketStep fromSocket [.data [1], .close] = some conn ∧
      conn.disconnects = due [.data [1], .close]) ∧
      ∃ client : Client (List UInt8),
        run (step (.knowing []) fun _ => .ok) (init {})
          [.connect, .connected 0 false, .data 0 [1], .close 0] = some client ∧
        client.disconnects = ∑ c ∈ Finset.range client.opened,
          due (socketEvents c [.connect, .connected 0 false, .data 0 [1], .close 0]) := by
  have hnotified := disconnect_notified_iff (.knowing []) fun _ => .ok
  refine ⟨⟨_, rfl, (hnotified.1 _ _ rfl).mpr (by decide)⟩, ⟨_, rfl, (hnotified.2 _ _ _ rfl).mpr ?_⟩⟩
  intro c
  by_cases hfirst : 0 = c
  · subst hfirst
    decide
  · have hnone : socketEvents c [.connect, .connected 0 false, .data 0 [1], .close 0] = [] := by
      simp [socketEvents, List.filterMap_cons, ClientEvent.onSocket, hfirst]
    rw [hnone]
    exact List.Pairwise.nil

/-- An error is reported twice, and a connection that the user has closed once. -/
theorem disconnect_misnotified :
    (∃ conn, run socketStep fromSocket [.error "read ECONNRESET" (some "ECONNRESET"), .close] =
      some conn ∧ conn.disconnects = 2 ∧ due [.error "read ECONNRESET" (some "ECONNRESET"), .close] = 1) ∧
      (∃ conn, run socketStep fromSocket [.localClose, .close] = some conn ∧
        conn.disconnects = 1 ∧ due [.localClose, .close] = 0) ∧
      ∃ client : Client (List UInt8),
        run (step (.knowing []) fun _ => .ok) (init {})
          [.connect, .connected 0 false, .error 0 "read ECONNRESET" (some "ECONNRESET"), .close 0] =
            some client ∧
        client.opened = 1 ∧ client.disconnects = 2 :=
  ⟨⟨_, rfl, rfl, rfl⟩, ⟨_, rfl, rfl, rfl⟩, ⟨_, rfl, rfl, rfl⟩⟩

end Client

end Ibridger.Js
