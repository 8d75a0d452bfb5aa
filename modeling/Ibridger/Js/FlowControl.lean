import Ibridger.Foundation.Supply
import Ibridger.Js.RecvOrder
import Ibridger.Js.Session

/-! # Flow control of a JS connection

Node delivers chunks as long as a socket is not paused. The socket is to be paused while
the buffer holds bytes that no pending `recv` needs, so that a slow reader holds the peer
back.
-/

namespace Ibridger.Js

open Rpc Transition Wire

namespace UnixSocketConnection

/-- The bytes that the pending `recv` calls wait for. -/
def needed (conn : UnixSocketConnection) : Nat := (conn.waiters.map Waiter.need).sum

def largestNeed (conn : UnixSocketConnection) : Nat :=
  (conn.waiters.map Waiter.need).foldr max 0

/-- Some unread bytes are there for no pending `recv`. -/
def Unneeded (conn : UnixSocketConnection) : Prop := conn.needed < conn.buffer.length

instance (conn : UnixSocketConnection) : Decidable conn.Unneeded := Nat.decLt _ _

/-- No pending `recv` could be served. -/
def Starved (conn : UnixSocketConnection) : Prop :=
  ∀ w ∈ conn.waiters.head?, conn.buffer.length < w.need

variable {conn : UnixSocketConnection}

theorem drain_balanced (conn : UnixSocketConnection) (waiters : List Waiter) :
    (conn.drain waiters).buffer.length + (waiters.map Waiter.need).sum =
      conn.buffer.length + (conn.drain waiters).needed := by
  induction waiters generalizing conn with
  | nil => rfl
  | cons w rest ih =>
      rw [drain]
      split
      · rfl
      next henough =>
        let served :=
          (conn.splice w.need).2.settleRecv w.recv (.resolved (conn.splice w.need).1)
        have hserved : served.buffer.length = conn.buffer.length - w.need := List.length_drop
        have hrest := ih served
        change (served.drain rest).buffer.length + _ = _ + (served.drain rest).needed
        rw [List.map_cons, List.sum_cons]
        omega

theorem drain_starved (conn : UnixSocketConnection) (waiters : List Waiter) :
    (conn.drain waiters).Starved := by
  induction waiters generalizing conn with
  | nil =>
      intro w hw
      cases hw
  | cons w rest ih =>
      rw [drain]
      split
      next hshort =>
        intro v hv
        cases hv
        exact hshort
      next => apply ih

theorem onData_balanced (conn : UnixSocketConnection) (chunk : List UInt8) :
    (conn.onData chunk).buffer.length + conn.needed =
      conn.buffer.length + chunk.length + (conn.onData chunk).needed := by
  let grown : UnixSocketConnection :=
    { conn with buffer := conn.buffer ++ chunk, received := conn.received ++ chunk }
  have hgrown := drain_balanced grown conn.waiters
  rwa [List.length_append] at hgrown

theorem onData_starved (conn : UnixSocketConnection) (chunk : List UInt8) :
    (conn.onData chunk).Starved :=
  drain_starved _ _

theorem recv_balanced (hconnected : conn.connected = true) (length : Nat) :
    (conn.recv length).2.buffer.length + conn.needed + length =
      conn.buffer.length + (conn.recv length).2.needed := by
  unfold recv
  split
  next henough =>
    simp only [splice, needed, List.length_drop]
    omega
  next hshort =>
    rw [if_neg (by simp [hconnected])]
    simp [needed]
    omega

theorem recv_starved (hconnected : conn.connected = true) (hstarved : conn.Starved)
    (length : Nat) : (conn.recv length).2.Starved := by
  unfold recv
  split
  next henough =>
    intro w hw
    have hshort := hstarved w hw
    simp only [splice, List.length_drop]
    omega
  next hshort =>
    rw [if_neg (by simp [hconnected])]
    intro w hw
    dsimp only at hw ⊢
    cases hwaiters : conn.waiters with
    | nil =>
        rw [hwaiters] at hw
        cases hw
        exact Nat.lt_of_not_le hshort
    | cons first rest =>
        -- a new waiter stands behind the first
        rw [hwaiters] at hw
        cases hw
        exact hstarved w (by rw [hwaiters]; rfl)

/-- If every unread byte is waited for, there are fewer of them than the largest need. -/
theorem Starved.length_le (hstarved : conn.Starved) (hneeded : ¬ conn.Unneeded) :
    conn.buffer.length ≤ conn.largestNeed := by
  unfold Unneeded needed at hneeded
  unfold largestNeed
  cases hwaiters : conn.waiters with
  | nil =>
      rw [hwaiters] at hneeded
      simpa using hneeded
  | cons first rest =>
      -- the first waiter alone needs more than there is
      have hfirst := hstarved first (by rw [hwaiters]; rfl)
      rw [List.map_cons, List.foldr_cons]
      exact Nat.le_trans (Nat.le_of_lt hfirst) (Nat.le_max_left _ _)

end UnixSocketConnection

/-- A connection whose socket Node reads. -/
structure FlowingConnection where
  conn : UnixSocketConnection
  connected : conn.connected = true
  /-- What `socket.isPaused()` answers. -/
  paused : Bool
  /-- The length of the longest chunk so far. -/
  longest : Nat

namespace FlowingConnection

open UnixSocketConnection

/-- The `'data'` listener of the constructor sets the socket flowing. -/
def fromSocket : FlowingConnection where
  conn := .fromSocket
  connected := rfl
  paused := false
  longest := 0

/-- Neither the `'data'` handler nor `recv` calls `pause` or `resume`. -/
def step (flow : FlowingConnection) : RecvEvent → Option FlowingConnection
  | .data chunk =>
      if flow.paused then none
      else some
        { conn := flow.conn.onData chunk
          connected := by rw [onData_eq]; exact flow.connected
          paused := flow.paused
          longest := max flow.longest chunk.length }
  | .recv length => some
      { flow with
        conn := (flow.conn.recv length).2
        connected := by rw [recv_eq]; exact flow.connected }

/-- Unneeded bytes hold back the peer, and the buffer stays small. -/
structure Controlled (flow : FlowingConnection) (event : RecvEvent) (next : FlowingConnection) :
    Prop where
  held_back : flow.conn.Unneeded → ∀ chunk, event ≠ .data chunk
  paused : next.conn.Unneeded → next.paused = true
  bounded : next.conn.buffer.length ≤ next.conn.largestNeed + next.longest

/-- The bytes of an event that come in. -/
def arrives : RecvEvent → Nat
  | .data chunk => chunk.length
  | .recv _ => 0

/-- The bytes that an event asks for. -/
def asks : RecvEvent → Nat
  | .data _ => 0
  | .recv length => length

/-- The books of the buffer. -/
def account : Account step where
  stock flow := flow.conn.buffer.length
  owed flow := flow.conn.needed
  supplied := arrives
  ordered := asks
  balanced := by
    intro flow event next hstep
    cases event with
    | data chunk =>
        rw [step, Option.ite_none_left_eq_some] at hstep
        obtain ⟨-, hnext⟩ := hstep
        have hbalanced := flow.conn.onData_balanced chunk
        cases hnext
        simp only [arrives, asks]
        omega
    | recv length =>
        have hbalanced := recv_balanced flow.connected length
        cases hstep
        exact hbalanced

/-- Nothing has been paused, and nobody waits for bytes that are there. -/
structure Stands (flow : FlowingConnection) : Prop where
  flowing : flow.paused = false
  starved : flow.conn.Starved
  waited : ¬ flow.conn.Unneeded

variable {flow next : FlowingConnection} {event : RecvEvent}

theorem step_paused (hstep : flow.step event = some next) : next.paused = flow.paused := by
  cases event with
  | data chunk =>
      rw [step, Option.ite_none_left_eq_some] at hstep
      cases hstep.2
      rfl
  | recv length =>
      cases hstep
      rfl

theorem step_starved (hstarved : flow.conn.Starved) (hstep : flow.step event = some next) :
    next.conn.Starved := by
  cases event with
  | data chunk =>
      rw [step, Option.ite_none_left_eq_some] at hstep
      cases hstep.2
      exact onData_starved _ _
  | recv length =>
      cases hstep
      exact recv_starved flow.connected hstarved length

theorem unneeded_iff (flow : FlowingConnection) :
    ¬ flow.conn.Unneeded ↔ account.NoSurplus flow :=
  Nat.not_lt

theorem Stands.step (hstands : flow.Stands) (hexpected : account.Expected flow event)
    (hstep : flow.step event = some next) : next.Stands ∧ flow.Controlled event next := by
  have hwaited : ¬ next.conn.Unneeded :=
    (unneeded_iff next).mpr ((Account.noSurplus_iff_expected hstep).mpr hexpected)
  have hstarved := step_starved hstands.starved hstep
  refine ⟨⟨(step_paused hstep).trans hstands.flowing, hstarved, hwaited⟩, ?_, ?_, ?_⟩
  · intro hunneeded
    exact absurd hunneeded hstands.waited
  · intro hunneeded
    exact absurd hunneeded hwaited
  · exact Nat.le_trans (hstarved.length_le hwaited) (Nat.le_add_right _ _)

theorem Stands.not_controlled (hstands : flow.Stands) (hexpected : ¬ account.Expected flow event)
    (hstep : flow.step event = some next) : ¬ flow.Controlled event next := by
  intro hcontrolled
  have hunneeded : next.conn.Unneeded := by
    by_contra hwaited
    exact hexpected ((Account.noSurplus_iff_expected hstep).mp ((unneeded_iff next).mp hwaited))
  -- no step pauses the socket
  have hpaused := hcontrolled.paused hunneeded
  rw [step_paused hstep, hstands.flowing] at hpaused
  exact Bool.false_ne_true hpaused

theorem fromSocket_stands : fromSocket.Stands where
  flowing := rfl
  starved := by
    intro w hw
    cases hw
  waited := Nat.not_lt_zero 0

/-- A socket that is not paused takes every event. -/
theorem exists_run (hflowing : flow.paused = false) (events : List RecvEvent) :
    ∃ last, run step flow events = some last := by
  induction events generalizing flow with
  | nil => exact ⟨flow, rfl⟩
  | cons event rest ih =>
      have hstep : ∃ next, flow.step event = some next := by
        cases event with
        | data chunk => exact ⟨_, by simp [step, hflowing]; rfl⟩
        | recv length => exact ⟨_, rfl⟩
      obtain ⟨next, hstep⟩ := hstep
      obtain ⟨last, hrest⟩ := ih ((step_paused hstep).trans hflowing)
      exact ⟨last, run_cons_eq_some.mpr ⟨next, hstep, hrest⟩⟩

/-- Without a `recv`, every chunk is added to the buffer. -/
theorem run_data (hflowing : flow.paused = false) (hwaiters : flow.conn.waiters = [])
    (chunks : List (List UInt8)) :
    ∃ last, run step flow (chunks.map .data) = some last ∧ last.conn.waiters = [] ∧
      last.conn.buffer = flow.conn.buffer ++ chunks.flatten := by
  induction chunks generalizing flow with
  | nil => exact ⟨flow, rfl, hwaiters, by simp⟩
  | cons chunk rest ih =>
      have hdata := onData_of_no_waiters hwaiters chunk
      obtain ⟨next, hstep, hconn⟩ : ∃ next, flow.step (.data chunk) = some next ∧
          next.conn = flow.conn.onData chunk :=
        ⟨_, by simp [step, hflowing]; rfl, rfl⟩
      rw [hdata] at hconn
      obtain ⟨last, hrun, hnone, hbuffer⟩ :=
        ih ((step_paused hstep).trans hflowing) (by rw [hconn]; exact hwaiters)
      refine ⟨last, run_cons_eq_some.mpr ⟨next, hstep, hrun⟩, hnone, ?_⟩
      rw [hbuffer, hconn, List.flatten_cons, List.append_assoc]

/-- Flow control works on a run exactly if at no point more bytes have come than the
`recv` calls so far have asked for. -/
theorem run_controlled_iff (events : List RecvEvent) :
    Along step Controlled fromSocket events ↔
      ∀ seen, seen <+: events → (seen.map arrives).sum ≤ (seen.map asks).sum := by
  obtain ⟨last, hrun⟩ := @exists_run fromSocket rfl events
  have hguarded : Along step Controlled fromSocket events ↔
      Guarded step account.Expected fromSocket events := by
    apply along_iff_guarded Stands _ _ fromSocket_stands
    · intro flow event next hstands hexpected hstep
      exact hstands.step hexpected hstep
    · intro flow event next hstands hexpected hstep
      exact hstands.not_controlled hexpected hstep
  rw [hguarded]
  exact Account.guarded_iff_covered rfl rfl hrun

/-- Nobody reads, and the second and the third chunk are taken in all the same. -/
theorem unread_chunks_pile_up :
    (run step fromSocket [.data [1], .data [2], .data [3]]).map (fun last =>
        (last.paused, last.conn.buffer, last.conn.waiters, last.longest)) =
      some (false, [1, 2, 3], [], 1) ∧
    ¬ Along step Controlled fromSocket [.data [1], .data [2], .data [3]] := by
  refine ⟨by decide, ?_⟩
  intro hcontrolled
  obtain ⟨hfirst, -⟩ := hcontrolled _ rfl
  exact Bool.false_ne_true (hfirst.paused (by decide))

end FlowingConnection

/-- While a handler runs, a server session takes in whatever the client sends. -/
theorem Session.run_data_of_handling {Handler : Type} {services : ServiceTable Handler}
    {format : EnvelopeFormat} {session : Session Handler} {frames : List (List UInt8)}
    {front : List UInt8} {request : Envelope} (hkeeps : session.Keeps services format frames front)
    (hphase : session.phase = .handling request) (chunks : List (List UInt8)) :
    ∃ last, run (Session.step services format) session (chunks.map .data) = some last ∧
      last.phase = .handling request ∧
      last.conn.buffer = session.conn.buffer ++ chunks.flatten := by
  obtain ⟨hconnected, -, hwaiters, -⟩ := hkeeps.stands.of_handling hphase
  have hlive := hkeeps.live_iff.mpr hconnected
  clear hkeeps hconnected
  induction chunks generalizing session with
  | nil => exact ⟨session, rfl, hphase, by simp⟩
  | cons chunk rest ih =>
      let next : Session Handler := { session with
        conn := { session.conn with
          buffer := session.conn.buffer ++ chunk
          received := session.conn.received ++ chunk } }
      have hstep : session.step services format (.data chunk) = some next := by
        simp [Session.step, hlive, next, UnixSocketConnection.onData_of_no_waiters hwaiters]
      obtain ⟨last, hrun, hlast, hbuffer⟩ := @ih next hphase hwaiters hlive
      refine ⟨last, run_cons_eq_some.mpr ⟨next, hstep, hrun⟩, hlast, ?_⟩
      rw [hbuffer, List.flatten_cons, ← List.append_assoc]

end Ibridger.Js
