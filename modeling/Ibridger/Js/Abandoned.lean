import Ibridger.Js.ClientStep

/-! # Connections that the client has left

A connection that has ended is never the current one again, and only the current
connection is read from. So what is known of it when it ends is known for good.
-/

namespace Ibridger.Js

open Transition UnixSocketConnection Wire

namespace Client

variable {Value : Type} {format : EnvelopeFormat}
  {decode : Nat → List UInt8 → Except String Value}

/-! ## What a step does to one connection -/

/-- What one step can make of a connection. -/
inductive Moves (client : Client Value) (c : Nat) : UnixSocketConnection → Prop where
  | same : Moves client c (client.conns c)
  | data (chunk : List UInt8) (hlive : (client.conns c).socket = .live) :
      Moves client c ((client.conns c).onData chunk)
  | ended (conn : UnixSocketConnection) (hopened : c < client.opened)
      (hended : conn = (client.conns c).onClose ∨
        ∃ message code, conn = (client.conns c).onError message code) : Moves client c conn
  | sent (sends : List (Promise Unit)) (output : List UInt8) :
      Moves client c { client.conns c with sends := sends, output := output }
  | received (hcodec : client.codec = some c) : Moves client c (recvFrame (client.conns c)).2
  | read (r : Nat) (read : Read) (frame : FrameRead) (conn : UnixSocketConnection)
      (hread : client.reads[r]? = some read) (hconn : read.conn = c)
      (hresume : read.frame.resume (client.conns c) = some (frame, conn)) : Moves client c conn

theorem Moves.setConn {client next : Client Value} {c other : Nat} {conn : UnixSocketConnection}
    (hmoves : Moves client c conn) (hconns : next.conns = (client.setConn c conn).conns) :
    Moves client other (next.conns other) := by
  rw [hconns]
  by_cases hsame : other = c
  · subst hsame
    simp only [Client.setConn, Function.update_self]
    exact hmoves
  · simp only [Client.setConn, Function.update_of_ne hsame]
    exact .same

theorem Moves.congr {client next : Client Value} {c : Nat} (hconns : next.conns = client.conns) :
    Moves client c (next.conns c) := by
  rw [hconns]
  exact .same

/-- A call that starts sends on one connection. -/
theorem start_conns (client : Client Value) (i c : Nat) :
    ∃ sends output, (client.start format i).conns c =
      { client.conns c with sends := sends, output := output } := by
  have hstarts := client.start_cases format i
  generalize client.start format i = next at hstarts
  cases hstarts with
  | rejected error => exact ⟨_, _, rfl⟩
  | unserializable d payload hcodec hidle hencoded hserialize => exact ⟨_, _, rfl⟩
  | sending d payload bytes hcodec hidle hencoded hserialize =>
      change ∃ sends output, Function.update client.conns d (sendFrame (client.conns d) bytes).2 c =
        { client.conns c with sends := sends, output := output }
      by_cases hsame : c = d
      · subst hsame
        rw [Function.update_self, sendFrame_eq]
        exact ⟨_, _, rfl⟩
      · rw [Function.update_of_ne hsame]
        exact ⟨_, _, rfl⟩

theorem step_moves {client next : Client Value} {event : ClientEvent}
    (hstep : client.step format decode event = some next) (c : Nat) :
    Moves client c (next.conns c) := by
  cases event with
  | connect | disconnect | connected | connectFailed | sleepOver =>
      obtain ⟨-, hnext⟩ := connecting_eq (by trivial) rfl hstep
      rw [hnext]
      exact .same
  | call i service method encoded options =>
      obtain ⟨-, ⟨-, rfl⟩ | rfl⟩ := call_cases hstep
      · exact .congr rfl
      · obtain ⟨sends, output, heq⟩ :=
          @start_conns _ format (client.called i service method encoded options) i c
        rw [heq]
        exact .sent sends output
  | poll i =>
      obtain ⟨-, rfl | rfl | rfl⟩ := poll_cases hstep
      · exact .congr rfl
      · exact .same
      · exact .congr rfl
  | timeout i =>
      obtain ⟨r, id, timeoutMs, -, rfl⟩ := timeout_cases hstep
      exact .congr rfl
  | data d chunk =>
      simp only [step] at hstep
      split at hstep
      next hopen =>
        cases hstep
        exact Moves.setConn (.data chunk hopen.2) rfl
      · cases hstep
  | written d send failure =>
      simp only [step] at hstep
      split at hstep
      · cases hstep
        have hmoves : Moves client d ((client.conns d).onWritten send failure) := by
          unfold onWritten
          split
          · exact .sent _ _
          · exact .sent _ _
        exact hmoves.setConn rfl
      · cases hstep
  | close d =>
      simp only [step] at hstep
      split at hstep
      next hopen =>
        cases hstep
        rw [onDisconnect_eq]
        exact Moves.setConn (.ended _ hopen.1 (.inl rfl)) rfl
      · cases hstep
  | error d message code =>
      simp only [step] at hstep
      split at hstep
      next hopen =>
        cases hstep
        rw [onDisconnect_eq]
        exact Moves.setConn (.ended _ hopen.1 (.inr ⟨message, code, rfl⟩)) rfl
      · cases hstep
  | resume i =>
      cases resume_cases hstep with
      | starting hphase =>
          obtain ⟨sends, output, heq⟩ := @start_conns _ format client i c
          rw [heq]
          exact .sent sends output
      | receiving d id timeoutMs hphase =>
          unfold receive
          split
          · exact .congr rfl
          next current hcodec => exact Moves.setConn (.received hcodec) rfl
      | unsent d id timeoutMs error hphase => exact .congr rfl
      | sending d id timeoutMs send result hphase hsend =>
          obtain ⟨frame, conn⟩ := result
          have hmoves : Moves client d conn := by
            rw [FrameSend.resume_eq hsend]
            exact .sent _ _
          exact hmoves.setConn rfl
      | received r id timeoutMs read result hphase hread hsettled => exact .congr rfl
      | failing error hphase => exact .congr rfl
  | read r =>
      obtain ⟨read, frame, conn, hr, hresume, rfl⟩ := read_eq hstep
      exact Moves.setConn (.read r read frame conn hr rfl hresume) rfl

/-! ## What a step does to the reads and the codec -/

/-- One step begins a `recvFrame` on the current connection, or it continues one. -/
inductive Reading (client : Client Value) : List Read → Prop where
  | same : Reading client client.reads
  | begun (i c : Nat) (hcodec : client.codec = some c) :
      Reading client (client.reads ++ [⟨i, c, (recvFrame (client.conns c)).1⟩])
  | continued (r : Nat) (read : Read) (frame : FrameRead) (conn : UnixSocketConnection)
      (hread : client.reads[r]? = some read)
      (hresume : read.frame.resume (client.conns read.conn) = some (frame, conn)) :
      Reading client (client.reads.set r { read with frame := frame })

theorem start_reads (client : Client Value) (i : Nat) :
    (client.start format i).reads = client.reads := by
  have hstarts := client.start_cases format i
  generalize client.start format i = next at hstarts
  cases hstarts with
  | rejected | unserializable | sending => rfl

theorem step_reading {client next : Client Value} {event : ClientEvent}
    (hstep : client.step format decode event = some next) : Reading client next.reads := by
  cases event with
  | connect | disconnect | connected | connectFailed | sleepOver =>
      obtain ⟨-, hnext⟩ := connecting_eq (by trivial) rfl hstep
      rw [hnext]
      exact .same
  | call i service method encoded options =>
      obtain ⟨-, ⟨-, rfl⟩ | rfl⟩ := call_cases hstep
      · exact .same
      · rw [start_reads]
        exact .same
  | poll i =>
      obtain ⟨-, rfl | rfl | rfl⟩ := poll_cases hstep
      · exact .same
      · exact .same
      · exact .same
  | timeout i =>
      obtain ⟨r, id, timeoutMs, -, rfl⟩ := timeout_cases hstep
      exact .same
  | data c chunk =>
      simp only [step] at hstep
      split at hstep
      · cases hstep
        exact .same
      · cases hstep
  | written c send failure =>
      simp only [step] at hstep
      split at hstep
      · cases hstep
        exact .same
      · cases hstep
  | close c =>
      obtain ⟨-, conn, -, -, rfl⟩ := lost_eq rfl hstep
      rw [onDisconnect_eq]
      exact .same
  | error c message code =>
      obtain ⟨-, conn, -, -, rfl⟩ := lost_eq rfl hstep
      rw [onDisconnect_eq]
      exact .same
  | resume i =>
      cases resume_cases hstep with
      | starting hphase =>
          rw [start_reads]
          exact .same
      | receiving c id timeoutMs hphase =>
          unfold receive
          split
          · exact .same
          next current hcodec => exact .begun i current hcodec
      | unsent | sending | received | failing => exact .same
  | read r =>
      obtain ⟨read, frame, conn, hr, hresume, rfl⟩ := read_eq hstep
      exact .continued r read frame conn hr hresume

/-- A connection becomes the current one when it is opened. -/
theorem step_codec {client next : Client Value} {event : ClientEvent}
    (hstep : client.step format decode event = some next) :
    client.opened ≤ next.opened ∧
      ∀ c, next.codec = some c → client.codec = some c ∨ c = client.opened := by
  by_cases hcalm : ¬ event.Lifecycle
  · have hsame := step_calm hcalm hstep
    rw [hsame.opened_eq, hsame.codec_eq]
    exact ⟨Nat.le_refl _, fun _ h => .inl h⟩
  cases event with
  | connect =>
      cases hstep
      rw [connect_eq]
      exact ⟨Nat.le_refl _, fun _ h => .inl h⟩
  | disconnect =>
      cases hstep
      rw [disconnect_eq]
      exact ⟨Nat.le_refl _, fun _ h => (by cases h)⟩
  | connected k throws =>
      obtain ⟨-, hnext⟩ := connected_eq hstep
      rw [hnext]
      refine ⟨Nat.le_succ _, ?_⟩
      intro c hc
      cases hc
      exact .inr rfl
  | connectFailed k message =>
      obtain ⟨-, hnext⟩ := connectFailed_eq hstep
      rw [hnext]
      exact ⟨Nat.le_refl _, fun _ h => .inl h⟩
  | sleepOver l =>
      obtain ⟨-, hnext⟩ := sleepOver_eq hstep
      rw [hnext]
      exact ⟨Nat.le_refl _, fun _ h => .inl h⟩
  | close c =>
      obtain ⟨-, conn, -, -, rfl⟩ := lost_eq rfl hstep
      rw [onDisconnect_eq]
      exact ⟨Nat.le_refl _, fun _ h => (by cases h)⟩
  | error c message code =>
      obtain ⟨-, conn, -, -, rfl⟩ := lost_eq rfl hstep
      rw [onDisconnect_eq]
      exact ⟨Nat.le_refl _, fun _ h => (by cases h)⟩
  | call | data | written | poll | timeout | resume | read => exact absurd id hcalm

/-! ## Ended connections -/

/-- An ended connection has a dead socket and nobody waiting, and only opened
connections are read from. -/
structure Grounded (client : Client Value) : Prop where
  live : Live client
  opened : ∀ read ∈ client.reads, read.conn < client.opened
  ended : ∀ c, (client.conns c).connected = false →
    (client.conns c).socket ≠ .live ∧ (client.conns c).waiters = []

variable (format decode) in
/-- The connection is closed and not the current one, and no `recvFrame` will be
called on it any more. -/
structure Left (client : Client Value) (c : Nat) : Prop where
  closed : (client.conns c).connected = false
  forgotten : client.codec ≠ some c
  unread : ∀ last, Reachable (step format decode) client last → ∀ r read,
    last.reads[r]? = some read → read.conn = c → r < client.reads.length

/-- A connection that is no longer the current one. -/
structure Forgotten (client : Client Value) (c reads : Nat) : Prop where
  forgotten : client.codec ≠ some c
  opened : c < client.opened
  unread : ∀ r read, client.reads[r]? = some read → read.conn = c → r < reads

theorem init_grounded (config : ClientConfig) : Grounded (init config : Client Value) :=
  ⟨init_live config, fun _ hmem => (by cases hmem), fun _ hclosed => (by cases hclosed)⟩

theorem Grounded.not_codec {client : Client Value} (hgrounded : Grounded client) {c : Nat}
    (hclosed : (client.conns c).connected = false) : client.codec ≠ some c := by
  intro hcodec
  exact (hgrounded.ended c hclosed).1 (hgrounded.live.codec c hcodec).2

/-- Receiving does not end a connection, and on an ended one nobody waits. -/
theorem recv_ended {conn : UnixSocketConnection}
    (hended : conn.connected = false → conn.socket ≠ .live ∧ conn.waiters = []) (length : Nat) :
    (conn.recv length).2.connected = false →
      (conn.recv length).2.socket ≠ .live ∧ (conn.recv length).2.waiters = [] := by
  unfold recv
  split
  · exact hended
  · split
    · exact hended
    next hconnected =>
      intro hclosed
      exact absurd hclosed hconnected

theorem Moves.ended_of {client : Client Value} {c : Nat} {conn : UnixSocketConnection}
    (hmoves : Moves client c conn)
    (hended : (client.conns c).connected = false →
      (client.conns c).socket ≠ .live ∧ (client.conns c).waiters = []) :
    conn.connected = false → conn.socket ≠ .live ∧ conn.waiters = [] := by
  cases hmoves with
  | same => exact hended
  | data chunk hlive =>
      intro hclosed
      rw [onData_eq] at hclosed
      exact absurd hlive (hended hclosed).1
  | ended conn hopened hlost =>
      rintro -
      rcases hlost with rfl | ⟨message, code, rfl⟩
      · rw [onClose_eq]
        exact ⟨fun h => (by cases h), rfl⟩
      · rw [onError_eq]
        exact ⟨fun h => (by cases h), rfl⟩
  | sent sends output => exact hended
  | received hcodec => exact recv_ended hended 4
  | read r read frame conn hread hconn hresume =>
      have hresumes := FrameRead.resume_cases hresume
      generalize read.frame = state at hresumes
      cases hresumes with
      | reads recv head hresolved hpos hfits => exact recv_ended hended _
      | refuses | empty | returns | fails => exact hended

theorem Grounded.step {client next : Client Value} {event : ClientEvent}
    (hgrounded : Grounded client) (hstep : client.step format decode event = some next) :
    Grounded next := by
  obtain ⟨hopened, -⟩ := step_codec hstep
  refine ⟨live_of_step hgrounded.live hstep, ?_, ?_⟩
  · have hreading := step_reading hstep
    generalize next.reads = reads at hreading
    intro read hmem
    cases hreading with
    | same => exact Nat.lt_of_lt_of_le (hgrounded.opened read hmem) hopened
    | begun i c hcodec =>
        rcases List.mem_append.mp hmem with hold | hnew
        · exact Nat.lt_of_lt_of_le (hgrounded.opened read hold) hopened
        · rw [List.mem_singleton.mp hnew]
          exact Nat.lt_of_lt_of_le (hgrounded.live.codec c hcodec).1 hopened
    | continued r old frame conn hread hresume =>
        rcases List.mem_or_eq_of_mem_set hmem with hold | rfl
        · exact Nat.lt_of_lt_of_le (hgrounded.opened read hold) hopened
        · exact Nat.lt_of_lt_of_le (hgrounded.opened old (List.mem_of_getElem? hread)) hopened
  · intro c
    exact (step_moves hstep c).ended_of (hgrounded.ended c)

theorem Forgotten.step {client next : Client Value} {event : ClientEvent} {c reads : Nat}
    (hforgotten : Forgotten client c reads) (hstep : client.step format decode event = some next) :
    Forgotten next c reads := by
  obtain ⟨hopened, hcodec⟩ := step_codec hstep
  refine ⟨?_, Nat.lt_of_lt_of_le hforgotten.opened hopened, ?_⟩
  · intro hc
    rcases hcodec c hc with hold | hnew
    · exact hforgotten.forgotten hold
    · exact Nat.ne_of_lt hforgotten.opened hnew
  · have hreading := step_reading hstep
    generalize next.reads = all at hreading
    intro r read hread hconn
    cases hreading with
    | same => exact hforgotten.unread r read hread hconn
    | begun i d hd =>
        rcases Nat.lt_or_ge r client.reads.length with hlt | hge
        · rw [List.getElem?_append_left hlt] at hread
          exact hforgotten.unread r read hread hconn
        · rw [List.getElem?_append_right hge] at hread
          rw [List.mem_singleton.mp (List.mem_of_getElem? hread)] at hconn
          exact absurd (hconn ▸ hd) hforgotten.forgotten
    | continued q old frame conn hold hresume =>
        by_cases hsame : q = r
        · subst hsame
          rw [List.getElem?_set_self (List.getElem?_eq_some_iff.mp hold).1] at hread
          cases hread
          exact hforgotten.unread q old hold hconn
        · rw [List.getElem?_set_ne hsame] at hread
          exact hforgotten.unread r read hread hconn

/-- What is no longer the current connection never is again. -/
theorem Forgotten.of_reachable {client last : Client Value} {c reads : Nat}
    (hforgotten : Forgotten client c reads) (hreach : Reachable (Client.step format decode) client last) :
    Forgotten last c reads :=
  hreach.invariant (fun state => Forgotten state c reads)
    (fun _ _ _ hold hnext => Forgotten.step hold hnext) hforgotten

/-- A connection that was opened is left exactly when it is closed. -/
theorem left_iff {client : Client Value} (hgrounded : Grounded client) {c : Nat}
    (hopened : c < client.opened) :
    Left format decode client c ↔ (client.conns c).connected = false := by
  constructor
  · intro hleft
    exact hleft.closed
  · intro hclosed
    have hforgotten : Forgotten client c client.reads.length := by
      refine ⟨hgrounded.not_codec hclosed, hopened, ?_⟩
      intro r read hread _
      exact (List.getElem?_eq_some_iff.mp hread).1
    refine ⟨hclosed, hforgotten.forgotten, ?_⟩
    intro last hlast
    exact (hforgotten.of_reachable hlast).unread

end Client

end Ibridger.Js
