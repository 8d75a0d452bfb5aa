import Ibridger.Js.RecvOrder

/-! # Where the bytes of a connection go

The handlers and the methods of `UnixSocketConnection` in any order, also in orders
in which Node does not call them. Each settles some promises of `recv`, and what
they are settled with is recorded in the order in which the code does it. Nothing
is asked here of the order in which overlapping calls are served.
-/

namespace Ibridger.Js

namespace UnixSocketConnection

inductive StreamEvent where
  | data (chunk : List UInt8)
  | recv (length : Nat)
  | error (message : String) (code : Option String)
  | close
  /-- The method `close`. -/
  | localClose
deriving DecidableEq, Repr

def streamStep (conn : UnixSocketConnection) : StreamEvent → UnixSocketConnection
  | .data chunk => conn.onData chunk
  | .recv length => (conn.recv length).2
  | .error message code => conn.onError message code
  | .close => conn.onClose
  | .localClose => conn.close

/-- The bytes of the `'data'` events. -/
def chunks : List StreamEvent → List UInt8
  | [] => []
  | .data chunk :: rest => chunk ++ chunks rest
  | _ :: rest => chunks rest

/-- A call of `resolve` or `reject`, or the end of a `recv` that does not wait. -/
structure Settlement where
  recv : Nat
  outcome : Promise (List UInt8)
deriving DecidableEq, Repr

/-- The bytes that a settlement hands out. -/
def Settlement.bytes (settlement : Settlement) : List UInt8 :=
  match settlement.outcome with
  | .resolved bytes => bytes
  | .pending | .rejected _ => []

/-- What `drain` resolves. -/
def drained (conn : UnixSocketConnection) : List Waiter → List Settlement
  | [] => []
  | w :: rest =>
      if conn.buffer.length < w.need then []
      else
        ⟨w.recv, .resolved (conn.splice w.need).1⟩ ::
          ((conn.splice w.need).2.settleRecv w.recv (.resolved (conn.splice w.need).1)).drained rest

def rejections (error : TransportError) (waiters : List Waiter) : List Settlement :=
  waiters.map fun w => ⟨w.recv, .rejected error⟩

/-- What a step settles. -/
def settlements (conn : UnixSocketConnection) : StreamEvent → List Settlement
  | .data chunk =>
      { conn with
        buffer := conn.buffer ++ chunk, received := conn.received ++ chunk }.drained conn.waiters
  | .recv length =>
      if length ≤ conn.buffer.length then [⟨conn.recvs.length, .resolved (conn.splice length).1⟩]
      else if conn.connected = false then [⟨conn.recvs.length, .rejected closedError⟩]
      else []
  | .error message code => rejections ⟨message, code.getD "EUNKNOWN"⟩ conn.waiters
  | .close => rejections closedError conn.waiters
  | .localClose => []

/-- What a sequence of events settles, in order. -/
def settledBy : UnixSocketConnection → List StreamEvent → List Settlement
  | _, [] => []
  | conn, event :: rest => conn.settlements event ++ settledBy (conn.streamStep event) rest

/-- The books of a connection, when the waiters are still to be served. -/
structure Books (conn : UnixSocketConnection) (log : List Settlement) (waiters : List Waiter) :
    Prop where
  stream : (log.map Settlement.bytes).flatten ++ conn.buffer = conn.received
  exact : ∀ (i : Nat) need bytes, conn.recvs[i]? = some ⟨need, .resolved bytes⟩ →
    bytes.length = need
  distinct : (waiters.map Waiter.recv).Nodup
  pending_iff : ∀ (i : Nat) need, conn.recvs[i]? = some ⟨need, .pending⟩ ↔ ⟨need, i⟩ ∈ waiters
  settled_iff : ∀ i outcome, ⟨i, outcome⟩ ∈ log ↔
    outcome ≠ .pending ∧ ∃ need, conn.recvs[i]? = some ⟨need, outcome⟩
  once : (log.map Settlement.recv).Nodup

namespace Books

variable {conn next : UnixSocketConnection} {log : List Settlement} {waiters : List Waiter}

theorem fromSocket : Books fromSocket [] [] := by
  refine ⟨rfl, ?_, List.nodup_nil, ?_, ?_, List.nodup_nil⟩
  · intro i need bytes hcall
    cases hcall
  · intro i need
    simp [UnixSocketConnection.fromSocket]
  · intro i outcome
    simp [UnixSocketConnection.fromSocket]

theorem congr (hbooks : Books conn log waiters) (hbuffer : next.buffer = conn.buffer)
    (hreceived : next.received = conn.received) (hrecvs : next.recvs = conn.recvs) :
    Books next log waiters := by
  refine ⟨?_, ?_, hbooks.distinct, ?_, ?_, hbooks.once⟩
  · rw [hbuffer, hreceived]
    exact hbooks.stream
  · rw [hrecvs]
    exact hbooks.exact
  · rw [hrecvs]
    exact hbooks.pending_iff
  · rw [hrecvs]
    exact hbooks.settled_iff

/-- The buffer grows by what has come. -/
theorem receive (hbooks : Books conn log waiters) (chunk : List UInt8) :
    Books { conn with buffer := conn.buffer ++ chunk, received := conn.received ++ chunk } log
      waiters := by
  refine ⟨?_, hbooks.exact, hbooks.distinct, hbooks.pending_iff, hbooks.settled_iff, hbooks.once⟩
  dsimp only
  rw [← List.append_assoc, hbooks.stream]

/-- The first waiter is settled, with bytes from the front of the buffer or with an error. -/
theorem settle {w : Waiter} (hbooks : Books conn log (w :: waiters))
    {outcome : Promise (List UInt8)} (hsettled : outcome ≠ .pending)
    (hbytes : ∀ bytes, outcome = .resolved bytes → bytes.length = w.need)
    (hbuffer : Settlement.bytes ⟨w.recv, outcome⟩ ++ next.buffer = conn.buffer)
    (hreceived : next.received = conn.received)
    (hrecvs : next.recvs = conn.recvs.modify w.recv fun call => call.settle outcome) :
    Books next (log ++ [⟨w.recv, outcome⟩]) waiters := by
  have hcall : conn.recvs[w.recv]? = some ⟨w.need, .pending⟩ :=
    (hbooks.pending_iff w.recv w.need).mpr List.mem_cons_self
  obtain ⟨hfirst, hdistinct⟩ := List.nodup_cons.mp hbooks.distinct
  have hself : next.recvs[w.recv]? = some ⟨w.need, outcome⟩ := by
    rw [hrecvs, List.getElem?_modify_eq, hcall]
    rfl
  have hother : ∀ i, i ≠ w.recv → next.recvs[i]? = conn.recvs[i]? := by
    intro i hi
    rw [hrecvs, List.getElem?_modify_ne _ _ (Ne.symm hi)]
  refine ⟨?_, ?_, hdistinct, ?_, ?_, ?_⟩
  · rw [List.map_append, List.flatten_append, List.map_singleton, List.flatten_singleton,
      List.append_assoc, hbuffer, hreceived]
    exact hbooks.stream
  · intro i need bytes hi
    by_cases hsame : i = w.recv
    · subst hsame
      rw [hself] at hi
      cases hi
      exact hbytes bytes rfl
    · rw [hother i hsame] at hi
      exact hbooks.exact i need bytes hi
  · intro i need
    by_cases hsame : i = w.recv
    · subst hsame
      rw [hself]
      constructor
      · intro hpending
        cases hpending
        exact absurd rfl hsettled
      · intro hmem
        exact absurd (List.mem_map_of_mem hmem) hfirst
    · rw [hother i hsame, hbooks.pending_iff, List.mem_cons]
      constructor
      · rintro (rfl | hmem)
        · exact absurd rfl hsame
        · exact hmem
      · exact .inr
  · intro i result
    rw [List.mem_append, List.mem_singleton]
    by_cases hsame : i = w.recv
    · subst hsame
      rw [hself]
      constructor
      · rintro (hmem | heq)
        · obtain ⟨hnot, need, hneed⟩ := (hbooks.settled_iff w.recv result).mp hmem
          rw [hcall] at hneed
          cases hneed
          exact absurd rfl hnot
        · cases heq
          exact ⟨hsettled, w.need, rfl⟩
      · rintro ⟨-, need, hneed⟩
        cases hneed
        exact .inr rfl
    · rw [hother i hsame, ← hbooks.settled_iff]
      constructor
      · rintro (hmem | heq)
        · exact hmem
        · cases heq
          exact absurd rfl hsame
      · exact .inl
  · rw [List.map_append, List.map_singleton, List.nodup_append]
    refine ⟨hbooks.once, by simp, ?_⟩
    rintro i hi j hj rfl
    obtain ⟨⟨k, result⟩, hmem, rfl⟩ := List.mem_map.mp hi
    obtain ⟨hnot, need, hneed⟩ := (hbooks.settled_iff k result).mp hmem
    have hsame : k = w.recv := List.mem_singleton.mp hj
    subst hsame
    rw [hcall] at hneed
    cases hneed
    exact hnot rfl

theorem drain (hbooks : Books conn log waiters) :
    Books (conn.drain waiters) (log ++ conn.drained waiters) (conn.drain waiters).waiters ∧
      ∀ w ∈ (conn.drain waiters).waiters.head?, (conn.drain waiters).buffer.length < w.need := by
  induction waiters generalizing conn log with
  | nil =>
      rw [drained, List.append_nil]
      refine ⟨hbooks.congr rfl rfl rfl, ?_⟩
      intro w hw
      cases hw
  | cons w rest ih =>
      rw [UnixSocketConnection.drain, drained]
      split
      next hshort =>
        rw [List.append_nil]
        refine ⟨hbooks.congr rfl rfl rfl, ?_⟩
        intro v hv
        cases hv
        exact hshort
      next henough =>
        have hsettle : Books
            ((conn.splice w.need).2.settleRecv w.recv (.resolved (conn.splice w.need).1))
            (log ++ [⟨w.recv, .resolved (conn.splice w.need).1⟩]) rest := by
          refine hbooks.settle (fun heq => (by cases heq)) ?_ ?_ rfl rfl
          · intro bytes heq
            cases heq
            exact List.length_take_of_le (Nat.le_of_not_lt henough)
          · exact List.take_append_drop _ _
        have hrest := ih hsettle
        rw [List.append_assoc, List.singleton_append] at hrest
        exact hrest

theorem reject (hbooks : Books conn log waiters) (error : TransportError) :
    Books (conn.rejectEach error waiters) (log ++ rejections error waiters) [] := by
  induction waiters generalizing conn log with
  | nil =>
      rw [rejections, List.map_nil, List.append_nil]
      exact hbooks.congr rfl rfl rfl
  | cons w rest ih =>
      have hsettle : Books (conn.settleRecv w.recv (.rejected error))
          (log ++ [⟨w.recv, .rejected error⟩]) rest :=
        hbooks.settle (fun heq => (by cases heq)) (fun _ heq => (by cases heq)) rfl rfl rfl
      have hrest := ih hsettle
      rw [List.append_assoc, List.singleton_append] at hrest
      exact hrest

theorem index_lt {i : Nat} {call : Recv} (hcall : conn.recvs[i]? = some call) :
    i < conn.recvs.length :=
  (List.getElem?_eq_some_iff.mp hcall).1

/-- The calls there were before another one. -/
theorem getElem?_push {call other : Recv} {i : Nat} :
    (conn.recvs ++ [call])[i]? = some other ↔
      conn.recvs[i]? = some other ∨ i = conn.recvs.length ∧ other = call := by
  rcases Nat.lt_trichotomy i conn.recvs.length with hlt | rfl | hgt
  · rw [List.getElem?_append_left hlt]
    simp [Nat.ne_of_lt hlt]
  · simp [eq_comm]
  · rw [List.getElem?_eq_none (by simpa using Nat.succ_le_of_lt hgt),
      List.getElem?_eq_none (Nat.le_of_lt hgt)]
    simp [Nat.ne_of_gt hgt]

/-- A call that does not wait. -/
theorem push (hbooks : Books conn log waiters) {length : Nat} {outcome : Promise (List UInt8)}
    (hsettled : outcome ≠ .pending)
    (hbytes : ∀ bytes, outcome = .resolved bytes → bytes.length = length)
    (hbuffer : Settlement.bytes ⟨conn.recvs.length, outcome⟩ ++ next.buffer = conn.buffer)
    (hreceived : next.received = conn.received)
    (hrecvs : next.recvs = conn.recvs ++ [⟨length, outcome⟩]) :
    Books next (log ++ [⟨conn.recvs.length, outcome⟩]) waiters := by
  refine ⟨?_, ?_, hbooks.distinct, ?_, ?_, ?_⟩
  · rw [List.map_append, List.flatten_append, List.map_singleton, List.flatten_singleton,
      List.append_assoc, hbuffer, hreceived]
    exact hbooks.stream
  · intro i need bytes hi
    rw [hrecvs] at hi
    rcases getElem?_push.mp hi with hold | ⟨-, heq⟩
    · exact hbooks.exact i need bytes hold
    · cases heq
      exact hbytes bytes rfl
  · intro i need
    rw [hrecvs, getElem?_push, ← hbooks.pending_iff]
    constructor
    · rintro (hold | ⟨-, heq⟩)
      · exact hold
      · cases heq
        exact absurd rfl hsettled
    · exact .inl
  · intro i result
    rw [List.mem_append, List.mem_singleton, hbooks.settled_iff, hrecvs]
    constructor
    · rintro (⟨hnot, need, hold⟩ | heq)
      · exact ⟨hnot, need, getElem?_push.mpr (.inl hold)⟩
      · cases heq
        exact ⟨hsettled, length, getElem?_push.mpr (.inr ⟨rfl, rfl⟩)⟩
    · rintro ⟨hnot, need, hi⟩
      rcases getElem?_push.mp hi with hold | ⟨rfl, heq⟩
      · exact .inl ⟨hnot, need, hold⟩
      · cases heq
        exact .inr rfl
  · rw [List.map_append, List.map_singleton, List.nodup_append]
    refine ⟨hbooks.once, by simp, ?_⟩
    rintro i hi j hj rfl
    obtain ⟨⟨k, result⟩, hmem, rfl⟩ := List.mem_map.mp hi
    obtain ⟨-, need, hneed⟩ := (hbooks.settled_iff k result).mp hmem
    have hlast : k = conn.recvs.length := List.mem_singleton.mp hj
    exact Nat.ne_of_lt (index_lt hneed) hlast

/-- A call that waits. -/
theorem wait (hbooks : Books conn log waiters) (length : Nat)
    (hbuffer : next.buffer = conn.buffer) (hreceived : next.received = conn.received)
    (hrecvs : next.recvs = conn.recvs ++ [⟨length, .pending⟩]) :
    Books next log (waiters ++ [⟨length, conn.recvs.length⟩]) := by
  refine ⟨?_, ?_, ?_, ?_, ?_, hbooks.once⟩
  · rw [hbuffer, hreceived]
    exact hbooks.stream
  · intro i need bytes hi
    rw [hrecvs] at hi
    rcases getElem?_push.mp hi with hold | ⟨-, heq⟩
    · exact hbooks.exact i need bytes hold
    · cases heq
  · rw [List.map_append, List.map_singleton, List.nodup_append]
    refine ⟨hbooks.distinct, by simp, ?_⟩
    rintro i hi j hj rfl
    obtain ⟨w, hw, rfl⟩ := List.mem_map.mp hi
    have hlast : w.recv = conn.recvs.length := List.mem_singleton.mp hj
    exact Nat.ne_of_lt (index_lt ((hbooks.pending_iff w.recv w.need).mpr hw)) hlast
  · intro i need
    rw [hrecvs, getElem?_push, hbooks.pending_iff, List.mem_append, List.mem_singleton]
    apply or_congr Iff.rfl
    constructor
    · rintro ⟨rfl, heq⟩
      cases heq
      rfl
    · intro heq
      cases heq
      exact ⟨rfl, rfl⟩
  · intro i result
    rw [hbooks.settled_iff, hrecvs]
    constructor
    · rintro ⟨hnot, need, hold⟩
      exact ⟨hnot, need, getElem?_push.mpr (.inl hold)⟩
    · rintro ⟨hnot, need, hi⟩
      rcases getElem?_push.mp hi with hold | ⟨-, heq⟩
      · exact ⟨hnot, need, hold⟩
      · cases heq
        exact absurd rfl hnot

end Books

/-- The books of a connection whose first waiter waits for bytes that are not there. -/
structure Balanced (conn : UnixSocketConnection) (log : List Settlement) : Prop where
  books : Books conn log conn.waiters
  starved : ∀ w ∈ conn.waiters.head?, conn.buffer.length < w.need

theorem Balanced.step {conn : UnixSocketConnection} {log : List Settlement}
    (hbalanced : Balanced conn log) (event : StreamEvent) :
    Balanced (conn.streamStep event) (log ++ conn.settlements event) := by
  obtain ⟨hbooks, hstarved⟩ := hbalanced
  cases event with
  | data chunk =>
      obtain ⟨hnext, hshort⟩ := (hbooks.receive chunk).drain
      exact ⟨hnext, hshort⟩
  | recv length =>
      unfold streamStep settlements UnixSocketConnection.recv
      dsimp only
      split
      next henough =>
        refine ⟨?_, ?_⟩
        · refine hbooks.push (fun heq => (by cases heq)) ?_ ?_ rfl rfl
          · intro bytes heq
            cases heq
            exact List.length_take_of_le henough
          · exact List.take_append_drop _ _
        · intro w hw
          -- what has been taken away is missing for the first waiter as well
          have hbefore := hstarved w hw
          dsimp only [splice]
          rw [List.length_drop]
          omega
      next hshort =>
        split
        next hclosed =>
          refine ⟨?_, hstarved⟩
          exact hbooks.push (fun heq => (by cases heq)) (fun _ heq => (by cases heq)) rfl rfl rfl
        next hopen =>
          rw [List.append_nil]
          refine ⟨hbooks.wait length rfl rfl rfl, ?_⟩
          intro w hw
          dsimp only at hw ⊢
          cases hwaiters : conn.waiters with
          | nil =>
              rw [hwaiters] at hw
              cases hw
              exact Nat.lt_of_not_le hshort
          | cons first rest =>
              rw [hwaiters] at hw
              cases hw
              exact hstarved _ (by rw [hwaiters]; rfl)
  | error message code =>
      have hended : Books { conn with
          connected := false, socket := .closing, disconnects := conn.disconnects + 1 } log
          conn.waiters := hbooks.congr rfl rfl rfl
      have hnext := hended.reject ⟨message, code.getD "EUNKNOWN"⟩
      have hnone : (conn.onError message code).waiters = [] := by rw [onError_eq]
      refine ⟨?_, ?_⟩
      · change Books (conn.onError message code) _ (conn.onError message code).waiters
        rw [hnone]
        exact hnext
      · intro w hw
        change w ∈ (conn.onError message code).waiters.head? at hw
        rw [hnone] at hw
        cases hw
  | close =>
      have hended : Books { conn with
          connected := false, socket := .closed, disconnects := conn.disconnects + 1 } log
          conn.waiters := hbooks.congr rfl rfl rfl
      have hnext := hended.reject closedError
      have hnone : conn.onClose.waiters = [] := by rw [onClose_eq]
      refine ⟨?_, ?_⟩
      · change Books conn.onClose _ conn.onClose.waiters
        rw [hnone]
        exact hnext
      · intro w hw
        change w ∈ conn.onClose.waiters.head? at hw
        rw [hnone] at hw
        cases hw
  | localClose =>
      unfold settlements
      dsimp only
      rw [List.append_nil]
      exact ⟨hbooks.congr rfl rfl rfl, hstarved⟩

/-- An event that rejects the waiters rejects every promise that is pending. -/
theorem Balanced.rejects {conn : UnixSocketConnection} {log : List Settlement}
    (hbalanced : Balanced conn log) {event : StreamEvent} {error : TransportError}
    (hevent : conn.settlements event = rejections error conn.waiters) {i need : Nat}
    (hpending : conn.recvs[i]? = some ⟨need, .pending⟩) :
    (conn.streamStep event).recvOutcome i = .rejected error := by
  have hwaiter := (hbalanced.books.pending_iff i need).mp hpending
  have hmem : ⟨i, .rejected error⟩ ∈ log ++ conn.settlements event := by
    rw [hevent]
    exact List.mem_append_right _ (List.mem_map_of_mem hwaiter)
  obtain ⟨-, other, hother⟩ := ((hbalanced.step event).books.settled_iff i _).mp hmem
  rw [recvOutcome, hother]
  rfl

/-- The connection behind a sequence of events. -/
def behind (events : List StreamEvent) : UnixSocketConnection :=
  events.foldl streamStep fromSocket

/-- What is to be said of a connection behind a sequence of events. -/
structure Accounted (events : List StreamEvent) : Prop where
  /-- No byte is lost, handed out twice or moved. -/
  stream : ((settledBy fromSocket events).map Settlement.bytes).flatten ++ (behind events).buffer =
    chunks events
  exact : ∀ (i : Nat) need bytes, (behind events).recvs[i]? = some ⟨need, .resolved bytes⟩ →
    bytes.length = need
  once : ((settledBy fromSocket events).map Settlement.recv).Nodup
  settled_iff : ∀ i outcome, ⟨i, outcome⟩ ∈ settledBy fromSocket events ↔
    outcome ≠ .pending ∧ ∃ need, (behind events).recvs[i]? = some ⟨need, outcome⟩
  closes : (behind (events ++ [.close])).waiters = [] ∧
    ∀ (i : Nat) need, (behind events).recvs[i]? = some ⟨need, .pending⟩ →
      (behind (events ++ [.close])).recvOutcome i = .rejected closedError
  errs : ∀ message code, (behind (events ++ [.error message code])).waiters = [] ∧
    ∀ (i : Nat) need, (behind events).recvs[i]? = some ⟨need, .pending⟩ →
      (behind (events ++ [.error message code])).recvOutcome i =
        .rejected ⟨message, code.getD "EUNKNOWN"⟩
  /-- No wake-up is lost. -/
  starved : (behind events).waiters = [] ∨
    ∃ w rest, (behind events).waiters = w :: rest ∧ (behind events).buffer.length < w.need

theorem Balanced.run {conn : UnixSocketConnection} {log : List Settlement}
    (hbalanced : Balanced conn log) (events : List StreamEvent) :
    Balanced (events.foldl streamStep conn) (log ++ settledBy conn events) := by
  induction events generalizing conn log with
  | nil =>
      rw [settledBy, List.append_nil]
      exact hbalanced
  | cons event rest ih =>
      rw [settledBy, ← List.append_assoc]
      exact ih (hbalanced.step event)

theorem streamStep_received (conn : UnixSocketConnection) (event : StreamEvent) :
    (conn.streamStep event).received = conn.received ++ chunks [event] := by
  cases event with
  | data chunk =>
      rw [streamStep, onData_eq]
      exact congrArg (conn.received ++ ·) (List.append_nil chunk).symm
  | recv length =>
      rw [streamStep, recv_eq]
      exact (List.append_nil _).symm
  | error message code =>
      rw [streamStep, onError_eq]
      exact (List.append_nil _).symm
  | close =>
      rw [streamStep, onClose_eq]
      exact (List.append_nil _).symm
  | localClose => exact (List.append_nil _).symm

theorem chunks_cons (event : StreamEvent) (rest : List StreamEvent) :
    chunks (event :: rest) = chunks [event] ++ chunks rest := by
  cases event with
  | data chunk => simp [chunks]
  | recv | error | close | localClose => rfl

theorem foldl_received (conn : UnixSocketConnection) (events : List StreamEvent) :
    (events.foldl streamStep conn).received = conn.received ++ chunks events := by
  induction events generalizing conn with
  | nil => exact (List.append_nil _).symm
  | cons event rest ih =>
      rw [List.foldl_cons, ih, streamStep_received, List.append_assoc, ← chunks_cons]

/-- Whatever happens to a connection, and in whatever order, all that has come has
been handed out or is in the buffer, every promise is settled once, and nobody
waits for bytes that are there. -/
theorem stream_accounted (events : List StreamEvent) : Accounted events := by
  have hfirst : Balanced fromSocket [] := ⟨.fromSocket, fun _ hw => (by cases hw)⟩
  have hbalanced : Balanced (behind events) (settledBy fromSocket events) := by
    have hrun := hfirst.run events
    rwa [List.nil_append] at hrun
  have hafter : ∀ event, behind (events ++ [event]) = (behind events).streamStep event := by
    intro event
    rw [behind, List.foldl_append]
    rfl
  refine ⟨?_, hbalanced.books.exact, hbalanced.books.once, hbalanced.books.settled_iff, ?_, ?_, ?_⟩
  · rw [hbalanced.books.stream, behind, foldl_received]
    rfl
  · rw [hafter]
    refine ⟨?_, fun i need hpending => hbalanced.rejects rfl hpending⟩
    rw [streamStep, onClose_eq]
  · intro message code
    rw [hafter]
    refine ⟨?_, fun i need hpending => hbalanced.rejects rfl hpending⟩
    rw [streamStep, onError_eq]
  · cases hwaiters : (behind events).waiters with
    | nil => exact .inl rfl
    | cons w rest => exact .inr ⟨w, rest, rfl, hbalanced.starved w (by rw [hwaiters]; rfl)⟩

/-- A later call takes the first byte, and the earlier one the bytes behind it. -/
example : settledBy fromSocket [.recv 4, .data [1, 2], .recv 1, .data [3, 4, 5], .close] =
    [⟨1, .resolved [1]⟩, ⟨0, .resolved [2, 3, 4, 5]⟩] := rfl

end UnixSocketConnection

end Ibridger.Js
