import Mathlib.Data.List.Basic

/-! # The JS Unix socket connection

`UnixSocketConnection` of `unix-socket.ts` and the Node socket below it. A
promise that an operation returns is an entry of a table, in the order the
operations were called; the operation answers with the index of its entry.

Code that awaits a promise continues in a step of its own, so the functions
here are the stretches of code that run without interruption.
-/

namespace Ibridger.Js

structure TransportError where
  message : String
  code : String
deriving DecidableEq, Repr

/-- What a promise has come to. -/
inductive Promise (Value : Type) where
  | pending
  | resolved (value : Value)
  | rejected (error : TransportError)
deriving DecidableEq, Repr

/-- Only the first `resolve` or `reject` has an effect. -/
def Promise.settle {Value : Type} (promise outcome : Promise Value) : Promise Value :=
  match promise with
  | .pending => outcome
  | settled => settled

@[simp] theorem Promise.settle_pending {Value : Type} (outcome : Promise Value) :
    Promise.pending.settle outcome = outcome := rfl

/-- What Node may still emit: anything, only `'close'`, or nothing. -/
inductive SocketState where
  | live
  | closing
  | closed
deriving DecidableEq, Repr

/-- A `recv` that waits for bytes. `recv` is the index of its promise. -/
structure Waiter where
  need : Nat
  recv : Nat
deriving DecidableEq, Repr

/-- A call of `recv`: the length asked for and the promise returned. -/
structure Recv where
  need : Nat
  outcome : Promise (List UInt8)
deriving DecidableEq, Repr

def Recv.settle (recv : Recv) (outcome : Promise (List UInt8)) : Recv :=
  { recv with outcome := recv.outcome.settle outcome }

structure UnixSocketConnection where
  buffer : List UInt8
  connected : Bool
  waiters : List Waiter
  socket : SocketState
  /-- The `recv` calls so far. -/
  recvs : List Recv
  /-- The promises of the `send` calls so far. -/
  sends : List (Promise Unit)
  /-- The bytes passed to `socket.write`. -/
  output : List UInt8
  /-- The bytes of all `'data'` events. -/
  received : List UInt8
  /-- How often `onDisconnect` was called. -/
  disconnects : Nat
deriving DecidableEq

namespace UnixSocketConnection

def fromSocket : UnixSocketConnection where
  buffer := []
  connected := true
  waiters := []
  socket := .live
  recvs := []
  sends := []
  output := []
  received := []
  disconnects := 0

def closedError : TransportError := ⟨"Connection closed", "ECONNRESET"⟩

def notConnectedError : TransportError := ⟨"Not connected", "ENOTCONN"⟩

def settleRecv (conn : UnixSocketConnection) (recv : Nat) (outcome : Promise (List UInt8)) :
    UnixSocketConnection :=
  { conn with recvs := conn.recvs.modify recv fun call => call.settle outcome }

def splice (conn : UnixSocketConnection) (n : Nat) : List UInt8 × UnixSocketConnection :=
  (conn.buffer.take n, { conn with buffer := conn.buffer.drop n })

def drain (conn : UnixSocketConnection) : List Waiter → UnixSocketConnection
  | [] => { conn with waiters := [] }
  | w :: rest =>
      if conn.buffer.length < w.need then { conn with waiters := w :: rest }
      else ((conn.splice w.need).2.settleRecv w.recv (.resolved (conn.splice w.need).1)).drain rest

def drainWaiters (conn : UnixSocketConnection) : UnixSocketConnection :=
  conn.drain conn.waiters

def rejectEach (conn : UnixSocketConnection) (error : TransportError) :
    List Waiter → UnixSocketConnection
  | [] => { conn with waiters := [] }
  | w :: rest => (conn.settleRecv w.recv (.rejected error)).rejectEach error rest

def rejectWaiters (conn : UnixSocketConnection) (error : TransportError) : UnixSocketConnection :=
  conn.rejectEach error conn.waiters

/-- The `'data'` handler. -/
def onData (conn : UnixSocketConnection) (chunk : List UInt8) : UnixSocketConnection :=
  drainWaiters
    { conn with buffer := conn.buffer ++ chunk, received := conn.received ++ chunk }

/-- The `'close'` handler, up to the call of `onDisconnect`. -/
def onClose (conn : UnixSocketConnection) : UnixSocketConnection :=
  rejectWaiters
    { conn with connected := false, socket := .closed, disconnects := conn.disconnects + 1 }
    closedError

/-- The `'error'` handler, up to the call of `onDisconnect`. `code` is `none`
for an error without a code. -/
def onError (conn : UnixSocketConnection) (message : String) (code : Option String) :
    UnixSocketConnection :=
  rejectWaiters
    { conn with connected := false, socket := .closing, disconnects := conn.disconnects + 1 }
    ⟨message, code.getD "EUNKNOWN"⟩

/-- The callback of a `socket.write`. -/
def onWritten (conn : UnixSocketConnection) (send : Nat)
    (failure : Option (String × Option String)) : UnixSocketConnection :=
  match failure with
  | none => { conn with sends := conn.sends.modify send fun call => call.settle (.resolved ()) }
  | some (message, code) =>
      { conn with sends := conn.sends.modify send fun call =>
          call.settle (.rejected ⟨message, code.getD "EUNKNOWN"⟩) }

def send (conn : UnixSocketConnection) (data : List UInt8) : Nat × UnixSocketConnection :=
  if conn.connected then
    (conn.sends.length,
      { conn with sends := conn.sends ++ [.pending], output := conn.output ++ data })
  else
    (conn.sends.length, { conn with sends := conn.sends ++ [.rejected notConnectedError] })

def recv (conn : UnixSocketConnection) (length : Nat) : Nat × UnixSocketConnection :=
  if length ≤ conn.buffer.length then
    (conn.recvs.length,
      { (conn.splice length).2 with
        recvs := conn.recvs ++ [⟨length, .resolved (conn.splice length).1⟩] })
  else if conn.connected = false then
    (conn.recvs.length, { conn with recvs := conn.recvs ++ [⟨length, .rejected closedError⟩] })
  else
    (conn.recvs.length,
      { conn with
        recvs := conn.recvs ++ [⟨length, .pending⟩]
        waiters := conn.waiters ++ [⟨length, conn.recvs.length⟩] })

def close (conn : UnixSocketConnection) : UnixSocketConnection :=
  { conn with
    connected := false
    socket := if conn.socket = .live then .closing else conn.socket }

/-- What has become of a `recv` call. -/
def recvOutcome (conn : UnixSocketConnection) (recv : Nat) : Promise (List UInt8) :=
  ((conn.recvs[recv]?).map Recv.outcome).getD .pending

/-- What has become of a `send` call. -/
def sendOutcome (conn : UnixSocketConnection) (send : Nat) : Promise Unit :=
  (conn.sends[send]?).getD .pending

/-! ## What the handlers leave alone -/

/-- Serving waiters touches the buffer, the queue and the promises of `recv`. -/
theorem drain_eq (conn : UnixSocketConnection) (waiters : List Waiter) :
    conn.drain waiters =
      { conn with
        buffer := (conn.drain waiters).buffer
        waiters := (conn.drain waiters).waiters
        recvs := (conn.drain waiters).recvs } := by
  induction waiters generalizing conn with
  | nil => rfl
  | cons w rest ih =>
      rw [drain]
      split
      · rfl
      · exact ih _

/-- Rejecting waiters touches the queue and the promises of `recv`. -/
theorem rejectEach_eq (conn : UnixSocketConnection) (error : TransportError)
    (waiters : List Waiter) :
    conn.rejectEach error waiters =
      { conn with waiters := [], recvs := (conn.rejectEach error waiters).recvs } := by
  induction waiters generalizing conn with
  | nil => rfl
  | cons w rest ih => exact ih _

theorem onData_eq (conn : UnixSocketConnection) (chunk : List UInt8) :
    conn.onData chunk =
      { conn with
        buffer := (conn.onData chunk).buffer
        waiters := (conn.onData chunk).waiters
        recvs := (conn.onData chunk).recvs
        received := conn.received ++ chunk } := by
  rw [onData, drainWaiters]
  exact drain_eq _ _

theorem onClose_eq (conn : UnixSocketConnection) :
    conn.onClose =
      { conn with
        connected := false
        socket := .closed
        waiters := []
        recvs := conn.onClose.recvs
        disconnects := conn.disconnects + 1 } := by
  rw [onClose, rejectWaiters]
  exact rejectEach_eq _ _ _

theorem onError_eq (conn : UnixSocketConnection) (message : String) (code : Option String) :
    conn.onError message code =
      { conn with
        connected := false
        socket := .closing
        waiters := []
        recvs := (conn.onError message code).recvs
        disconnects := conn.disconnects + 1 } := by
  rw [onError, rejectWaiters]
  exact rejectEach_eq _ _ _

theorem onData_of_no_waiters {conn : UnixSocketConnection} (hwaiters : conn.waiters = [])
    (chunk : List UInt8) :
    conn.onData chunk =
      { conn with buffer := conn.buffer ++ chunk, received := conn.received ++ chunk } := by
  simp only [onData, drainWaiters, hwaiters, drain]

theorem onClose_of_no_waiters {conn : UnixSocketConnection} (hwaiters : conn.waiters = []) :
    conn.onClose =
      { conn with
        connected := false, socket := .closed, disconnects := conn.disconnects + 1 } := by
  simp only [onClose, rejectWaiters, hwaiters, rejectEach]

theorem recv_eq (conn : UnixSocketConnection) (length : Nat) :
    (conn.recv length).2 =
      { conn with
        buffer := (conn.recv length).2.buffer
        waiters := (conn.recv length).2.waiters
        recvs := (conn.recv length).2.recvs } := by
  unfold recv
  split
  · rfl
  · split <;> rfl

end UnixSocketConnection

end Ibridger.Js
