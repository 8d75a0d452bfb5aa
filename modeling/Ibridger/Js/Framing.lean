import Ibridger.Js.UnixSocket
import Ibridger.Wire.Frame

/-! # The JS framed connection

`FramedConnection` of `framing.ts`. `sendFrame` and `recvFrame` each await the
connection twice, so a call in progress is a state that says which promise it
awaits; `resume` runs it from there to its next `await` or to its end.
-/

namespace Ibridger.Js

open Wire

/-- `Buffer.writeUInt32BE` into a new buffer of four bytes. -/
def writeUInt32BE (value : Nat) : List UInt8 :=
  BigEndian.toBytes 4 value

/-- `Buffer.readUInt32BE` at offset zero. -/
def readUInt32BE (buffer : List UInt8) : Nat :=
  BigEndian.ofBytes (buffer.take 4)

def frameTooLargeError (length : Nat) : TransportError :=
  ⟨"Frame too large: " ++ toString length ++ " > " ++ toString MAX_FRAME_SIZE, "EMSGSIZE"⟩

def incomingFrameTooLargeError (length : Nat) : TransportError :=
  ⟨"Incoming frame too large: " ++ toString length ++ " > " ++ toString MAX_FRAME_SIZE,
    "EMSGSIZE"⟩

/-- A `sendFrame` call: it awaits the `send` of its header or of its body. -/
inductive FrameSend where
  | header (send : Nat) (data : List UInt8)
  | body (send : Nat)
  | settled (result : Except TransportError Unit)
deriving DecidableEq

/-- A `recvFrame` call: it awaits the `recv` of its header or of its body. -/
inductive FrameRead where
  | header (recv : Nat)
  | body (recv : Nat)
  | settled (result : Except TransportError (List UInt8))
deriving DecidableEq

def sendFrame (conn : UnixSocketConnection) (data : List UInt8) :
    FrameSend × UnixSocketConnection :=
  if MAX_FRAME_SIZE < data.length then
    (.settled (.error (frameTooLargeError data.length)), conn)
  else
    (.header (conn.send (writeUInt32BE data.length)).1 data,
      (conn.send (writeUInt32BE data.length)).2)

/-- Continue a `sendFrame` whose `send` has settled. -/
def FrameSend.resume (conn : UnixSocketConnection) :
    FrameSend → Option (FrameSend × UnixSocketConnection)
  | .header send data =>
      match conn.sendOutcome send with
      | .pending => none
      | .rejected error => some (.settled (.error error), conn)
      | .resolved () =>
          if 0 < data.length then some (.body (conn.send data).1, (conn.send data).2)
          else some (.settled (.ok ()), conn)
  | .body send =>
      match conn.sendOutcome send with
      | .pending => none
      | .rejected error => some (.settled (.error error), conn)
      | .resolved () => some (.settled (.ok ()), conn)
  | .settled _ => none

/-- The turn in which a call of `sendFrame` takes up its work. -/
inductive FrameSend.Resumes (conn : UnixSocketConnection) :
    FrameSend → FrameSend → UnixSocketConnection → Prop where
  | writes (ticket : Nat) (data : List UInt8) (hdata : data ≠ [])
      (hresolved : conn.sendOutcome ticket = .resolved ()) :
      Resumes conn (.header ticket data) (.body (conn.send data).1) (conn.send data).2
  | finishes (ticket : Nat) (send : FrameSend)
      (hsend : send = .header ticket [] ∨ send = .body ticket)
      (hresolved : conn.sendOutcome ticket = .resolved ()) :
      Resumes conn send (.settled (.ok ())) conn
  | fails (ticket : Nat) (send : FrameSend) (error : TransportError)
      (hsend : (∃ data, send = .header ticket data) ∨ send = .body ticket)
      (hrejected : conn.sendOutcome ticket = .rejected error) :
      Resumes conn send (.settled (.error error)) conn

theorem FrameSend.resume_cases {conn next : UnixSocketConnection} {send send' : FrameSend}
    (hresume : send.resume conn = some (send', next)) : FrameSend.Resumes conn send send' next := by
  cases send with
  | header ticket data =>
      simp only [FrameSend.resume] at hresume
      split at hresume
      · cases hresume
      next error hrejected =>
        cases hresume
        exact .fails ticket _ error (.inl ⟨data, rfl⟩) hrejected
      next hresolved =>
        split at hresume
        next hpos =>
          cases hresume
          exact .writes ticket data (List.ne_nil_of_length_pos hpos) hresolved
        next hzero =>
          cases hresume
          have hempty : data = [] := List.eq_nil_of_length_eq_zero (by omega)
          exact .finishes ticket _ (.inl (by rw [hempty])) hresolved
  | body ticket =>
      simp only [FrameSend.resume] at hresume
      split at hresume
      · cases hresume
      next error hrejected =>
        cases hresume
        exact .fails ticket _ error (.inr rfl) hrejected
      next hresolved =>
        cases hresume
        exact .finishes ticket _ (.inr rfl) hresolved
  | settled result => cases hresume

def recvFrame (conn : UnixSocketConnection) : FrameRead × UnixSocketConnection :=
  (.header (conn.recv 4).1, (conn.recv 4).2)

open UnixSocketConnection in
theorem recvFrame_eq (conn : UnixSocketConnection) :
    (recvFrame conn).2 =
      { conn with
        buffer := (recvFrame conn).2.buffer
        waiters := (recvFrame conn).2.waiters
        recvs := (recvFrame conn).2.recvs } :=
  recv_eq conn 4

/-- Continue a `recvFrame` whose `recv` has settled. -/
def FrameRead.resume (conn : UnixSocketConnection) :
    FrameRead → Option (FrameRead × UnixSocketConnection)
  | .header recv =>
      match conn.recvOutcome recv with
      | .pending => none
      | .rejected error => some (.settled (.error error), conn)
      | .resolved bytes =>
          if MAX_FRAME_SIZE < readUInt32BE bytes then
            some (.settled (.error (incomingFrameTooLargeError (readUInt32BE bytes))), conn)
          else if readUInt32BE bytes = 0 then some (.settled (.ok []), conn)
          else
            some (.body (conn.recv (readUInt32BE bytes)).1,
              (conn.recv (readUInt32BE bytes)).2)
  | .body recv =>
      match conn.recvOutcome recv with
      | .pending => none
      | .rejected error => some (.settled (.error error), conn)
      | .resolved payload => some (.settled (.ok payload), conn)
  | .settled _ => none

/-- The turn in which a call of `recvFrame` takes up its work. -/
inductive FrameRead.Resumes (conn : UnixSocketConnection) :
    FrameRead → FrameRead → UnixSocketConnection → Prop where
  | refuses (recv : Nat) (head : List UInt8)
      (hresolved : conn.recvOutcome recv = .resolved head)
      (hlarge : MAX_FRAME_SIZE < readUInt32BE head) :
      Resumes conn (.header recv)
        (.settled (.error (incomingFrameTooLargeError (readUInt32BE head)))) conn
  | empty (recv : Nat) (head : List UInt8) (hresolved : conn.recvOutcome recv = .resolved head)
      (hzero : readUInt32BE head = 0) :
      Resumes conn (.header recv) (.settled (.ok [])) conn
  | reads (recv : Nat) (head : List UInt8) (hresolved : conn.recvOutcome recv = .resolved head)
      (hpos : 0 < readUInt32BE head) (hfits : readUInt32BE head ≤ MAX_FRAME_SIZE) :
      Resumes conn (.header recv) (.body (conn.recv (readUInt32BE head)).1)
        (conn.recv (readUInt32BE head)).2
  | returns (recv : Nat) (payload : List UInt8)
      (hresolved : conn.recvOutcome recv = .resolved payload) :
      Resumes conn (.body recv) (.settled (.ok payload)) conn
  | fails (recv : Nat) (read : FrameRead) (error : TransportError)
      (hread : read = .header recv ∨ read = .body recv)
      (hrejected : conn.recvOutcome recv = .rejected error) :
      Resumes conn read (.settled (.error error)) conn

theorem FrameRead.resume_cases {conn next : UnixSocketConnection} {read read' : FrameRead}
    (hresume : read.resume conn = some (read', next)) : FrameRead.Resumes conn read read' next := by
  cases read with
  | header recv =>
      simp only [FrameRead.resume] at hresume
      split at hresume
      · cases hresume
      next error hrejected =>
        cases hresume
        exact .fails recv _ error (.inl rfl) hrejected
      next head hresolved =>
        split at hresume
        next hlarge =>
          cases hresume
          exact .refuses recv head hresolved hlarge
        next hfits =>
          split at hresume
          next hzero =>
            cases hresume
            exact .empty recv head hresolved hzero
          next hsome =>
            cases hresume
            exact .reads recv head hresolved (Nat.pos_of_ne_zero hsome) (Nat.le_of_not_lt hfits)
  | body recv =>
      simp only [FrameRead.resume] at hresume
      split at hresume
      · cases hresume
      next error hrejected =>
        cases hresume
        exact .fails recv _ error (.inr rfl) hrejected
      next payload hresolved =>
        cases hresume
        exact .returns recv payload hresolved
  | settled result => cases hresume

theorem FrameRead.resume_eq {conn next : UnixSocketConnection} {read read' : FrameRead}
    (hresume : read.resume conn = some (read', next)) :
    next = { conn with
      buffer := next.buffer, waiters := next.waiters, recvs := next.recvs } := by
  cases FrameRead.resume_cases hresume with
  | reads recv head hresolved hpos hfits => exact conn.recv_eq _
  | refuses | empty | returns | fails => rfl

end Ibridger.Js
