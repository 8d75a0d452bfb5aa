import Mathlib.Data.List.Basic
import Ibridger.Cpp.Error

/-! # The C++ Unix socket connection

`UnixSocketConnection` of `unix_socket_transport.cpp`, together with the kernel
side of its descriptor: what the coming system calls will answer, what
`::send` has accepted and which descriptors `::close` was given. A call that is
still blocked in a system call is `none`.
-/

namespace Ibridger.Cpp

structure UnixSocketConnection where
  fd : Int
  id : Nat
  connected : Bool
  /-- Answers of the coming `::send` calls. -/
  sends : List SendOutcome
  /-- Answers of the coming `::read` calls. -/
  reads : List ReadOutcome
  /-- The bytes that `::send` has accepted. -/
  wire : List UInt8
  /-- The arguments of the `::close` calls made so far. -/
  closed : List Int
deriving DecidableEq

namespace UnixSocketConnection

/-- A connection built on an open descriptor. -/
def ofFd (fd : Int) (id : Nat) : UnixSocketConnection where
  fd := fd
  id := id
  connected := true
  sends := []
  reads := []
  wire := []
  closed := []

/-- The loop of `send`, with `total` bytes of the data already accepted. -/
def sendLoop (conn : UnixSocketConnection) (data : List UInt8) (total : Nat) :
    List SendOutcome → Option ((Nat × Option ErrorCode) × UnixSocketConnection)
  | [] =>
      if total < data.length then none else some ((total, none), { conn with sends := [] })
  | outcome :: rest =>
      if total < data.length then
        match outcome with
        | .failed errno =>
            if errno = .EINTR then conn.sendLoop data total rest
            else some ((total, some (.system errno)),
              { conn with connected := false, sends := rest })
        | .accepted count =>
            let n := min count (data.length - total)
            if n = 0 then some ((total, none), { conn with sends := rest })
            else
              { conn with wire := conn.wire ++ (data.drop total).take n }.sendLoop
                data (total + n) rest
      else some ((total, none), { conn with sends := outcome :: rest })

def send (conn : UnixSocketConnection) (data : List UInt8) :
    Option ((Nat × Option ErrorCode) × UnixSocketConnection) :=
  conn.sendLoop data 0 conn.sends

/-- The loop of `recv`, over the answers to its `::read` calls. -/
def recvLoop (conn : UnixSocketConnection) (len : Nat) :
    List ReadOutcome → Option ((List UInt8 × Option ErrorCode) × UnixSocketConnection)
  | [] => none
  | .failed errno :: rest =>
      if errno = .EINTR then conn.recvLoop len rest
      else some (([], some (.system errno)), { conn with connected := false, reads := rest })
  | .got bytes :: rest =>
      if bytes.take len = [] then
        -- n == 0: the peer closed the connection
        some (([], none),
          { conn with connected := false, reads := unread (bytes.drop len) rest })
      else some ((bytes.take len, none), { conn with reads := unread (bytes.drop len) rest })

def recv (conn : UnixSocketConnection) (len : Nat) :
    Option ((List UInt8 × Option ErrorCode) × UnixSocketConnection) :=
  conn.recvLoop len conn.reads

def close (conn : UnixSocketConnection) : UnixSocketConnection :=
  if conn.connected then
    { conn with connected := false, closed := conn.closed ++ [conn.fd], fd := -1 }
  else conn

/-- What a completed `send` has done: the bytes it reports as sent are the
bytes accepted, an error leaves some byte unsent and clears `connected`, and
nothing else of the connection changes. -/
structure Sent (conn : UnixSocketConnection) (data : List UInt8) (sent : Nat)
    (error : Option ErrorCode) (next : UnixSocketConnection) : Prop where
  sent_le : sent ≤ data.length
  wire_eq : next.wire = conn.wire ++ data.take sent
  short_of_error : error ≠ none → sent < data.length
  connected_eq : next.connected = (conn.connected && error.isNone)
  fd_eq : next.fd = conn.fd
  reads_eq : next.reads = conn.reads
  closed_eq : next.closed = conn.closed

theorem sendLoop_sent {conn next : UnixSocketConnection} {data : List UInt8} {total sent : Nat}
    {error : Option ErrorCode} {outcomes : List SendOutcome} (htotal : total ≤ data.length)
    (hrun : conn.sendLoop data total outcomes = some ((sent, error), next)) :
    total ≤ sent ∧ sent ≤ data.length ∧
      next.wire = conn.wire ++ (data.drop total).take (sent - total) ∧
      (error ≠ none → sent < data.length) ∧
      next.connected = (conn.connected && error.isNone) ∧
      next.fd = conn.fd ∧ next.reads = conn.reads ∧ next.closed = conn.closed := by
  induction outcomes generalizing conn total with
  | nil =>
      simp only [sendLoop] at hrun
      split at hrun
      · cases hrun
      · cases hrun
        simp [htotal]
  | cons outcome rest ih =>
      simp only [sendLoop] at hrun
      split at hrun
      next hmore =>
        cases outcome with
        | failed errno =>
            simp only at hrun
            split at hrun
            · exact ih htotal hrun
            · cases hrun
              simp [htotal, hmore]
        | accepted count =>
            simp only at hrun
            split at hrun
            · cases hrun
              simp [htotal]
            next hpos =>
              obtain ⟨hle, hsent, hwire, hshort, hflag, hfd, hreads, hclosed⟩ :=
                ih (by omega) hrun
              refine ⟨by omega, hsent, ?_, hshort, hflag, hfd, hreads, hclosed⟩
              rw [hwire, List.append_assoc, ← List.drop_drop]
              congr 1
              rw [← List.take_add]
              congr 1
              omega
      · cases hrun
        simp [htotal]

theorem send_sent {conn next : UnixSocketConnection} {data : List UInt8} {sent : Nat}
    {error : Option ErrorCode} (hrun : conn.send data = some ((sent, error), next)) :
    Sent conn data sent error next := by
  obtain ⟨-, hsent, hwire, hshort, hflag, hfd, hreads, hclosed⟩ :=
    sendLoop_sent (Nat.zero_le _) hrun
  exact ⟨hsent, by simpa using hwire, hshort, hflag, hfd, hreads, hclosed⟩

end UnixSocketConnection

end Ibridger.Cpp
