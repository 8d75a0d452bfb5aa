import Ibridger.Js.Framing

/-! # One reader on a JS framed connection

A reader that awaits each `recvFrame` before it calls the next has at most one
`recv` outstanding. `Awaits` and `Reading` say how such a call divides the bytes
that have come since its frame began: those it has taken, those its promise
carries already, and those in the buffer.
-/

namespace Ibridger.Js

open LengthPrefix Wire

/-! ## One outstanding `recv` -/

namespace UnixSocketConnection

/-- The `recv` of `need` bytes is the only one outstanding, and `front` are the
bytes that have come since it was called or were buffered then. -/
inductive Awaits (conn : UnixSocketConnection) (recv need : Nat) (front : List UInt8) : Prop where
  | pending (hcall : conn.recvs[recv]? = some ⟨need, .pending⟩)
      (hwaiters : conn.waiters = [⟨need, recv⟩]) (hconnected : conn.connected = true)
      (hshort : conn.buffer.length < need) (hfront : front = conn.buffer)
  | resolved (bytes : List UInt8) (hcall : conn.recvs[recv]? = some ⟨need, .resolved bytes⟩)
      (hwaiters : conn.waiters = []) (hlength : bytes.length = need)
      (hfront : front = bytes ++ conn.buffer)
  | closed (hcall : conn.recvs[recv]? = some ⟨need, .rejected closedError⟩)
      (hwaiters : conn.waiters = []) (hclosed : conn.connected = false)
      (hshort : conn.buffer.length < need) (hfront : front = conn.buffer)

/-- Calling `recv` when no other call waits. -/
theorem recv_awaits {conn : UnixSocketConnection} (hwaiters : conn.waiters = []) (need : Nat) :
    (conn.recv need).2.Awaits (conn.recv need).1 need conn.buffer := by
  unfold recv
  split
  next henough =>
    refine .resolved (conn.buffer.take need) ?_ hwaiters (List.length_take_of_le henough) ?_
    · exact List.getElem?_concat_length
    · exact (List.take_append_drop need conn.buffer).symm
  next hshort =>
    split
    next hclosed =>
      exact .closed List.getElem?_concat_length hwaiters hclosed (Nat.lt_of_not_le hshort) rfl
    next hopen =>
      refine .pending List.getElem?_concat_length ?_ ?_ (Nat.lt_of_not_le hshort) rfl
      · change conn.waiters ++ _ = _
        rw [hwaiters, List.nil_append]
      · exact Bool.eq_true_of_not_eq_false hopen

/-- Serving the only waiter. -/
theorem drain_awaits {conn : UnixSocketConnection} {recv need : Nat}
    (hcall : conn.recvs[recv]? = some ⟨need, .pending⟩) (hconnected : conn.connected = true) :
    (conn.drain [⟨need, recv⟩]).Awaits recv need conn.buffer := by
  simp only [drain]
  split
  next hstill => exact .pending hcall rfl hconnected hstill rfl
  next henough =>
    refine .resolved (conn.buffer.take need) ?_ rfl
      (List.length_take_of_le (Nat.le_of_not_lt henough)) ?_
    · simp only [settleRecv, splice, List.getElem?_modify_eq, hcall]
      rfl
    · exact (List.take_append_drop need _).symm

namespace Awaits

variable {conn : UnixSocketConnection} {recv need : Nat} {front : List UInt8}

theorem onData (hawaits : conn.Awaits recv need front) (hconnected : conn.connected = true)
    (chunk : List UInt8) : (conn.onData chunk).Awaits recv need (front ++ chunk) := by
  cases hawaits with
  | pending hcall hwaiters hconnected hshort hfront =>
      subst hfront
      unfold UnixSocketConnection.onData drainWaiters
      simp only [hwaiters]
      exact drain_awaits hcall hconnected
  | resolved bytes hcall hwaiters hlength hfront =>
      unfold UnixSocketConnection.onData drainWaiters
      simp only [hwaiters, drain]
      refine .resolved bytes hcall rfl hlength ?_
      rw [hfront, List.append_assoc]
  | closed hcall hwaiters hclosed hshort hfront =>
      rw [hconnected] at hclosed
      cases hclosed

theorem onClose (hawaits : conn.Awaits recv need front) : conn.onClose.Awaits recv need front := by
  unfold UnixSocketConnection.onClose rejectWaiters
  cases hawaits with
  | pending hcall hwaiters hconnected hshort hfront =>
      simp only [hwaiters, rejectEach]
      refine .closed ?_ rfl rfl hshort hfront
      simp only [settleRecv, List.getElem?_modify_eq, hcall]
      rfl
  | resolved bytes hcall hwaiters hlength hfront =>
      simp only [hwaiters, rejectEach]
      exact .resolved bytes hcall rfl hlength hfront
  | closed hcall hwaiters hclosed hshort hfront =>
      simp only [hwaiters, rejectEach]
      exact .closed hcall rfl rfl hshort hfront

/-- Only what is received matters. -/
theorem congr {next : UnixSocketConnection} (hawaits : conn.Awaits recv need front)
    (hrecvs : next.recvs = conn.recvs) (hwaiters : next.waiters = conn.waiters)
    (hconnected : next.connected = conn.connected) (hbuffer : next.buffer = conn.buffer) :
    next.Awaits recv need front := by
  cases hawaits with
  | pending hcall hwait hopen hshort hfront =>
      exact .pending (by rwa [hrecvs]) (by rwa [hwaiters]) (by rwa [hconnected])
        (by rwa [hbuffer]) (by rwa [hbuffer])
  | resolved bytes hcall hwait hlength hfront =>
      exact .resolved bytes (by rwa [hrecvs]) (by rwa [hwaiters]) hlength (by rwa [hbuffer])
  | closed hcall hwait hclosed hshort hfront =>
      exact .closed (by rwa [hrecvs]) (by rwa [hwaiters]) (by rwa [hconnected])
        (by rwa [hbuffer]) (by rwa [hbuffer])

theorem call (hawaits : conn.Awaits recv need front) :
    ∃ outcome, conn.recvs[recv]? = some ⟨need, outcome⟩ := by
  cases hawaits with
  | pending hcall => exact ⟨_, hcall⟩
  | resolved bytes hcall => exact ⟨_, hcall⟩
  | closed hcall => exact ⟨_, hcall⟩

/-- What the caller sees of the promise. -/
theorem outcome (hawaits : conn.Awaits recv need front) :
    (conn.recvOutcome recv = .pending ∧ conn.connected = true ∧ front.length < need) ∨
      (∃ bytes, conn.recvOutcome recv = .resolved bytes ∧ conn.waiters = [] ∧
        bytes.length = need ∧ front = bytes ++ conn.buffer) ∨
      (conn.recvOutcome recv = .rejected closedError ∧ conn.waiters = [] ∧
        conn.connected = false ∧ front.length < need) := by
  unfold recvOutcome
  cases hawaits with
  | pending hcall hwaiters hconnected hshort hfront =>
      rw [hcall, hfront]
      exact .inl ⟨rfl, hconnected, hshort⟩
  | resolved bytes hcall hwaiters hlength hfront =>
      rw [hcall]
      exact .inr (.inl ⟨bytes, rfl, hwaiters, hlength, hfront⟩)
  | closed hcall hwaiters hclosed hshort hfront =>
      rw [hcall, hfront]
      exact .inr (.inr ⟨rfl, hwaiters, hclosed, hshort⟩)

end Awaits

end UnixSocketConnection

/-! ## One outstanding `recvFrame` -/

open UnixSocketConnection

/-- The `recvFrame` call is the only one outstanding, and `front` are the bytes
from the beginning of its frame on. -/
inductive Reading (conn : UnixSocketConnection) (front : List UInt8) : FrameRead → Prop where
  | header (recv : Nat) (hawaits : conn.Awaits recv 4 front) : Reading conn front (.header recv)
  | body (recv : Nat) (head behind : List UInt8) (hwidth : head.length = 4)
      (hpositive : BigEndian.ofBytes head ≠ 0) (hlimit : BigEndian.ofBytes head ≤ MAX_FRAME_SIZE)
      (hawaits : conn.Awaits recv (BigEndian.ofBytes head) behind)
      (hfront : front = head ++ behind) : Reading conn front (.body recv)

/-- Why a `recvFrame` failed on the bytes from the beginning of its frame on. -/
inductive Refused (conn : UnixSocketConnection) (front : List UInt8) : TransportError → Prop where
  | oversized (hscan : frameHeader.scan front = .stuck .oversized)
      (hbuffer : conn.buffer = front.drop 4) :
      Refused conn front (incomingFrameTooLargeError (frameHeader.announced front))
  | closed (hscan : frameHeader.scan front = .stuck .truncated)
      (hclosed : conn.connected = false) : Refused conn front closedError

theorem readUInt32BE_eq {bytes : List UInt8} (hlength : bytes.length = 4) :
    readUInt32BE bytes = BigEndian.ofBytes bytes := by
  rw [readUInt32BE, List.take_of_length_le (Nat.le_of_eq hlength)]

theorem announced_append {head behind : List UInt8} (hwidth : head.length = 4) :
    frameHeader.announced (head ++ behind) = BigEndian.ofBytes head := by
  rw [frameHeader_announced, List.take_left' hwidth]

theorem scan_append_body {head payload rest : List UInt8} (hwidth : head.length = 4)
    (hlimit : BigEndian.ofBytes head ≤ MAX_FRAME_SIZE)
    (hlength : payload.length = BigEndian.ofBytes head) :
    frameHeader.scan (head ++ (payload ++ rest)) = .frame payload rest := by
  have hhead : head = BigEndian.toBytes 4 payload.length := by
    rw [hlength, ← hwidth, BigEndian.toBytes_ofBytes]
  rw [hhead, ← List.append_assoc, ← frameHeader_frame]
  exact frameHeader.scan_frame_append (by rw [hlength]; exact hlimit) rest

theorem scan_short {front : List UInt8} (hshort : front.length < 4) :
    frameHeader.scan front = .stuck .truncated := by
  rw [Header.scan, if_pos (by rw [frameHeader_width]; exact hshort)]

theorem scan_short_body {head behind : List UInt8} (hwidth : head.length = 4)
    (hlimit : BigEndian.ofBytes head ≤ MAX_FRAME_SIZE)
    (hshort : behind.length < BigEndian.ofBytes head) :
    frameHeader.scan (head ++ behind) = .stuck .truncated := by
  have hlength : (head ++ behind).length = 4 + behind.length := by
    rw [List.length_append, hwidth]
  rw [Header.scan, announced_append hwidth, frameHeader_width, frameHeader_limit,
    if_neg (by omega), if_neg (by omega), if_pos (by omega)]

namespace Reading

variable {conn : UnixSocketConnection} {front : List UInt8} {read : FrameRead}

theorem onData (hreading : Reading conn front read) (hconnected : conn.connected = true)
    (chunk : List UInt8) : Reading (conn.onData chunk) (front ++ chunk) read := by
  cases hreading with
  | header recv hawaits => exact .header recv (hawaits.onData hconnected chunk)
  | body recv head behind hwidth hpositive hlimit hawaits hfront =>
      refine .body recv head (behind ++ chunk) hwidth hpositive hlimit
        (hawaits.onData hconnected chunk) ?_
      rw [hfront, List.append_assoc]

/-- Only what is received matters. -/
theorem congr {next : UnixSocketConnection} (hreading : Reading conn front read)
    (hrecvs : next.recvs = conn.recvs) (hwaiters : next.waiters = conn.waiters)
    (hconnected : next.connected = conn.connected) (hbuffer : next.buffer = conn.buffer) :
    Reading next front read := by
  cases hreading with
  | header recv hawaits => exact .header recv (hawaits.congr hrecvs hwaiters hconnected hbuffer)
  | body recv head behind hwidth hpositive hlimit hawaits hfront =>
      exact .body recv head behind hwidth hpositive hlimit
        (hawaits.congr hrecvs hwaiters hconnected hbuffer) hfront

theorem onClose (hreading : Reading conn front read) : Reading conn.onClose front read := by
  cases hreading with
  | header recv hawaits => exact .header recv hawaits.onClose
  | body recv head behind hwidth hpositive hlimit hawaits hfront =>
      exact .body recv head behind hwidth hpositive hlimit hawaits.onClose hfront

/-- A call that cannot go on waits for bytes its frame still lacks. -/
theorem of_resume_eq_none (hreading : Reading conn front read) (hnone : read.resume conn = none) :
    conn.connected = true ∧ frameHeader.scan front = .stuck .truncated := by
  cases hreading with
  | header recv hawaits =>
      rcases hawaits.outcome with ⟨-, hconnected, hshort⟩ | ⟨bytes, hout, -⟩ | ⟨hout, -⟩
      · exact ⟨hconnected, scan_short hshort⟩
      · simp only [FrameRead.resume, hout] at hnone
        split at hnone
        · cases hnone
        · split at hnone <;> cases hnone
      · simp only [FrameRead.resume, hout] at hnone
        cases hnone
  | body recv head behind hwidth hpositive hlimit hawaits hfront =>
      subst hfront
      rcases hawaits.outcome with ⟨-, hconnected, hshort⟩ | ⟨bytes, hout, -⟩ | ⟨hout, -⟩
      · exact ⟨hconnected, scan_short_body hwidth hlimit hshort⟩
      · simp only [FrameRead.resume, hout] at hnone
        cases hnone
      · simp only [FrameRead.resume, hout] at hnone
        cases hnone

end Reading

/-- How a `recvFrame` stands after it has gone on: it reads its body, it has
returned the frame in front, or it has failed for a reason. -/
inductive Resumed (conn : UnixSocketConnection) (front : List UInt8) : FrameRead → Prop where
  | reading (recv : Nat) (hreading : Reading conn front (.body recv)) :
      Resumed conn front (.body recv)
  | frame (payload : List UInt8) (hwaiters : conn.waiters = [])
      (hscan : frameHeader.scan front = .frame payload conn.buffer) :
      Resumed conn front (.settled (.ok payload))
  | refused (error : TransportError) (hwaiters : conn.waiters = [])
      (hrefused : Refused conn front error) : Resumed conn front (.settled (.error error))

theorem Reading.resume {conn next : UnixSocketConnection} {front : List UInt8}
    {read read' : FrameRead} (hreading : Reading conn front read)
    (hresume : read.resume conn = some (read', next)) :
    Resumed next front read' ∧
      next = { conn with
        buffer := next.buffer, waiters := next.waiters, recvs := next.recvs } := by
  cases hreading with
  | header recv hawaits =>
      rcases hawaits.outcome with ⟨hout, -, -⟩ | ⟨head, hout, hwaiters, hwidth, hfront⟩ |
        ⟨hout, hwaiters, hclosed, hshort⟩
      · simp only [FrameRead.resume, hout] at hresume
        cases hresume
      · have hannounced : frameHeader.announced front = BigEndian.ofBytes head := by
          rw [hfront, announced_append hwidth]
        simp only [FrameRead.resume, hout, readUInt32BE_eq hwidth] at hresume
        split at hresume
        next hlimit =>
          cases hresume
          refine ⟨?_, rfl⟩
          rw [← hannounced]
          refine .refused _ hwaiters (.oversized ?_ ?_)
          · rw [Header.scan, hannounced, frameHeader_width, frameHeader_limit,
              if_neg (by rw [hfront, List.length_append]; omega), if_pos hlimit]
          · rw [hfront, List.drop_left' hwidth]
        next hlimit =>
          have hfits := Nat.le_of_not_lt hlimit
          split at hresume
          next hzero =>
            cases hresume
            refine ⟨.frame [] hwaiters ?_, rfl⟩
            rw [hfront]
            exact @scan_append_body head [] _ hwidth hfits hzero.symm
          next hpositive =>
            cases hresume
            exact ⟨.reading _ (.body _ head conn.buffer hwidth hpositive hfits
              (recv_awaits hwaiters _) hfront), recv_eq _ _⟩
      · simp only [FrameRead.resume, hout] at hresume
        cases hresume
        exact ⟨.refused _ hwaiters (.closed (scan_short hshort) hclosed), rfl⟩
  | body recv head behind hwidth hpositive hlimit hawaits hfront =>
      subst hfront
      rcases hawaits.outcome with ⟨hout, -, -⟩ | ⟨payload, hout, hwaiters, hlength, hbehind⟩ |
        ⟨hout, hwaiters, hclosed, hshort⟩
      · simp only [FrameRead.resume, hout] at hresume
        cases hresume
      · simp only [FrameRead.resume, hout] at hresume
        cases hresume
        refine ⟨.frame payload hwaiters ?_, rfl⟩
        rw [hbehind]
        exact scan_append_body hwidth hlimit hlength
      · simp only [FrameRead.resume, hout] at hresume
        cases hresume
        exact ⟨.refused _ hwaiters (.closed (scan_short_body hwidth hlimit hshort) hclosed), rfl⟩

/-- How many turns a `recvFrame` may still take. -/
def FrameRead.turns : FrameRead → Nat
  | .header _ => 2
  | .body _ => 1
  | .settled _ => 0

theorem FrameRead.turns_of_resume {conn next : UnixSocketConnection} {read read' : FrameRead}
    (hresume : read.resume conn = some (read', next)) : read'.turns < read.turns := by
  cases FrameRead.resume_cases hresume with
  | refuses | empty | reads | returns => simp [turns]
  | fails recv _ error hread _ => rcases hread with rfl | rfl <;> simp [turns]

theorem recvFrame_reading {conn : UnixSocketConnection} (hwaiters : conn.waiters = []) :
    Reading (recvFrame conn).2 conn.buffer (recvFrame conn).1 :=
  .header _ (recv_awaits hwaiters 4)

end Ibridger.Js
