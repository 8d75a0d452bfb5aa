import Ibridger.Foundation.Runs
import Ibridger.Js.UnixSocket
import Mathlib.Algebra.Ring.Nat

/-! # The order in which `recv` calls are served

Each `recv` call owns a slice of the byte stream: the calls before it, pending
ones included, say where it starts. The waiters keep to their slices among
themselves, so the slices are respected as long as the immediate path of `recv`
serves nobody while others wait.
-/

namespace Ibridger.Js

open Transition

namespace UnixSocketConnection

/-- Where in the stream the slice of the call with this index starts. -/
def offset (recvs : List Recv) (recv : Nat) : Nat :=
  ((recvs.take recv).map Recv.need).sum

/-- Every `recv` that has returned has returned its own slice. -/
def Slices (conn : UnixSocketConnection) : Prop :=
  ∀ (i : Nat) (call : Recv) (bytes : List UInt8), conn.recvs[i]? = some call →
    call.outcome = .resolved bytes →
    bytes.length = call.need ∧
      bytes = (conn.received.drop (offset conn.recvs i)).take call.need

inductive RecvEvent where
  | data (chunk : List UInt8)
  | recv (length : Nat)
deriving DecidableEq, Repr

def recvStep (conn : UnixSocketConnection) : RecvEvent → Option UnixSocketConnection
  | .data chunk => some (conn.onData chunk)
  | .recv length => some (conn.recv length).2

/-- A `recv` does not take buffered bytes past a waiter. -/
def Fair (conn : UnixSocketConnection) : RecvEvent → Prop
  | .data _ => True
  | .recv length => length = 0 ∨ conn.waiters = [] ∨ conn.buffer.length < length

instance (conn : UnixSocketConnection) (event : RecvEvent) : Decidable (conn.Fair event) := by
  cases event
  · exact inferInstanceAs (Decidable True)
  · exact inferInstanceAs (Decidable (_ ∨ _ ∨ _))

/-! ## Offsets -/

theorem offset_of_needs {recvs others : List Recv}
    (hneeds : recvs.map Recv.need = others.map Recv.need) (i : Nat) :
    offset recvs i = offset others i := by
  simp only [offset, List.map_take, hneeds]

theorem needs_settle (recvs : List Recv) (recv : Nat) (outcome : Promise (List UInt8)) :
    (recvs.modify recv fun call => call.settle outcome).map Recv.need = recvs.map Recv.need := by
  apply List.ext_getElem?
  intro i
  rw [List.getElem?_map, List.getElem?_map, List.getElem?_modify]
  split
  · cases recvs[i]? <;> rfl
  · cases recvs[i]? <;> rfl

theorem offset_append {recvs : List Recv} {i : Nat} (hi : i ≤ recvs.length) (call : Recv) :
    offset (recvs ++ [call]) i = offset recvs i := by
  rw [offset, offset, List.take_append_of_le_length hi]

theorem offset_length_append (recvs : List Recv) (call : Recv) :
    offset (recvs ++ [call]) (recvs ++ [call]).length =
      offset recvs recvs.length + call.need := by
  rw [offset, offset, List.take_length, List.take_length, List.map_append, List.sum_append,
    List.map_singleton, List.sum_singleton]

/-! ## The queue -/

/-- The waiters are pending calls whose slices follow one another from
`position` to the end of what has been asked for. -/
def Queued (recvs : List Recv) : Nat → List Waiter → Prop
  | position, [] => position = offset recvs recvs.length
  | position, w :: rest =>
      recvs[w.recv]? = some ⟨w.need, .pending⟩ ∧ offset recvs w.recv = position ∧
        Queued recvs (position + w.need) rest

/-- The bytes up to `taken` have been handed out, and the waiters come next. -/
structure Serving (conn : UnixSocketConnection) (taken : Nat) (waiters : List Waiter) : Prop where
  slices : conn.Slices
  taken_le : taken ≤ conn.received.length
  buffer_eq : conn.buffer = conn.received.drop taken
  queued : Queued conn.recvs taken waiters
  distinct : (waiters.map Waiter.recv).Nodup

/-- Nobody has overtaken anybody, and nobody waits for bytes that are there. -/
structure InOrder (conn : UnixSocketConnection) : Prop where
  connected : conn.connected = true
  serving : ∃ taken, Serving conn taken conn.waiters
  starved : ∀ w ∈ conn.waiters.head?, conn.buffer.length < w.need

namespace Queued

variable {recvs : List Recv} {position : Nat} {waiters : List Waiter}

/-- Settling one call leaves the other waiters where they are. -/
theorem settle {recv : Nat} {outcome : Promise (List UInt8)} (hqueued : Queued recvs position waiters)
    (hother : recv ∉ waiters.map Waiter.recv) :
    Queued (recvs.modify recv fun call => call.settle outcome) position waiters := by
  have hoffset := offset_of_needs (needs_settle recvs recv outcome)
  induction waiters generalizing position with
  | nil =>
      rw [Queued, List.length_modify, hoffset]
      exact hqueued
  | cons w rest ih =>
      obtain ⟨hcall, hstart, hrest⟩ := hqueued
      rw [List.map_cons, List.mem_cons, not_or] at hother
      refine ⟨?_, ?_, ih hrest hother.2⟩
      · rw [List.getElem?_modify_ne _ _ hother.1]
        exact hcall
      · rw [hoffset]
        exact hstart

/-- A call of length zero or one that returns at once does not disturb the waiters. -/
theorem append {call : Recv} (hqueued : Queued recvs position waiters) (hneed : call.need = 0) :
    Queued (recvs ++ [call]) position waiters := by
  induction waiters generalizing position with
  | nil =>
      rw [Queued, offset_length_append, hneed]
      exact hqueued
  | cons w rest ih =>
      obtain ⟨hcall, hstart, hrest⟩ := hqueued
      have hindex : w.recv < recvs.length := (List.getElem?_eq_some_iff.mp hcall).1
      refine ⟨?_, ?_, ih hrest⟩
      · rw [List.getElem?_append_left hindex]
        exact hcall
      · rw [offset_append (Nat.le_of_lt hindex)]
        exact hstart

/-- A new waiter goes to the end of the queue. -/
theorem push (hqueued : Queued recvs position waiters) (need : Nat) :
    Queued (recvs ++ [⟨need, .pending⟩]) position (waiters ++ [⟨need, recvs.length⟩]) := by
  induction waiters generalizing position with
  | nil =>
      refine ⟨by simp, ?_, ?_⟩
      · rw [offset_append (Nat.le_refl _)]
        exact hqueued.symm
      · rw [Queued, offset_length_append, ← hqueued]
  | cons w rest ih =>
      obtain ⟨hcall, hstart, hrest⟩ := hqueued
      have hindex : w.recv < recvs.length := (List.getElem?_eq_some_iff.mp hcall).1
      refine ⟨?_, ?_, ih hrest⟩
      · rw [List.getElem?_append_left hindex]
        exact hcall
      · rw [offset_append (Nat.le_of_lt hindex)]
        exact hstart

/-- The waiters are calls that were made. -/
theorem recv_lt (hqueued : Queued recvs position waiters) :
    ∀ recv ∈ waiters.map Waiter.recv, recv < recvs.length := by
  induction waiters generalizing position with
  | nil => simp
  | cons w rest ih =>
      obtain ⟨hcall, -, hrest⟩ := hqueued
      intro recv hrecv
      rcases List.mem_cons.mp hrecv with rfl | htail
      · exact (List.getElem?_eq_some_iff.mp hcall).1
      · exact ih hrest recv htail

/-- What is asked for reaches at least to the end of the first waiter's slice. -/
theorem le_offset (hqueued : Queued recvs position waiters) :
    position + (waiters.map Waiter.need).sum = offset recvs recvs.length := by
  induction waiters generalizing position with
  | nil => simpa [Queued] using hqueued
  | cons w rest ih =>
      obtain ⟨-, -, hrest⟩ := hqueued
      rw [List.map_cons, List.sum_cons, ← Nat.add_assoc]
      exact ih hrest

end Queued

/-! ## What the steps keep -/

/-- A call that is settled with its own slice keeps all slices in place. -/
theorem Slices.settle {conn next : UnixSocketConnection} {w : Waiter} {bytes : List UInt8}
    (hslices : conn.Slices) (hcall : conn.recvs[w.recv]? = some ⟨w.need, .pending⟩)
    (hlength : bytes.length = w.need)
    (hbytes : bytes = (conn.received.drop (offset conn.recvs w.recv)).take w.need)
    (hnext : next = conn.settleRecv w.recv (.resolved bytes)) : next.Slices := by
  subst hnext
  intro i call served hi hserved
  have hoffset : offset (conn.settleRecv w.recv (.resolved bytes)).recvs i =
      offset conn.recvs i := offset_of_needs (needs_settle _ _ _) i
  rw [hoffset]
  simp only [settleRecv] at hi ⊢
  by_cases hsame : w.recv = i
  · subst hsame
    rw [List.getElem?_modify_eq, hcall] at hi
    cases hi
    cases hserved
    exact ⟨hlength, hbytes⟩
  · rw [List.getElem?_modify_ne _ _ hsame] at hi
    exact hslices i call served hi hserved

/-- Another call, whose slice starts where the calls so far end. -/
theorem Slices.push {conn next : UnixSocketConnection} (hslices : conn.Slices) (call : Recv)
    (hcall : ∀ bytes, call.outcome = .resolved bytes → bytes.length = call.need ∧
      bytes = (conn.received.drop (offset conn.recvs conn.recvs.length)).take call.need)
    (hreceived : next.received = conn.received) (hrecvs : next.recvs = conn.recvs ++ [call]) :
    next.Slices := by
  intro i other bytes hi hbytes
  rw [hreceived, hrecvs]
  rw [hrecvs] at hi
  rcases Nat.lt_trichotomy i conn.recvs.length with hlt | heq | hgt
  · rw [List.getElem?_append_left hlt] at hi
    rw [offset_append (Nat.le_of_lt hlt)]
    exact hslices i other bytes hi hbytes
  · subst heq
    rw [List.getElem?_concat_length] at hi
    cases hi
    rw [offset_append (Nat.le_refl _)]
    exact hcall bytes hbytes
  · rw [List.getElem?_eq_none (by rw [List.length_append, List.length_singleton]; omega)] at hi
    cases hi

/-- Serving the waiters in turn hands each its own slice. -/
theorem Serving.drain {conn : UnixSocketConnection} {taken : Nat} {waiters : List Waiter}
    (hserving : Serving conn taken waiters) :
    (∃ taken', Serving (conn.drain waiters) taken' (conn.drain waiters).waiters) ∧
      ∀ w ∈ (conn.drain waiters).waiters.head?, (conn.drain waiters).buffer.length < w.need := by
  induction waiters generalizing conn taken with
  | nil =>
      refine ⟨⟨taken, hserving.slices, hserving.taken_le, hserving.buffer_eq, hserving.queued,
        hserving.distinct⟩, ?_⟩
      intro w hw
      cases hw
  | cons w rest ih =>
      rw [UnixSocketConnection.drain]
      split
      next hshort =>
        refine ⟨⟨taken, hserving.slices, hserving.taken_le, hserving.buffer_eq, hserving.queued,
          hserving.distinct⟩, ?_⟩
        intro v hv
        cases hv
        exact hshort
      next henough =>
        obtain ⟨hcall, hstart, hqueued⟩ := hserving.queued
        obtain ⟨hfirst, hdistinct⟩ := List.nodup_cons.mp hserving.distinct
        have hbuffer : conn.buffer.length = conn.received.length - taken := by
          rw [hserving.buffer_eq, List.length_drop]
        have htaken := hserving.taken_le
        have hslice : (conn.splice w.need).1.length = w.need :=
          List.length_take_of_le (Nat.le_of_not_lt henough)
        refine @ih _ (taken + w.need) ⟨?_, ?_, ?_, hqueued.settle hfirst, hdistinct⟩
        · have hslices : (conn.splice w.need).2.Slices := hserving.slices
          refine hslices.settle hcall hslice ?_ rfl
          change conn.buffer.take w.need = (conn.received.drop (offset conn.recvs w.recv)).take w.need
          rw [hserving.buffer_eq, hstart]
        · change taken + w.need ≤ conn.received.length
          omega
        · change conn.buffer.drop w.need = conn.received.drop (taken + w.need)
          rw [hserving.buffer_eq, List.drop_drop]

theorem InOrder.onData {conn : UnixSocketConnection} (horder : conn.InOrder)
    (chunk : List UInt8) : (conn.onData chunk).InOrder := by
  obtain ⟨taken, hserving⟩ := horder.serving
  have hgrown : Serving
      { conn with buffer := conn.buffer ++ chunk, received := conn.received ++ chunk } taken
      conn.waiters := by
    refine ⟨?_, ?_, ?_, hserving.queued, hserving.distinct⟩
    · intro i call bytes hi hbytes
      obtain ⟨hlength, heq⟩ := hserving.slices i call bytes hi hbytes
      refine ⟨hlength, ?_⟩
      -- a slice that is complete stays what it is when more bytes come
      have hroom : call.need ≤ (conn.received.drop (offset conn.recvs i)).length := by
        rw [← hlength, heq, List.length_take]
        exact Nat.min_le_right _ _
      dsimp only
      by_cases hend : offset conn.recvs i ≤ conn.received.length
      · rw [List.drop_append_of_le_length hend, List.take_append_of_le_length hroom]
        exact heq
      · rw [List.drop_of_length_le (by omega)] at hroom
        have hzero : call.need = 0 := Nat.le_zero.mp hroom
        rw [hzero, List.take_zero] at heq ⊢
        exact heq
    · rw [List.length_append]
      exact Nat.le_trans hserving.taken_le (Nat.le_add_right _ _)
    · dsimp only
      rw [List.drop_append_of_le_length hserving.taken_le, hserving.buffer_eq]
  obtain ⟨hnext, hstarved⟩ := hgrown.drain
  refine ⟨?_, hnext, hstarved⟩
  rw [onData_eq]
  exact horder.connected

theorem InOrder.recv {conn : UnixSocketConnection} (horder : conn.InOrder) {length : Nat}
    (hfair : conn.Fair (.recv length)) : (conn.recv length).2.InOrder := by
  obtain ⟨taken, hserving⟩ := horder.serving
  have htaken := hserving.taken_le
  have hbuffer : conn.buffer.length = conn.received.length - taken := by
    rw [hserving.buffer_eq, List.length_drop]
  unfold UnixSocketConnection.recv
  split
  next henough =>
    by_cases hzero : length = 0
    · -- an empty slice fits anywhere
      subst hzero
      refine ⟨horder.connected, ⟨taken, ?_, htaken, hserving.buffer_eq,
        hserving.queued.append rfl, hserving.distinct⟩, horder.starved⟩
      refine hserving.slices.push ⟨0, .resolved []⟩ ?_ rfl rfl
      intro bytes hbytes
      cases hbytes
      exact ⟨rfl, rfl⟩
    · have hnone : conn.waiters = [] := by
        rcases hfair with hfair | hfair | hfair
        · exact absurd hfair hzero
        · exact hfair
        · omega
      have hend : taken = offset conn.recvs conn.recvs.length := by
        have hqueued := hserving.queued
        rw [hnone] at hqueued
        exact hqueued
      refine ⟨horder.connected, ⟨taken + length, ?_, ?_, ?_, ?_, hserving.distinct⟩, ?_⟩
      · refine hserving.slices.push ⟨length, .resolved (conn.splice length).1⟩ ?_ rfl rfl
        intro bytes hbytes
        cases hbytes
        refine ⟨List.length_take_of_le henough, ?_⟩
        rw [splice, hserving.buffer_eq, hend]
      · change taken + length ≤ conn.received.length
        omega
      · change conn.buffer.drop length = conn.received.drop (taken + length)
        rw [hserving.buffer_eq, List.drop_drop]
      · change Queued _ (taken + length) conn.waiters
        rw [hnone, Queued, offset_length_append, ← hend]
      · intro w hw
        change w ∈ conn.waiters.head? at hw
        rw [hnone] at hw
        cases hw
  next hshort =>
    rw [if_neg (by rw [horder.connected]; decide)]
    refine ⟨horder.connected, ⟨taken, ?_, htaken, hserving.buffer_eq,
      hserving.queued.push length, ?_⟩, ?_⟩
    · refine hserving.slices.push ⟨length, .pending⟩ ?_ rfl rfl
      intro bytes hbytes
      cases hbytes
    · rw [List.map_append, List.nodup_append]
      refine ⟨hserving.distinct, by simp, ?_⟩
      intro recv hrecv other hother heq
      rw [List.map_singleton, List.mem_singleton] at hother
      have hlt := hserving.queued.recv_lt recv hrecv
      subst heq hother
      exact Nat.lt_irrefl _ hlt
    · intro w hw
      dsimp only at hw ⊢
      cases hwaiters : conn.waiters with
      | nil =>
          rw [hwaiters] at hw
          cases hw
          exact Nat.lt_of_not_le hshort
      | cons v rest =>
          rw [hwaiters] at hw
          cases hw
          exact horder.starved _ (by rw [hwaiters]; rfl)

/-- A `recv` served past a waiter returns bytes that are not its own. -/
theorem InOrder.not_slices_recv {conn : UnixSocketConnection} (horder : conn.InOrder)
    {length : Nat} (hunfair : ¬ conn.Fair (.recv length)) : ¬ (conn.recv length).2.Slices := by
  obtain ⟨taken, hserving⟩ := horder.serving
  simp only [Fair, not_or, Nat.not_lt] at hunfair
  obtain ⟨hpos, hwaiters, henough⟩ := hunfair
  obtain ⟨w, rest, hqueue⟩ := List.exists_cons_of_ne_nil hwaiters
  have hstarved := horder.starved w (by rw [hqueue]; rfl)
  have hbuffer : conn.buffer.length = conn.received.length - taken := by
    rw [hserving.buffer_eq, List.length_drop]
  -- the slice of this call starts behind the waiter's, past the end of the stream
  have hbeyond : conn.received.length ≤ offset conn.recvs conn.recvs.length := by
    have hqueued := hserving.queued.le_offset
    rw [hqueue, List.map_cons, List.sum_cons] at hqueued
    omega
  intro hslices
  have hserved := hslices conn.recvs.length ⟨length, .resolved (conn.buffer.take length)⟩
    (conn.buffer.take length)
  unfold UnixSocketConnection.recv at hserved
  rw [if_pos henough] at hserved
  obtain ⟨hlength, hslice⟩ := hserved (by simp [splice]) rfl
  change _ = (conn.received.drop (offset (conn.recvs ++ _) conn.recvs.length)).take length at hslice
  rw [offset_append (Nat.le_refl _), List.drop_of_length_le hbeyond, List.take_nil] at hslice
  rw [hslice] at hlength
  exact hpos hlength.symm

theorem fromSocket_inOrder : fromSocket.InOrder := by
  refine ⟨rfl, ⟨0, ?_, Nat.le_refl _, rfl, rfl, List.nodup_nil⟩, ?_⟩
  · intro i call bytes hi
    cases hi
  · intro w hw
    cases hw

/-- The `recv` calls of a run are served in the order they were made exactly
when none of them asks for bytes that are buffered while an earlier one waits. -/
theorem slices_iff_fair (events : List RecvEvent) :
    Throughout (fun conn event => conn.recvStep event) Slices fromSocket events ↔
      Guarded (fun conn event => conn.recvStep event) Fair fromSocket events := by
  apply throughout_iff_guarded InOrder
  · rintro conn ⟨-, ⟨taken, hserving⟩, -⟩
    exact hserving.slices
  · intro conn event next horder hfair hnext
    cases event with
    | data chunk =>
        cases hnext
        exact horder.onData chunk
    | recv length =>
        cases hnext
        exact horder.recv hfair
  · intro conn event next horder hunfair hnext
    cases event with
    | data chunk => exact absurd trivial hunfair
    | recv length =>
        cases hnext
        exact horder.not_slices_recv hunfair
  · exact fromSocket_inOrder

/-- With a pending `recv(4)` and two bytes buffered, a later `recv(1)` returns
the first byte, and the earlier one the four after it. -/
theorem recv_overtakes_waiter :
    ∃ conn, run (fun conn event => conn.recvStep event) fromSocket
        [.recv 4, .data [1, 2], .recv 1, .data [3, 4, 5]] = some conn ∧
      conn.recvs.map Recv.outcome = [.resolved [2, 3, 4, 5], .resolved [1]] ∧
      ¬ conn.Slices := by
  refine ⟨_, rfl, rfl, ?_⟩
  intro hslices
  have hfirst := (hslices 0 ⟨4, .resolved [2, 3, 4, 5]⟩ [2, 3, 4, 5] rfl rfl).2
  exact absurd hfirst (by decide)

end UnixSocketConnection

end Ibridger.Js
