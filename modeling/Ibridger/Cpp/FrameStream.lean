import Ibridger.Cpp.Framing

/-! # Frames on a C++ byte stream

What `send_frame` puts on the wire when the kernel accepts all bytes, and what
`recv_frame` returns when the input arrives in any pieces, interrupted any
number of times. The reader follows `LengthPrefix.Header.scan` of the input.
-/

namespace Ibridger.Cpp

open Wire LengthPrefix

/-! ## Sending -/

/-- The kernel accepts what it is offered: every `::send` is interrupted or
accepts some bytes. -/
def Accepting (outcomes : List SendOutcome) : Prop :=
  ∀ outcome ∈ outcomes, outcome = .failed .EINTR ∨ ∃ count, 0 < count ∧ outcome = .accepted count

/-- The number of `::send` calls that accept bytes. -/
def acceptances (outcomes : List SendOutcome) : Nat :=
  outcomes.countP fun outcome => outcome matches .accepted _

namespace UnixSocketConnection

theorem sendLoop_accepting {conn : UnixSocketConnection} {data : List UInt8} {total : Nat}
    {outcomes : List SendOutcome} (haccept : Accepting outcomes)
    (henough : data.length - total ≤ acceptances outcomes) (htotal : total ≤ data.length) :
    ∃ rest, conn.sendLoop data total outcomes = some ((data.length, none),
        { conn with wire := conn.wire ++ data.drop total, sends := rest }) ∧
      Accepting rest ∧ acceptances outcomes ≤ acceptances rest + (data.length - total) := by
  induction outcomes generalizing conn total with
  | nil =>
      have hend : total = data.length := by
        simp only [acceptances, List.countP_nil] at henough
        omega
      subst hend
      exact ⟨[], by simp [sendLoop], haccept, by simp [acceptances]⟩
  | cons outcome rest ih =>
      have hrest : Accepting rest := fun other hmem => haccept other (List.mem_cons_of_mem _ hmem)
      by_cases hmore : total < data.length
      · rcases haccept outcome List.mem_cons_self with rfl | ⟨count, hcount, rfl⟩
        · obtain ⟨left, hrun, hleft, hcap⟩ := ih hrest (by simpa [acceptances] using henough) htotal
          refine ⟨left, ?_, hleft, by simpa [acceptances] using hcap⟩
          rw [sendLoop, if_pos hmore]
          exact hrun
        · have hcap : acceptances (.accepted count :: rest) = acceptances rest + 1 := by
            simp [acceptances]
          rw [hcap] at henough ⊢
          obtain ⟨left, hrun, hleft, hleftcap⟩ :=
            @ih { conn with
                wire := conn.wire ++ (data.drop total).take (min count (data.length - total)) }
              (total + min count (data.length - total)) hrest (by omega) (by omega)
          refine ⟨left, ?_, hleft, by omega⟩
          rw [sendLoop, if_pos hmore]
          simp only
          rw [if_neg (by omega), hrun]
          simp only [List.append_assoc]
          rw [← List.drop_drop, List.take_append_drop]
      · have hend : total = data.length := by omega
        subst hend
        exact ⟨outcome :: rest, by simp [sendLoop], haccept, by omega⟩

theorem send_accepting (conn : UnixSocketConnection) (data : List UInt8)
    (haccept : Accepting conn.sends) (henough : data.length ≤ acceptances conn.sends) :
    ∃ rest, conn.send data = some ((data.length, none),
        { conn with wire := conn.wire ++ data, sends := rest }) ∧
      Accepting rest ∧ acceptances conn.sends ≤ acceptances rest + data.length :=
  sendLoop_accepting haccept henough (Nat.zero_le _)

/-- A `send` that returns while the kernel accepts what it is offered has sent all. -/
theorem sendLoop_of_accepting {conn next : UnixSocketConnection} {data : List UInt8} {total : Nat}
    {result : Nat × Option ErrorCode} {outcomes : List SendOutcome} (haccept : Accepting outcomes)
    (htotal : total ≤ data.length)
    (hrun : conn.sendLoop data total outcomes = some (result, next)) :
    ∃ rest, result = (data.length, none) ∧ Accepting rest ∧
      next = { conn with wire := conn.wire ++ data.drop total, sends := rest } := by
  induction outcomes generalizing conn total with
  | nil =>
      simp only [sendLoop] at hrun
      split at hrun
      · cases hrun
      next hend =>
        cases hrun
        have hall : total = data.length := by omega
        exact ⟨[], by rw [hall], haccept, by rw [hall, List.drop_length, List.append_nil]⟩
  | cons outcome rest ih =>
      have hrest : Accepting rest := fun other hmem => haccept other (List.mem_cons_of_mem _ hmem)
      simp only [sendLoop] at hrun
      split at hrun
      next hmore =>
        rcases haccept outcome List.mem_cons_self with rfl | ⟨count, hcount, rfl⟩
        · exact ih hrest htotal hrun
        · simp only at hrun
          rw [if_neg (by omega)] at hrun
          obtain ⟨left, hresult, hleft, hnext⟩ := ih hrest (by omega) hrun
          refine ⟨left, hresult, hleft, ?_⟩
          rw [hnext]
          simp only [List.append_assoc]
          rw [← List.drop_drop, List.take_append_drop]
      next hend =>
        cases hrun
        have hall : total = data.length := by omega
        exact ⟨outcome :: rest, by rw [hall], haccept,
          by rw [hall, List.drop_length, List.append_nil]⟩

end UnixSocketConnection

namespace FramedConnection

/-- Send the payloads one after another, up to the first error. -/
def sendFrames {Conn : Type} [IConnection Conn] (conn : Conn) :
    List (List UInt8) → Option (Option ErrorCode × Conn)
  | [] => some (none, conn)
  | payload :: rest =>
      match sendFrame conn payload with
      | none => none
      | some (some err, conn) => some (some err, conn)
      | some (none, conn) => sendFrames conn rest

/-- A frame that fits is written as header and payload. -/
theorem sendFrame_accepting {conn : UnixSocketConnection} {payload : List UInt8}
    (hfits : payload.length ≤ MAX_FRAME_SIZE) (haccept : Accepting conn.sends)
    (henough : (frameHeader.frame payload).length ≤ acceptances conn.sends) :
    ∃ rest, sendFrame conn payload = some (none,
        { conn with wire := conn.wire ++ frameHeader.frame payload, sends := rest }) ∧
      Accepting rest ∧
        acceptances conn.sends ≤ acceptances rest + (frameHeader.frame payload).length := by
  have hheader : encodeHeader payload.length = BigEndian.toBytes 4 payload.length :=
    encodeHeader_eq (Nat.lt_of_le_of_lt hfits (by decide))
  rw [Header.length_frame, frameHeader_width] at henough ⊢
  obtain ⟨rest, hsend, hrest, hcap⟩ :=
    conn.send_accepting (encodeHeader payload.length) haccept
      (by rw [hheader, BigEndian.length_toBytes]; omega)
  rw [hheader, BigEndian.length_toBytes] at hsend hcap
  have hsize : ¬ MAX_FRAME_SIZE < payload.length := Nat.not_lt.mpr hfits
  by_cases hempty : payload = []
  · subst hempty
    refine ⟨rest, ?_, hrest, by simpa using hcap⟩
    rw [sendFrame, if_neg hsize, hheader]
    simp only [IConnection.send, hsend]
    rfl
  · obtain ⟨left, hbody, hleft, hleftcap⟩ :=
      UnixSocketConnection.send_accepting
        { conn with wire := conn.wire ++ BigEndian.toBytes 4 payload.length, sends := rest }
        payload hrest (by simp only; omega)
    refine ⟨left, ?_, hleft, by simp only at hleftcap; omega⟩
    rw [sendFrame, if_neg hsize, hheader]
    simp only [IConnection.send, hsend, hbody]
    rw [if_neg hempty, frameHeader_frame, List.append_assoc]

/-- A `send_frame` that returns while the kernel accepts what it is offered has
written its frame. -/
theorem sendFrame_of_accepting {conn next : UnixSocketConnection} {payload : List UInt8}
    {error : Option ErrorCode} (hfits : payload.length ≤ MAX_FRAME_SIZE)
    (haccept : Accepting conn.sends) (hrun : sendFrame conn payload = some (error, next)) :
    ∃ rest, error = none ∧ Accepting rest ∧
      next = { conn with wire := conn.wire ++ frameHeader.frame payload, sends := rest } := by
  have hheader : encodeHeader payload.length = BigEndian.toBytes 4 payload.length :=
    encodeHeader_eq (Nat.lt_of_le_of_lt hfits (by decide))
  cases sendFrame_eq_some.mp hrun with
  | oversized hlarge => exact absurd hfits (Nat.not_le_of_lt hlarge)
  | header sent err _ _ hsend =>
      obtain ⟨rest, hnone, -⟩ :=
        UnixSocketConnection.sendLoop_of_accepting haccept (Nat.zero_le _) hsend
      cases hnone
  | empty sent _ _ hempty hsend =>
      obtain ⟨rest, -, hrest, rfl⟩ :=
        UnixSocketConnection.sendLoop_of_accepting haccept (Nat.zero_le _) hsend
      refine ⟨rest, rfl, hrest, ?_⟩
      rw [frameHeader_frame, List.drop_zero, hheader, hempty, List.append_nil]
  | body sent count middle _ _ _ hdata hsend hbody =>
      obtain ⟨rest, -, hrest, rfl⟩ :=
        UnixSocketConnection.sendLoop_of_accepting haccept (Nat.zero_le _) hsend
      obtain ⟨left, hnone, hleft, rfl⟩ :=
        UnixSocketConnection.sendLoop_of_accepting hrest (Nat.zero_le _) hbody
      cases hnone
      refine ⟨left, rfl, hleft, ?_⟩
      rw [frameHeader_frame, List.drop_zero, List.drop_zero, hheader, List.append_assoc]

/-- Payloads sent one after another become the stream of their frames. -/
theorem sendFrames_accepting {conn : UnixSocketConnection} {payloads : List (List UInt8)}
    (hfits : frameHeader.Fits payloads) (haccept : Accepting conn.sends)
    (henough : (frameHeader.stream payloads).length ≤ acceptances conn.sends) :
    ∃ rest, sendFrames conn payloads = some (none,
        { conn with wire := conn.wire ++ frameHeader.stream payloads, sends := rest }) := by
  induction payloads generalizing conn with
  | nil => exact ⟨conn.sends, by simp [sendFrames]⟩
  | cons payload payloads ih =>
      obtain ⟨hhead, htail⟩ := frameHeader.fits_cons.mp hfits
      rw [Header.stream_cons, List.length_append] at henough
      obtain ⟨rest, hsend, hrest, hcap⟩ := sendFrame_accepting hhead haccept (by omega)
      obtain ⟨left, hleft⟩ := @ih
        { conn with wire := conn.wire ++ frameHeader.frame payload, sends := rest } htail hrest
        (by simp only; omega)
      refine ⟨left, ?_⟩
      rw [sendFrames, hsend]
      simp only [hleft, Header.stream_cons, List.append_assoc]

end FramedConnection

/-! ## Receiving -/

/-- The reads hold the bytes in some segmentation, with interruptions, and
then what is behind them. -/
inductive Delivers (behind : List ReadOutcome) : List ReadOutcome → List UInt8 → Prop where
  | nil : Delivers behind behind []
  | interrupted {reads bytes} (hrest : Delivers behind reads bytes) :
      Delivers behind (.failed .EINTR :: reads) bytes
  | segment {reads bytes} (piece : List UInt8) (hpiece : piece ≠ [])
      (hrest : Delivers behind reads bytes) : Delivers behind (.got piece :: reads) (piece ++ bytes)

namespace Delivers

variable {behind reads : List ReadOutcome} {bytes : List UInt8}

/-- Bytes that a read leaves are delivered by the next ones. -/
theorem unread {piece : List UInt8} (hrest : Delivers behind reads bytes) :
    Delivers behind (Cpp.unread piece reads) (piece ++ bytes) := by
  unfold Cpp.unread
  split
  next hempty =>
    rw [hempty]
    exact hrest
  next hpiece => exact .segment piece hpiece hrest

/-- What comes later is delivered behind what has come. -/
theorem append {more : List ReadOutcome} {later : List UInt8} (hfirst : Delivers [] reads bytes)
    (hsecond : Delivers behind more later) : Delivers behind (reads ++ more) (bytes ++ later) := by
  induction hfirst with
  | nil => exact hsecond
  | interrupted hrest ih => exact .interrupted ih
  | segment piece hpiece hrest ih =>
      rw [List.append_assoc]
      exact .segment piece hpiece ih

end Delivers

/-- Reads that find bytes or are interrupted. -/
def Flowing (reads : List ReadOutcome) : Prop :=
  ∀ read ∈ reads, read = .failed .EINTR ∨ ∃ piece, piece ≠ [] ∧ read = .got piece

/-- The bytes that reads find. -/
def bytesOf (reads : List ReadOutcome) : List UInt8 :=
  reads.flatMap fun
    | .got bytes => bytes
    | .failed _ => []

theorem Flowing.delivers {reads : List ReadOutcome} (hflowing : Flowing reads) :
    Delivers [] reads (bytesOf reads) := by
  induction reads with
  | nil => exact .nil
  | cons read reads ih =>
      have hrest := ih fun other hother => hflowing other (List.mem_cons_of_mem _ hother)
      rcases hflowing read List.mem_cons_self with rfl | ⟨piece, hpiece, rfl⟩
      · exact .interrupted hrest
      · exact .segment piece hpiece hrest

namespace UnixSocketConnection

variable {behind reads : List ReadOutcome} {bytes : List UInt8}

/-- A `recv` returns some of the bytes that come next. -/
theorem recvLoop_delivers (conn : UnixSocketConnection) {len : Nat} (hlen : 0 < len)
    (hdelivers : Delivers behind reads bytes) (hbytes : bytes ≠ []) :
    ∃ count left, 0 < count ∧ count ≤ len ∧ count ≤ bytes.length ∧
      conn.recvLoop len reads = some ((bytes.take count, none), { conn with reads := left }) ∧
      Delivers behind left (bytes.drop count) := by
  induction hdelivers with
  | nil => exact absurd rfl hbytes
  | interrupted hrest ih =>
      obtain ⟨count, left, hpos, hle, hcount, hrun, hleft⟩ := ih hbytes
      exact ⟨count, left, hpos, hle, hcount, by rw [recvLoop, if_pos rfl, hrun], hleft⟩
  | segment piece hpiece hrest ih =>
      next rest behindPiece =>
      have hpos : 0 < piece.length := List.length_pos_of_ne_nil hpiece
      have htake : (piece ++ behindPiece).take (min len piece.length) = piece.take len := by
        rw [List.take_append_of_le_length (Nat.min_le_right _ _), List.take_eq_take_iff]
        omega
      have hdrop : (piece ++ behindPiece).drop (min len piece.length) =
          piece.drop len ++ behindPiece := by
        rw [List.drop_append_of_le_length (Nat.min_le_right _ _)]
        congr 1
        rcases Nat.le_total len piece.length with hle | hle
        · rw [Nat.min_eq_left hle]
        · rw [Nat.min_eq_right hle, List.drop_length, List.drop_of_length_le hle]
      have hsome : piece.take len ≠ [] := by
        rw [Ne, List.take_eq_nil_iff, not_or]
        exact ⟨by omega, hpiece⟩
      refine ⟨min len piece.length, unread (piece.drop len) rest, by omega,
        Nat.min_le_left _ _, by rw [List.length_append]; omega, ?_, ?_⟩
      · rw [recvLoop, if_neg hsome, htake]
      · rw [hdrop]
        exact hrest.unread

/-- When the bytes are used up, a `recv` meets what is behind them. -/
theorem recvLoop_behind (conn : UnixSocketConnection) {len : Nat}
    (hdelivers : Delivers behind reads bytes) (hbytes : bytes = []) :
    conn.recvLoop len reads = conn.recvLoop len behind := by
  induction hdelivers with
  | nil => rfl
  | interrupted hrest ih => rw [recvLoop, if_pos rfl, ih hbytes]
  | segment piece hpiece hrest ih =>
      exact absurd (List.append_eq_nil_iff.mp hbytes).1 hpiece

/-- At the end of the stream a `recv` returns no bytes. -/
theorem recvLoop_end (conn : UnixSocketConnection) (len : Nat) (tail : List ReadOutcome) :
    conn.recvLoop len (.got [] :: tail) =
      some (([], none), { conn with connected := false, reads := tail }) := by
  rw [recvLoop, if_pos (List.take_nil), List.drop_nil, unread_nil]

end UnixSocketConnection

namespace FramedConnection

variable {behind : List ReadOutcome} {bytes : List UInt8}

theorem readExact_delivers (conn : UnixSocketConnection) {n : Nat}
    (hdelivers : Delivers behind conn.reads bytes) (hn : n ≤ bytes.length) :
    ∃ left, readExact conn n = some (.ok (bytes.take n), { conn with reads := left }) ∧
      Delivers behind left (bytes.drop n) := by
  induction n using Nat.strongRecOn generalizing conn bytes with
  | ind n ih =>
      rw [readExact]
      split
      next hzero =>
        subst hzero
        exact ⟨conn.reads, by simp, by simpa using hdelivers⟩
      next hpos =>
        have hbytes : bytes ≠ [] := by
          rintro rfl
          simp at hn
          omega
        obtain ⟨count, left, hcount, hle, hlength, hrecv, hleft⟩ :=
          conn.recvLoop_delivers (Nat.pos_of_ne_zero hpos) hdelivers hbytes
        have hsome : bytes.take count ≠ [] := by
          rw [Ne, List.take_eq_nil_iff, not_or]
          exact ⟨by omega, hbytes⟩
        have hreceived : (bytes.take count).length = count := List.length_take_of_le hlength
        obtain ⟨last, hrest, hlast⟩ := ih (n - count) (by omega) { conn with reads := left } hleft
          (by rw [List.length_drop]; omega)
        refine ⟨last, ?_, ?_⟩
        · simp only [IConnection.recv, UnixSocketConnection.recv, hrecv, hreceived, hrest]
          rw [dif_neg hsome, ← List.take_add]
          congr 4
          omega
        · rw [List.drop_drop] at hlast
          convert hlast using 2
          omega

/-- Reading more than there is ends as reading behind it does: it blocks or fails. -/
theorem readExact_past (conn : UnixSocketConnection) {n : Nat}
    {stop : Option (Except ErrorCode (List UInt8) × UnixSocketConnection)}
    (hstop : stop = none ∨ ∃ err next, stop = some (.error err, next))
    (hbehind : ∀ n reads, 0 < n → Delivers behind reads [] →
      readExact { conn with reads := reads } n = stop)
    (hdelivers : Delivers behind conn.reads bytes) (hn : bytes.length < n) :
    readExact conn n = stop := by
  induction n using Nat.strongRecOn generalizing conn bytes with
  | ind n ih =>
      have hpos : 0 < n := by omega
      by_cases hbytes : bytes = []
      · subst hbytes
        exact hbehind n conn.reads hpos hdelivers
      · obtain ⟨count, left, hcount, hle, hlength, hrecv, hleft⟩ :=
          conn.recvLoop_delivers hpos hdelivers hbytes
        have hsome : bytes.take count ≠ [] := by
          rw [Ne, List.take_eq_nil_iff, not_or]
          exact ⟨by omega, hbytes⟩
        have hreceived : (bytes.take count).length = count := List.length_take_of_le hlength
        have hrest := ih (n - count) (by omega) { conn with reads := left } hbehind hleft
          (by rw [List.length_drop]; omega)
        rw [readExact, if_neg (by omega)]
        simp only [IConnection.recv, UnixSocketConnection.recv, hrecv, hreceived, hrest]
        rw [dif_neg hsome]
        rcases hstop with rfl | ⟨err, next, rfl⟩
        · rfl
        · rfl

/-- Reading past the end of the stream is a reset. -/
theorem readExact_end (conn : UnixSocketConnection) {n : Nat} {tail : List ReadOutcome}
    (hdelivers : Delivers (.got [] :: tail) conn.reads bytes) (hn : bytes.length < n) :
    readExact conn n = some (.error .connectionReset,
      { conn with connected := false, reads := tail }) := by
  refine readExact_past conn (.inr ⟨_, _, rfl⟩) ?_ hdelivers hn
  intro n reads hpos hend
  rw [readExact, if_neg (by omega)]
  simp only [IConnection.recv, UnixSocketConnection.recv,
    UnixSocketConnection.recvLoop_behind _ hend rfl, UnixSocketConnection.recvLoop_end]
  rfl

/-- Reading what has not come yet blocks. -/
theorem readExact_blocks (conn : UnixSocketConnection) {n : Nat}
    (hdelivers : Delivers [] conn.reads bytes) (hn : bytes.length < n) :
    readExact conn n = none := by
  refine readExact_past conn (.inl rfl) ?_ hdelivers hn
  intro n reads hpos hend
  rw [readExact, if_neg (by omega)]
  simp only [IConnection.recv, UnixSocketConnection.recv,
    UnixSocketConnection.recvLoop_behind _ hend rfl]
  rfl

/-- `recv_frame` returns the frame at the front of the input. -/
theorem recvFrame_of_frame (conn : UnixSocketConnection) {payload rest : List UInt8}
    (hdelivers : Delivers behind conn.reads bytes)
    (hscan : frameHeader.scan bytes = .frame payload rest) :
    ∃ left, recvFrame conn = some (.ok payload, { conn with reads := left }) ∧
      Delivers behind left rest := by
  obtain ⟨hbytes, hfits⟩ := frameHeader.eq_of_scan_frame hscan
  rw [frameHeader_limit] at hfits
  rw [frameHeader_frame, List.append_assoc] at hbytes
  have hheader : bytes.take 4 = BigEndian.toBytes 4 payload.length := by
    rw [hbytes, List.take_left' (BigEndian.length_toBytes 4 _)]
  have hbody : bytes.drop 4 = payload ++ rest := by
    rw [hbytes, List.drop_left' (BigEndian.length_toBytes 4 _)]
  have hlength : 4 ≤ bytes.length := by
    rw [hbytes, List.length_append, BigEndian.length_toBytes]
    omega
  obtain ⟨left, hread, hleft⟩ := readExact_delivers conn hdelivers hlength
  rw [hbody] at hleft
  have hdecode : (decodeHeader (bytes.take 4)).toNat = payload.length := by
    rw [hheader, decodeHeader_toNat (BigEndian.length_toBytes 4 _)]
    exact frameHeader.decode_encode _ hfits
  have hzero : decodeHeader (bytes.take 4) = 0 ↔ payload = [] := by
    rw [← UInt32.toNat_inj, hdecode, UInt32.toNat_zero, List.length_eq_zero_iff]
  simp only [recvFrame, hread, hdecode]
  rw [if_neg (Nat.not_lt.mpr hfits)]
  by_cases hempty : payload = []
  · rw [if_pos (hzero.mpr hempty), hempty]
    rw [hempty] at hleft
    exact ⟨left, rfl, hleft⟩
  · rw [if_neg (mt hzero.mp hempty)]
    have hroom : payload.length ≤ (payload ++ rest).length := by
      rw [List.length_append]
      exact Nat.le_add_right _ _
    obtain ⟨last, hpayload, hlast⟩ :=
      readExact_delivers { conn with reads := left } hleft hroom
    rw [List.take_left' rfl] at hpayload
    rw [List.drop_left' rfl] at hlast
    exact ⟨last, hpayload, hlast⟩

/-- An oversized header is refused with the body still unread. -/
theorem recvFrame_of_oversized (conn : UnixSocketConnection)
    (hdelivers : Delivers behind conn.reads bytes)
    (hscan : frameHeader.scan bytes = .stuck .oversized) :
    ∃ left, recvFrame conn = some (.error (.ibridger .frameTooLarge), { conn with reads := left }) ∧
      Delivers behind left (bytes.drop 4) := by
  obtain ⟨hlength, hlimit⟩ := frameHeader.of_scan_oversized hscan
  rw [frameHeader_width] at hlength
  rw [frameHeader_limit, frameHeader_announced] at hlimit
  obtain ⟨left, hread, hleft⟩ := readExact_delivers conn hdelivers hlength
  have hwidth : (bytes.take 4).length = 4 := List.length_take_of_le hlength
  refine ⟨left, ?_, hleft⟩
  simp only [recvFrame, hread, decodeHeader_toNat hwidth]
  rw [if_pos hlimit]

/-- An input that lacks a part of its next frame makes `recv_frame` do what its
reads do behind the input. -/
theorem recvFrame_past (conn : UnixSocketConnection)
    {stop : Option (Except ErrorCode (List UInt8) × UnixSocketConnection)}
    (hstop : stop = none ∨ ∃ err next, stop = some (.error err, next))
    (hpast : ∀ n reads bytes, Delivers behind reads bytes → bytes.length < n →
      readExact { conn with reads := reads } n = stop)
    (hdelivers : Delivers behind conn.reads bytes)
    (hscan : frameHeader.scan bytes = .stuck .truncated) : recvFrame conn = stop := by
  have hcases := frameHeader.of_scan_truncated hscan
  rw [frameHeader_width, frameHeader_limit] at hcases
  rcases hcases with hshort | ⟨hwidth, hfits, hbody⟩
  · have hread : readExact conn 4 = stop := hpast 4 conn.reads bytes hdelivers hshort
    rw [recvFrame, hread]
    rcases hstop with rfl | ⟨err, next, rfl⟩
    · rfl
    · rfl
  · obtain ⟨left, hread, hleft⟩ := readExact_delivers conn hdelivers hwidth
    have hdecode : (decodeHeader (bytes.take 4)).toNat = frameHeader.announced bytes := by
      rw [decodeHeader_toNat (List.length_take_of_le hwidth), frameHeader_announced]
    have hpositive : decodeHeader (bytes.take 4) ≠ 0 := by
      rw [Ne, ← UInt32.toNat_inj, hdecode, UInt32.toNat_zero]
      omega
    simp only [recvFrame, hread, hdecode]
    rw [if_neg (Nat.not_lt.mpr hfits), if_neg hpositive]
    exact hpast _ left _ hleft (by rw [List.length_drop]; omega)

/-- An input that ends before its next frame does is a reset. -/
theorem recvFrame_of_truncated (conn : UnixSocketConnection) {tail : List ReadOutcome}
    (hdelivers : Delivers (.got [] :: tail) conn.reads bytes)
    (hscan : frameHeader.scan bytes = .stuck .truncated) :
    recvFrame conn = some (.error .connectionReset,
      { conn with connected := false, reads := tail }) :=
  recvFrame_past conn (.inr ⟨_, _, rfl⟩)
    (fun _ reads _ hreads hn => readExact_end { conn with reads := reads } hreads hn)
    hdelivers hscan

/-- A frame of which a part has not come yet makes `recv_frame` wait. -/
theorem recvFrame_blocks (conn : UnixSocketConnection) (hdelivers : Delivers [] conn.reads bytes)
    (hscan : frameHeader.scan bytes = .stuck .truncated) : recvFrame conn = none :=
  recvFrame_past conn (.inl rfl)
    (fun _ reads _ hreads hn => readExact_blocks { conn with reads := reads } hreads hn)
    hdelivers hscan

/-- Call `recv_frame` a number of times, up to the first error. -/
def recvFrames {Conn : Type} [IConnection Conn] (conn : Conn) :
    Nat → Option (Except ErrorCode (List (List UInt8)) × Conn)
  | 0 => some (.ok [], conn)
  | count + 1 =>
      match recvFrame conn with
      | none => none
      | some (.error err, conn) => some (.error err, conn)
      | some (.ok payload, conn) =>
          match recvFrames conn count with
          | none => none
          | some (.error err, conn) => some (.error err, conn)
          | some (.ok payloads, conn) => some (.ok (payload :: payloads), conn)

/-- One `recv_frame` for each frame of a stream returns the frames. -/
theorem recvFrames_delivers (conn : UnixSocketConnection) {payloads : List (List UInt8)}
    {rest : List UInt8} (hfits : frameHeader.Fits payloads)
    (hdelivers : Delivers behind conn.reads (frameHeader.stream payloads ++ rest)) :
    ∃ left, recvFrames conn payloads.length = some (.ok payloads, { conn with reads := left }) ∧
      Delivers behind left rest := by
  induction payloads generalizing conn with
  | nil => exact ⟨conn.reads, rfl, hdelivers⟩
  | cons payload payloads ih =>
      obtain ⟨hhead, htail⟩ := frameHeader.fits_cons.mp hfits
      rw [Header.stream_cons, List.append_assoc] at hdelivers
      obtain ⟨left, hrecv, hleft⟩ :=
        recvFrame_of_frame conn hdelivers (frameHeader.scan_frame_append hhead _)
      obtain ⟨last, hrecvs, hlast⟩ := ih { conn with reads := left } htail hleft
      refine ⟨last, ?_, hlast⟩
      simp only [List.length_cons, recvFrames, hrecv, hrecvs]

/-- The payloads that repeated calls of `recv_frame` return before their first
error, that error, and the connection behind it. -/
inductive RecvsUntilError {Conn : Type} [IConnection Conn] :
    Conn → List (List UInt8) → ErrorCode → Conn → Prop where
  | failed {conn next : Conn} {err : ErrorCode}
      (hrecv : recvFrame conn = some (.error err, next)) : RecvsUntilError conn [] err next
  | received {conn middle next : Conn} {payload : List UInt8} {payloads : List (List UInt8)}
      {err : ErrorCode} (hrecv : recvFrame conn = some (.ok payload, middle))
      (hrest : RecvsUntilError middle payloads err next) :
      RecvsUntilError conn (payload :: payloads) err next

theorem RecvsUntilError.unique {Conn : Type} [IConnection Conn] {conn next next' : Conn}
    {payloads payloads' : List (List UInt8)} {err err' : ErrorCode}
    (hfirst : RecvsUntilError conn payloads err next)
    (hsecond : RecvsUntilError conn payloads' err' next') :
    payloads = payloads' ∧ err = err' ∧ next = next' := by
  induction hfirst generalizing payloads' with
  | failed hrecv =>
      cases hsecond with
      | failed hother =>
          rw [hrecv] at hother
          cases hother
          exact ⟨rfl, rfl, rfl⟩
      | received hother =>
          rw [hrecv] at hother
          cases hother
  | received hrecv hrest ih =>
      cases hsecond with
      | failed hother =>
          rw [hrecv] at hother
          cases hother
      | received hother hbehind =>
          rw [hrecv] at hother
          cases hother
          obtain ⟨hpayloads, herr, hnext⟩ := ih hbehind
          exact ⟨congrArg _ hpayloads, herr, hnext⟩

/-- The error with which `recv_frame` refuses a stream. -/
def errorOf : Ending → ErrorCode
  | .oversized => .ibridger .frameTooLarge
  | .truncated => .connectionReset

/-- On an input that ends, repeated calls of `recv_frame` return its longest
parse and then the error that its ending demands. -/
theorem recvsUntilError_parse (conn : UnixSocketConnection) {tail : List ReadOutcome}
    {input : List UInt8} (hdelivers : Delivers (.got [] :: tail) conn.reads input) :
    ∃ next, RecvsUntilError conn (frameHeader.parse input).frames
        (errorOf (frameHeader.parse input).ending) next ∧
      ((frameHeader.parse input).ending = .oversized →
        Delivers (.got [] :: tail) next.reads ((frameHeader.parse input).rest.drop 4)) := by
  induction hlength : input.length using Nat.strongRecOn generalizing conn input with
  | ind length ih =>
      cases hscan : frameHeader.scan input with
      | stuck ending =>
          rw [frameHeader.parse_of_stuck hscan]
          cases ending with
          | oversized =>
              obtain ⟨left, hrecv, hleft⟩ := recvFrame_of_oversized conn hdelivers hscan
              exact ⟨_, .failed hrecv, fun _ => hleft⟩
          | truncated =>
              exact ⟨_, .failed (recvFrame_of_truncated conn hdelivers hscan),
                fun hending => by cases hending⟩
      | frame payload rest =>
          obtain ⟨left, hrecv, hleft⟩ := recvFrame_of_frame conn hdelivers hscan
          have hshorter := frameHeader.length_lt_of_scan_frame hscan
          obtain ⟨next, hrest, hbehind⟩ :=
            ih rest.length (by omega) { conn with reads := left } hleft rfl
          rw [frameHeader.parse_of_frame hscan]
          exact ⟨next, .received hrecv hrest, hbehind⟩

end FramedConnection

end Ibridger.Cpp
