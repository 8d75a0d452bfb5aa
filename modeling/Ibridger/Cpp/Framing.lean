import Mathlib.Data.Nat.Bitwise
import Ibridger.Cpp.UnixSocket
import Ibridger.Wire.Frame

/-! # The C++ framed connection

`FramedConnection` of `framing.cpp` over any `IConnection`. A call that is
still blocked in the connection below is `none`.
-/

namespace Ibridger.Cpp

open Wire

/-- `transport::IConnection`, as operations on the state of the connection. -/
class IConnection (Conn : Type) where
  send : Conn → List UInt8 → Option ((Nat × Option ErrorCode) × Conn)
  recv : Conn → Nat → Option ((List UInt8 × Option ErrorCode) × Conn)
  close : Conn → Conn
  isConnected : Conn → Bool

instance : IConnection UnixSocketConnection where
  send := UnixSocketConnection.send
  recv := UnixSocketConnection.recv
  close := UnixSocketConnection.close
  isConnected := UnixSocketConnection.connected

/-- The header that `send_frame` writes for a payload of the given size. -/
def encodeHeader (size : Nat) : List UInt8 :=
  let len := UInt32.ofNat size
  [((len >>> 24) &&& 0xFF).toUInt8, ((len >>> 16) &&& 0xFF).toUInt8,
    ((len >>> 8) &&& 0xFF).toUInt8, ((len >>> 0) &&& 0xFF).toUInt8]

/-- The length that `recv_frame` reads from the four bytes of a header. -/
def decodeHeader (header : List UInt8) : UInt32 :=
  ((header.getD 0 0).toUInt32 <<< 24) ||| ((header.getD 1 0).toUInt32 <<< 16) |||
    ((header.getD 2 0).toUInt32 <<< 8) ||| ((header.getD 3 0).toUInt32 <<< 0)

namespace FramedConnection

variable {Conn : Type} [IConnection Conn]

def sendFrame (conn : Conn) (data : List UInt8) : Option (Option ErrorCode × Conn) :=
  if MAX_FRAME_SIZE < data.length then some (some (.ibridger .frameTooLarge), conn)
  else
    match IConnection.send conn (encodeHeader data.length) with
    | none => none
    | some ((_, some err), conn) => some (some err, conn)
    | some ((_, none), conn) =>
        if data = [] then some (none, conn)
        else
          match IConnection.send conn data with
          | none => none
          | some ((_, some err), conn) => some (some err, conn)
          | some ((_, none), conn) => some (none, conn)

/-- Read exactly `n` bytes, looping over partial reads. -/
def readExact (conn : Conn) (n : Nat) : Option (Except ErrorCode (List UInt8) × Conn) :=
  if n = 0 then some (.ok [], conn)
  else
    match IConnection.recv conn n with
    | none => none
    | some ((_, some err), conn) => some (.error err, conn)
    | some ((received, none), conn) =>
        -- a clean end of stream before all bytes arrived
        if _hreceived : received = [] then some (.error .connectionReset, conn)
        else
          match readExact conn (n - received.length) with
          | none => none
          | some (.error err, conn) => some (.error err, conn)
          | some (.ok rest, conn) => some (.ok (received ++ rest), conn)
termination_by n
decreasing_by
  have hpos : 0 < received.length := List.length_pos_of_ne_nil _hreceived
  omega

def recvFrame (conn : Conn) : Option (Except ErrorCode (List UInt8) × Conn) :=
  match readExact conn 4 with
  | none => none
  | some (.error err, conn) => some (.error err, conn)
  | some (.ok header, conn) =>
      if MAX_FRAME_SIZE < (decodeHeader header).toNat then
        some (.error (.ibridger .frameTooLarge), conn)
      else if decodeHeader header = 0 then some (.ok [], conn)
      else readExact conn (decodeHeader header).toNat

/-- The calls of `send` that a `send_frame` makes, up to the first error. -/
inductive SendsFrame (conn : Conn) (data : List UInt8) : Option ErrorCode → Conn → Prop where
  | oversized (hlarge : MAX_FRAME_SIZE < data.length) :
      SendsFrame conn data (some (.ibridger .frameTooLarge)) conn
  | header (sent : Nat) (err : ErrorCode) (next : Conn) (hfits : data.length ≤ MAX_FRAME_SIZE)
      (hheader : IConnection.send conn (encodeHeader data.length) =
        some ((sent, some err), next)) :
      SendsFrame conn data (some err) next
  | empty (sent : Nat) (next : Conn) (hfits : data.length ≤ MAX_FRAME_SIZE) (hempty : data = [])
      (hheader : IConnection.send conn (encodeHeader data.length) = some ((sent, none), next)) :
      SendsFrame conn data none next
  | body (sent count : Nat) (middle : Conn) (error : Option ErrorCode) (next : Conn)
      (hfits : data.length ≤ MAX_FRAME_SIZE) (hdata : data ≠ [])
      (hheader : IConnection.send conn (encodeHeader data.length) = some ((sent, none), middle))
      (hbody : IConnection.send middle data = some ((count, error), next)) :
      SendsFrame conn data error next

theorem sendFrame_eq_some {conn next : Conn} {data : List UInt8} {error : Option ErrorCode} :
    sendFrame conn data = some (error, next) ↔ SendsFrame conn data error next := by
  constructor
  · intro hrun
    rw [sendFrame] at hrun
    split at hrun
    next hlarge =>
      cases hrun
      exact .oversized hlarge
    next hlimit =>
      have hfits : data.length ≤ MAX_FRAME_SIZE := Nat.le_of_not_lt hlimit
      split at hrun
      · cases hrun
      next sent err middle hheader =>
        cases hrun
        exact .header sent err _ hfits hheader
      next sent middle hheader =>
        split at hrun
        next hempty =>
          cases hrun
          exact .empty sent _ hfits hempty hheader
        next hdata =>
          split at hrun
          · cases hrun
          next count err last hbody =>
            cases hrun
            exact .body sent count middle _ _ hfits hdata hheader hbody
          next count last hbody =>
            cases hrun
            exact .body sent count middle _ _ hfits hdata hheader hbody
  · intro hsends
    cases hsends with
    | oversized hlarge => rw [sendFrame, if_pos hlarge]
    | header sent err _ hfits hheader => rw [sendFrame, if_neg (Nat.not_lt.mpr hfits), hheader]
    | empty sent _ hfits hempty hheader =>
        rw [sendFrame, if_neg (Nat.not_lt.mpr hfits), hheader]
        exact if_pos hempty
    | body sent count middle _ _ hfits hdata hheader hbody =>
        rw [sendFrame, if_neg (Nat.not_lt.mpr hfits), hheader]
        dsimp only
        rw [if_neg hdata, hbody]
        cases error <;> rfl

end FramedConnection

/-! ## The header bytes -/

theorem encodeHeader_length (size : Nat) : (encodeHeader size).length = 4 := rfl

theorem toNat_shiftRight_byte (len : UInt32) {shift : Nat} (hshift : shift < 32) :
    (((len >>> UInt32.ofNat shift) &&& 0xFF).toUInt8).toNat = len.toNat / 2 ^ shift % 256 := by
  have hmod : shift % 2 ^ 32 % 32 = shift := by omega
  have hmask : ∀ n, n &&& 255 = n % 256 := fun n => Nat.and_two_pow_sub_one_eq_mod n 8
  rw [UInt32.toNat_toUInt8, UInt32.toNat_and, UInt32.toNat_shiftRight, UInt32.toNat_ofNat',
    hmod, Nat.shiftRight_eq_div_pow]
  change (_ &&& 255) % 256 = _
  rw [hmask, Nat.mod_mod]

/-- The shifts and masks of `send_frame` write the length in big-endian order. -/
theorem encodeHeader_eq {size : Nat} (hsize : size < 2 ^ 32) :
    encodeHeader size = BigEndian.toBytes 4 size := by
  have hlen : (UInt32.ofNat size).toNat = size := by
    rw [UInt32.toNat_ofNat', Nat.mod_eq_of_lt hsize]
  have hbyte : ∀ shift < 32, ∀ n : Nat, n = size / 2 ^ shift →
      (((UInt32.ofNat size) >>> UInt32.ofNat shift) &&& 0xFF).toUInt8 = UInt8.ofNat n := by
    intro shift hshift n hn
    apply UInt8.toNat_inj.mp
    rw [toNat_shiftRight_byte _ hshift, hlen, UInt8.toNat_ofNat', hn]
  have h0 := hbyte 24 (by decide) (size / 256 / 256 / 256) (by omega)
  have h1 := hbyte 16 (by decide) (size / 256 / 256) (by omega)
  have h2 := hbyte 8 (by decide) (size / 256) (by omega)
  have h3 := hbyte 0 (by decide) size (by simp)
  simp only [encodeHeader, BigEndian.toBytes, List.nil_append, List.cons_append]
  exact congrArg₂ _ h0 (congrArg₂ _ h1 (congrArg₂ _ h2 (congrArg₂ _ h3 rfl)))

/-- A frame that fits is its header and its payload. -/
theorem frame_eq {data : List UInt8} (hfits : data.length ≤ MAX_FRAME_SIZE) :
    frameHeader.frame data = encodeHeader data.length ++ data := by
  rw [frameHeader_frame, encodeHeader_eq (Nat.lt_of_le_of_lt hfits (by decide))]

theorem toNat_shiftLeft_byte (byte : UInt8) {shift : Nat} (hshift : shift ≤ 24) :
    (byte.toUInt32 <<< UInt32.ofNat shift).toNat = byte.toNat * 2 ^ shift := by
  have hbyte := byte.toNat_lt
  have hmod : shift % 2 ^ 32 % 32 = shift := by omega
  have hpow : 2 ^ shift ≤ 2 ^ 24 := Nat.pow_le_pow_right (by decide) hshift
  have hlt : byte.toNat * 2 ^ shift < 2 ^ 32 := by
    calc byte.toNat * 2 ^ shift ≤ 255 * 2 ^ 24 := Nat.mul_le_mul (by omega) hpow
      _ < 2 ^ 32 := by decide
  rw [UInt32.toNat_shiftLeft, UInt8.toNat_toUInt32, UInt32.toNat_ofNat', hmod, Nat.shiftLeft_eq,
    Nat.mod_eq_of_lt hlt]

/-- The shifts of `recv_frame` read the number that the header spells. -/
theorem decodeHeader_toNat {header : List UInt8} (hheader : header.length = 4) :
    (decodeHeader header).toNat = BigEndian.ofBytes header := by
  match header, hheader with
  | [b0, b1, b2, b3], _ =>
      have h1 := b1.toNat_lt
      have h2 := b2.toNat_lt
      have h3 := b3.toNat_lt
      have hor : ∀ high low shift : Nat, low < 2 ^ shift →
          high * 2 ^ shift ||| low = high * 2 ^ shift + low := by
        intro high low shift hlow
        rw [← Nat.shiftLeft_eq, Nat.shiftLeft_add_eq_or_of_lt hlow]
      have hbytes : (decodeHeader [b0, b1, b2, b3]).toNat =
          b0.toNat * 2 ^ 24 ||| b1.toNat * 2 ^ 16 ||| b2.toNat * 2 ^ 8 ||| b3.toNat * 2 ^ 0 := by
        rw [← toNat_shiftLeft_byte b0 (by decide), ← toNat_shiftLeft_byte b1 (by decide),
          ← toNat_shiftLeft_byte b2 (by decide), ← toNat_shiftLeft_byte b3 (by decide)]
        simp only [decodeHeader, List.getD_cons_zero, List.getD_cons_succ, UInt32.toNat_or]
        rfl
      rw [hbytes, Nat.or_assoc, Nat.or_assoc, hor _ (b3.toNat * 2 ^ 0) 8 (by omega),
        hor _ _ 16 (by omega), hor _ _ 24 (by omega)]
      simp only [BigEndian.ofBytes, List.foldl_cons, List.foldl_nil]
      omega

end Ibridger.Cpp
