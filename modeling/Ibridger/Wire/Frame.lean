import Ibridger.Foundation.BigEndian
import Ibridger.Foundation.LengthPrefix

/-! # The wire format of frames

Every message is a 4-byte big-endian length followed by that many payload
bytes, at most `MAX_FRAME_SIZE` of them. Both SDKs read and write this format.
-/

namespace Ibridger.Wire

def MAX_FRAME_SIZE : Nat := 16777216

/-- The length prefix of a frame. -/
def frameHeader : LengthPrefix.Header UInt8 where
  width := 4
  limit := MAX_FRAME_SIZE
  encode := BigEndian.toBytes 4
  decode := BigEndian.ofBytes
  width_pos := by decide
  length_encode := BigEndian.length_toBytes 4
  decode_encode n hn := by
    have hlt : n < 256 ^ 4 := Nat.lt_of_le_of_lt hn (by decide)
    exact BigEndian.ofBytes_toBytes_of_lt hlt
  encode_decode bytes hwidth _ := by
    have hbytes := BigEndian.toBytes_ofBytes bytes
    rwa [hwidth] at hbytes

@[simp] theorem frameHeader_width : frameHeader.width = 4 := rfl

@[simp] theorem frameHeader_limit : frameHeader.limit = MAX_FRAME_SIZE := rfl

theorem frameHeader_announced (input : List UInt8) :
    frameHeader.announced input = BigEndian.ofBytes (input.take 4) := rfl

theorem frameHeader_frame (payload : List UInt8) :
    frameHeader.frame payload = BigEndian.toBytes 4 payload.length ++ payload := rfl

end Ibridger.Wire
