import Ibridger.Wire.Envelope

/-! # Request ids

The ids of the requests that a peer reads from a connection, one request behind
the other.
-/

namespace Ibridger.Wire

/-- The ids are 1, 2, 3, and so on. -/
def FromOne (ids : List UInt64) : Prop :=
  ids.map UInt64.toNat = List.range' 1 ids.length

/-- The ids of the requests on a stream of bytes. -/
def EnvelopeFormat.requestIds (format : EnvelopeFormat) (stream : List UInt8) : List UInt64 :=
  (format.envelopes stream).map Envelope.requestId

/-- The id of an envelope is read as it was written, as a 64-bit number. -/
def EnvelopeFormat.KeepsIds (format : EnvelopeFormat) : Prop :=
  ∀ envelope bytes other, format.serialize envelope = some bytes →
    format.parse bytes = .ok other → other.requestId = envelope.requestId

namespace FromOne

variable {ids : List UInt64} {id : UInt64}

theorem nil : FromOne [] := rfl

/-- The next id is the number of all of them. -/
theorem concat (hids : FromOne ids) (hid : id.toNat = ids.length + 1) : FromOne (ids ++ [id]) := by
  rw [FromOne, List.map_append, hids, List.length_append, List.map_singleton, hid,
    List.length_singleton, List.range'_concat, Nat.one_mul, Nat.add_comm]

theorem mem_iff (hids : FromOne ids) : id ∈ ids ↔ 1 ≤ id.toNat ∧ id.toNat ≤ ids.length := by
  have hmem : id ∈ ids ↔ id.toNat ∈ ids.map UInt64.toNat := by
    constructor
    · exact List.mem_map_of_mem
    · intro hvalue
      obtain ⟨other, hother, hsame⟩ := List.mem_map.mp hvalue
      rwa [← UInt64.toNat_inj.mp hsame]
  rw [hmem, hids, List.mem_range'_1]
  omega

/-- There are fewer than 2^64 of them. -/
theorem length_lt (hids : FromOne ids) : ids.length < 2 ^ 64 := by
  by_cases hempty : ids = []
  · subst hempty
    decide
  · have hpos := List.length_pos_of_ne_nil hempty
    have hlast : ids.length ∈ ids.map UInt64.toNat := by
      rw [hids, List.mem_range'_1]
      omega
    obtain ⟨id, -, hid⟩ := List.mem_map.mp hlast
    rw [← hid]
    exact id.toNat_lt

/-- They are the ids up to the last one that is among them. -/
theorem length_eq {n : Nat} (hids : FromOne ids) (hn : n < 2 ^ 64)
    (hall : ∀ k, 0 < k → k ≤ n → UInt64.ofNat k ∈ ids) (honly : ∀ id ∈ ids, id.toNat ≤ n) :
    ids.length = n := by
  have hlength := hids.length_lt
  apply Nat.le_antisymm
  · by_cases hempty : ids.length = 0
    · omega
    · have hlast : UInt64.ofNat ids.length ∈ ids := by
        rw [hids.mem_iff, UInt64.toNat_ofNat_of_lt' hlength]
        omega
      have hle := honly _ hlast
      rwa [UInt64.toNat_ofNat_of_lt' hlength] at hle
  · by_cases hnone : n = 0
    · omega
    · have hle := (hids.mem_iff.mp (hall n (by omega) (Nat.le_refl n))).2
      rwa [UInt64.toNat_ofNat_of_lt' hn] at hle

end FromOne

namespace EnvelopeFormat

variable {format : EnvelopeFormat} {stream data : List UInt8} {requests : List Envelope}
  {request : Envelope}

variable (format) in
/-- The frames of the requests stand on the stream, numbered from 1 on, and nothing else. -/
structure Numbers (stream : List UInt8) (requests : List Envelope) : Prop where
  emitted : format.Emitted stream requests
  fromOne : FromOne (requests.map Envelope.requestId)

theorem Numbers.nil : format.Numbers [] [] := ⟨.nil, .nil⟩

theorem Numbers.requestIds (hnumbers : format.Numbers stream requests) :
    FromOne (format.requestIds stream) := by
  rw [EnvelopeFormat.requestIds, hnumbers.emitted.envelopes_eq]
  exact hnumbers.fromOne

theorem Numbers.append (hnumbers : format.Numbers stream requests)
    (hfits : data.length ≤ MAX_FRAME_SIZE) (hparse : format.parse data = .ok request)
    (hid : request.requestId.toNat = requests.length + 1) :
    format.Numbers (stream ++ frameHeader.frame data) (requests ++ [request]) := by
  refine ⟨hnumbers.emitted.append hfits hparse, ?_⟩
  rw [List.map_append]
  apply hnumbers.fromOne.concat
  rw [List.length_map, hid]

/-- A header without its body adds nothing. -/
theorem Numbers.envelopes_header (hnumbers : format.Numbers stream requests)
    (hpos : 0 < data.length) (hfits : data.length ≤ MAX_FRAME_SIZE) :
    format.envelopes (stream ++ BigEndian.toBytes 4 data.length) = requests := by
  obtain ⟨frames, hframes, hcarries, rfl⟩ := hnumbers.emitted
  have hframe : frameHeader.frame data = BigEndian.toBytes 4 data.length ++ data :=
    frameHeader_frame data
  have hshort : BigEndian.toBytes 4 data.length ≠ frameHeader.frame data := by
    rw [hframe]
    intro hsame
    rw [List.self_eq_append_right.mp hsame, List.length_nil] at hpos
    exact Nat.lt_irrefl 0 hpos
  have hstuck := frameHeader.scan_of_strict_prefix hfits ⟨data, hframe.symm⟩ hshort
  rw [envelopes_stream_append hframes hcarries, envelopes_of_stuck hstuck, List.append_nil]

end EnvelopeFormat

end Ibridger.Wire
