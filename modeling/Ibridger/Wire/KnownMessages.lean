import Ibridger.Wire.Envelope
import Mathlib.Data.List.Nodup

/-! # Formats of known messages

The theorems about sessions hold for every format that parses what it serializes. To apply
them to concrete traffic, `knowing` gives some messages their protobuf bytes.
-/

namespace Ibridger.Wire

namespace EnvelopeFormat

/-- The format of the known messages and no others. -/
def knowing (known : List (Envelope × List UInt8)) : EnvelopeFormat where
  serialize envelope := (known.find? fun message => message.1 = envelope).map Prod.snd
  parse bytes :=
    match known.find? fun message => message.2 = bytes with
    | some message => .ok message.1
    | none => .error "invalid wire type"

theorem knowing_serialize {known : List (Envelope × List UInt8)} {envelope : Envelope}
    {bytes : List UInt8} (hdistinct : (known.map Prod.fst).Nodup)
    (hmem : (envelope, bytes) ∈ known) : (knowing known).serialize envelope = some bytes := by
  cases hknown : known.find? fun message => message.1 = envelope with
  | none =>
      have hnone := List.find?_eq_none.mp hknown _ hmem
      simp at hnone
  | some message =>
      have hmessage : message.1 = envelope := by simpa using List.find?_some hknown
      have hsame : message = (envelope, bytes) :=
        List.inj_on_of_nodup_map hdistinct (List.mem_of_find?_eq_some hknown) hmem hmessage
      simp only [knowing, hknown, hsame, Option.map_some]

theorem knowing_parse {known : List (Envelope × List UInt8)} {envelope : Envelope}
    {bytes : List UInt8} (hdistinct : (known.map Prod.snd).Nodup)
    (hmem : (envelope, bytes) ∈ known) : (knowing known).parse bytes = .ok envelope := by
  cases hknown : known.find? fun message => message.2 = bytes with
  | none =>
      have hnone := List.find?_eq_none.mp hknown _ hmem
      simp at hnone
  | some message =>
      have hmessage : message.2 = bytes := by simpa using List.find?_some hknown
      have hsame : message = (envelope, bytes) :=
        List.inj_on_of_nodup_map hdistinct (List.mem_of_find?_eq_some hknown) hmem hmessage
      simp only [knowing, hknown, hsame]

/-- The frames of known messages carry them. -/
theorem knowing_emitted {known messages : List (Envelope × List UInt8)}
    (hdistinct : (known.map Prod.snd).Nodup) (hknown : ∀ message ∈ messages, message ∈ known)
    (hfits : ∀ message ∈ messages, message.2.length ≤ MAX_FRAME_SIZE) :
    (knowing known).Emitted (frameHeader.stream (messages.map Prod.snd))
      (messages.map Prod.fst) := by
  refine ⟨messages.map Prod.snd, ?_, ?_, rfl⟩
  · intro payload hpayload
    obtain ⟨message, hmem, rfl⟩ := List.mem_map.mp hpayload
    exact hfits message hmem
  · rw [Carries, List.map_map, List.map_map]
    exact List.map_congr_left fun message hmem => knowing_parse hdistinct (hknown message hmem)

/-- Known messages with different bytes are told apart. -/
theorem knowing_parse_of_serialize {known : List (Envelope × List UInt8)}
    (hdistinct : (known.map Prod.snd).Nodup) {envelope : Envelope} {bytes : List UInt8}
    (hserialize : (knowing known).serialize envelope = some bytes) :
    (knowing known).parse bytes = .ok envelope := by
  obtain ⟨message, hknown, rfl⟩ := Option.map_eq_some_iff.mp hserialize
  have hmessage : message.1 = envelope := by simpa using List.find?_some hknown
  rw [← hmessage]
  exact knowing_parse hdistinct (List.mem_of_find?_eq_some hknown)

theorem knowing_inverse {known : List (Envelope × List UInt8)}
    (hdistinct : (known.map Prod.snd).Nodup) : (knowing known).Inverse :=
  fun _ _ hserialize _ => knowing_parse_of_serialize hdistinct hserialize

end EnvelopeFormat

/-- A request with identifier 1 to a service without a name. -/
def namelessRequest : Envelope := { Envelope.empty with requestId := 1 }

end Ibridger.Wire
