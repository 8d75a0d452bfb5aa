import Ibridger.Protocol.Messages

/-! # The classes of the two SDKs

What sessions and clients are told of the classes for envelopes follows, for the generated
class of the JS SDK, from what the wire format promises of its runtime, and for both SDKs
together from what it promises of the C++ class as well.
-/

namespace Ibridger.Protocol

open Protobuf TaggedFields Wire
open Js.Proto.Envelope (decode encode)

/-- The JS class as the client and the server use it. They serialize objects without
metadata under `__proto__`, and look at what the parsed objects show. -/
structure Generated (runtime : Runtime) (format : EnvelopeFormat) : Prop where
  serialize : ∀ envelope bytes, format.serialize envelope = some bytes →
    ∃ message : Js.IEnvelope, message.envelope = envelope ∧
      "__proto__" ∉ (message.metadata.getD .empty).keys ∧ bytes = encode runtime message
  parse : ∀ bytes, format.parse bytes = (decode runtime bytes).map Js.IEnvelope.envelope

namespace Generated

variable {runtime : Runtime} {format other : EnvelopeFormat}

theorem inverse (hconforms : runtime.Conforms) (hgenerated : Generated runtime format) :
    format.Inverse := by
  intro envelope bytes hserialize hfits
  obtain ⟨message, rfl, hkeys, rfl⟩ := hgenerated.serialize envelope bytes hserialize
  rw [hgenerated.parse, Js.Proto.Envelope.object_comes_back hconforms message
    (Nat.lt_of_le_of_lt hfits (by decide)), Js.StringRecord.erase_of_not_mem hkeys]
  rfl

/-- The JS class reads what the C++ class writes. -/
theorem understands (hconforms : runtime.Conforms) (hgenerated : Generated runtime format)
    (hprotobuf : other.Protobuf)
    (hregular : ∀ envelope bytes, other.serialize envelope = some bytes → envelope.Regular) :
    format.Understands other := by
  intro envelope bytes hserialize _
  obtain ⟨fields, updates, rfl, hmeans, hsame⟩ :=
    hprotobuf.serialize envelope bytes (hregular envelope bytes hserialize) hserialize
  obtain ⟨message, hdecode, hshown, hplain⟩ := decode_follows hconforms hmeans
  refine ⟨message.envelope.metadata, fun hnone => hplain (hsame.plain hnone), ?_⟩
  rw [hgenerated.parse, hdecode]
  exact congrArg Except.ok (hshown.trans (hsame.mono (List.nil_subset _))).eq

/-- The C++ class reads what the JS class writes. -/
theorem understood (hconforms : runtime.Conforms) (hgenerated : Generated runtime format)
    (hprotobuf : other.Protobuf) : other.Understands format := by
  intro envelope bytes hserialize hfits
  obtain ⟨message, rfl, -, rfl⟩ := hgenerated.serialize envelope bytes hserialize
  obtain ⟨read, hparse, hsame⟩ := parse_of_encode hconforms hprotobuf hfits
  exact ⟨read.metadata, hsame.plain, hparse.trans (congrArg Except.ok hsame.eq)⟩

end Generated

/-- An object that shows the envelope, with all properties its own. -/
def objectOf (envelope : Envelope) (hnodup : (envelope.metadata.map Prod.fst).Nodup)
    (hordered : (envelope.metadata.map Prod.fst).Pairwise (Js.precedes · ·)) : Js.IEnvelope where
  type := some envelope.type.number
  requestId := some envelope.requestId
  serviceName := some envelope.serviceName
  methodName := some envelope.methodName
  payload := some envelope.payload
  status := some envelope.status.number
  errorMessage := some envelope.errorMessage
  metadata := some ⟨envelope.metadata, hnodup, hordered⟩

/-- Envelopes with all fields written. -/
def inFull (runtime : Runtime) : EnvelopeFormat where
  serialize envelope :=
    if h : envelope.Regular ∧ (envelope.metadata.map Prod.fst).Pairwise (Js.precedes · ·) ∧
        "__proto__" ∉ envelope.metadata.map Prod.fst then
      some (encode runtime (objectOf envelope h.1.nodup h.2.1))
    else none
  parse bytes := (decode runtime bytes).map Js.IEnvelope.envelope

theorem inFull_generated (runtime : Runtime) : Generated runtime (inFull runtime) where
  serialize envelope bytes hserialize := by
    rw [inFull] at hserialize
    dsimp only at hserialize
    split at hserialize
    next hobject =>
      obtain ⟨hregular, hordered, hproto⟩ := hobject
      refine ⟨objectOf envelope hregular.nodup hordered, ?_, hproto,
        (Option.some_inj.mp hserialize).symm⟩
      rw [objectOf, Js.IEnvelope.envelope]
      dsimp only [Option.getD_some]
      rw [hregular.type, hregular.status]
    next => cases hserialize
  parse _ := rfl

/-- All that sessions and clients of both SDKs are told of their classes. -/
theorem classes_understand {runtime : Runtime} (hconforms : runtime.Conforms)
    {format other : EnvelopeFormat} (hgenerated : Generated runtime format)
    (hprotobuf : other.Protobuf)
    (hregular : ∀ envelope bytes, other.serialize envelope = some bytes → envelope.Regular) :
    format.Inverse ∧ format.Understands other ∧ other.Understands format :=
  ⟨hgenerated.inverse hconforms, hgenerated.understands hconforms hprotobuf hregular,
    hgenerated.understood hconforms hprotobuf⟩

example : (inFull .standard).Inverse ∧ (inFull .standard).Understands .inOrder ∧
    EnvelopeFormat.inOrder.Understands (inFull .standard) :=
  classes_understand Runtime.standard_conforms (inFull_generated .standard)
    EnvelopeFormat.inOrder_protobuf fun _ _ hserialize =>
      (EnvelopeFormat.inOrder_serialize hserialize).1

end Ibridger.Protocol
