import Ibridger.Foundation.Protobuf
import Ibridger.Wire.Envelope

/-! # The fields of an envelope

`envelope.proto`: what the fields of an envelope mean. The C++ class is generated by
protobuf and is a parameter, of which we know that it follows this meaning.
-/

namespace Ibridger.Wire

open Protobuf TaggedFields

namespace MessageType

def ofNumber (number : Int32) : MessageType :=
  match number.toInt with
  | 0 => .request
  | 1 => .response
  | 2 => .event
  | 3 => .error
  | value => .other value

def number : MessageType → Int32
  | request => 0
  | response => 1
  | event => 2
  | error => 3
  | other value => .ofInt value

end MessageType

namespace StatusCode

def ofNumber (number : Int32) : StatusCode :=
  match number.toInt with
  | 0 => .ok
  | 1 => .unknownError
  | 2 => .notFound
  | 3 => .invalidArgument
  | 4 => .internal
  | 5 => .timeout
  | value => .other value

def number : StatusCode → Int32
  | ok => 0
  | unknownError => 1
  | notFound => 2
  | invalidArgument => 3
  | internal => 4
  | timeout => 5
  | other value => .ofInt value

end StatusCode

instance (scalar : Scalar) : DecidableEq scalar.Value :=
  match scalar with
  | .uint32 => inferInstanceAs (DecidableEq UInt32)
  | .int32 => inferInstanceAs (DecidableEq Int32)
  | .uint64 => inferInstanceAs (DecidableEq UInt64)
  | .int64 => inferInstanceAs (DecidableEq Int64)
  | .string => inferInstanceAs (DecidableEq String)
  | .bytes => inferInstanceAs (DecidableEq (List UInt8))

/-- A member that is not written while it has its default. -/
def implicit {Message : Type} (id : Nat) (type : Scalar) (default : type.Value)
    (get : Message → type.Value) (set : Message → type.Value → Message) : Member Message where
  id := id
  kind := .scalar type
  values message := if get message = default then [] else [get message]
  assign := set

theorem applyAll_updatesOf_implicit {Message : Type} {id : Nat} {type : Scalar}
    {default : type.Value} {get : Message → type.Value} {set : Message → type.Value → Message}
    {members : List (Member Message)} {message before : Message}
    (hdefault : set before default = before) :
    applyAll (updatesOf (implicit id type default get set :: members) message) before =
      applyAll (updatesOf members message) (set before (get message)) := by
  apply applyAll_updatesOf_cons
  change applyAll (((if get message = default then [] else [get message]).map _)) before = _
  split
  next hsame =>
    rw [hsame]
    exact hdefault.symm
  next => rfl

namespace Envelope

/-- An entry of the metadata takes the place of one with the same key. -/
def assignMetadata (envelope : Envelope) (entry : String × String) : Envelope :=
  { envelope with
    metadata := (envelope.metadata.filter fun other => other.1 ≠ entry.1) ++ [entry] }

def members : List (Member Envelope) :=
  [implicit 1 .int32 0 (fun envelope => envelope.type.number)
      fun envelope number => { envelope with type := .ofNumber number },
    implicit 2 .uint64 0 Envelope.requestId fun envelope id => { envelope with requestId := id },
    implicit 3 .string "" Envelope.serviceName
      fun envelope name => { envelope with serviceName := name },
    implicit 4 .string "" Envelope.methodName
      fun envelope name => { envelope with methodName := name },
    implicit 5 .bytes [] Envelope.payload fun envelope payload => { envelope with payload := payload },
    implicit 6 .int32 0 (fun envelope => envelope.status.number)
      fun envelope number => { envelope with status := .ofNumber number },
    implicit 7 .string "" Envelope.errorMessage
      fun envelope text => { envelope with errorMessage := text },
    { id := 8
      kind := .entry
      values := Envelope.metadata
      assign := assignMetadata }]

theorem numbered : Numbered members where
  nodup := by decide
  id_pos := by decide
  id_lt := by decide

/-- The envelopes are the same, but for the metadata under some keys and the order of the
metadata. -/
structure SameBut (ignored : List String) (first second : Envelope) : Prop where
  type_eq : first.type = second.type
  requestId_eq : first.requestId = second.requestId
  serviceName_eq : first.serviceName = second.serviceName
  methodName_eq : first.methodName = second.methodName
  payload_eq : first.payload = second.payload
  status_eq : first.status = second.status
  errorMessage_eq : first.errorMessage = second.errorMessage
  lookup_eq : ∀ key, key ∉ ignored → first.metadata.lookup key = second.metadata.lookup key

theorem SameBut.refl (ignored : List String) (envelope : Envelope) :
    envelope.SameBut ignored envelope :=
  ⟨rfl, rfl, rfl, rfl, rfl, rfl, rfl, fun _ _ => rfl⟩

theorem SameBut.trans {ignored : List String} {first second third : Envelope}
    (hfirst : first.SameBut ignored second) (hsecond : second.SameBut ignored third) :
    first.SameBut ignored third where
  type_eq := hfirst.type_eq.trans hsecond.type_eq
  requestId_eq := hfirst.requestId_eq.trans hsecond.requestId_eq
  serviceName_eq := hfirst.serviceName_eq.trans hsecond.serviceName_eq
  methodName_eq := hfirst.methodName_eq.trans hsecond.methodName_eq
  payload_eq := hfirst.payload_eq.trans hsecond.payload_eq
  status_eq := hfirst.status_eq.trans hsecond.status_eq
  errorMessage_eq := hfirst.errorMessage_eq.trans hsecond.errorMessage_eq
  lookup_eq key hkey := (hfirst.lookup_eq key hkey).trans (hsecond.lookup_eq key hkey)

theorem SameBut.symm {ignored : List String} {first second : Envelope}
    (hsame : first.SameBut ignored second) : second.SameBut ignored first where
  type_eq := hsame.type_eq.symm
  requestId_eq := hsame.requestId_eq.symm
  serviceName_eq := hsame.serviceName_eq.symm
  methodName_eq := hsame.methodName_eq.symm
  payload_eq := hsame.payload_eq.symm
  status_eq := hsame.status_eq.symm
  errorMessage_eq := hsame.errorMessage_eq.symm
  lookup_eq key hkey := (hsame.lookup_eq key hkey).symm

theorem SameBut.mono {ignored more : List String} {first second : Envelope}
    (hsame : first.SameBut ignored second) (hsubset : ignored ⊆ more) :
    first.SameBut more second :=
  { hsame with lookup_eq := fun key hkey => hsame.lookup_eq key fun hmem => hkey (hsubset hmem) }

theorem SameBut.eq {ignored : List String} {first second : Envelope}
    (hsame : first.SameBut ignored second) : first = { second with metadata := first.metadata } := by
  cases first
  cases second
  obtain ⟨rfl, rfl, rfl, rfl, rfl, rfl, rfl, -⟩ := hsame
  rfl

/-- Without metadata on one side there is none on the other. -/
theorem SameBut.plain {first second : Envelope} (hsame : first.SameBut [] second)
    (hplain : second.metadata = []) : first.metadata = [] := by
  cases hmetadata : first.metadata with
  | nil => rfl
  | cons entry rest =>
      have hlookup := hsame.lookup_eq entry.1 List.not_mem_nil
      rw [hplain, hmetadata, List.lookup_cons_self] at hlookup
      cases hlookup

/-- An envelope that an object can hold: its enums have numbers, and its metadata has
every key once. -/
structure Regular (envelope : Envelope) : Prop where
  type : .ofNumber envelope.type.number = envelope.type
  status : .ofNumber envelope.status.number = envelope.status
  nodup : (envelope.metadata.map Prod.fst).Nodup

instance : DecidablePred Regular := fun envelope =>
  decidable_of_iff (.ofNumber envelope.type.number = envelope.type ∧
    .ofNumber envelope.status.number = envelope.status ∧ (envelope.metadata.map Prod.fst).Nodup)
    ⟨fun ⟨htype, hstatus, hnodup⟩ => ⟨htype, hstatus, hnodup⟩,
      fun ⟨htype, hstatus, hnodup⟩ => ⟨htype, hstatus, hnodup⟩⟩

theorem lookup_assignMetadata (envelope : Envelope) (entry : String × String) (key : String) :
    (envelope.assignMetadata entry).metadata.lookup key =
      if key = entry.1 then some entry.2 else envelope.metadata.lookup key := by
  rw [assignMetadata]
  dsimp only
  induction envelope.metadata with
  | nil =>
      rw [List.filter_nil, List.nil_append, List.lookup_cons, List.lookup_nil]
      by_cases hkey : key = entry.1
      · rw [if_pos hkey, beq_iff_eq.mpr hkey]
      · rw [if_neg hkey, beq_eq_false_iff_ne.mpr hkey]
  | cons other metadata ih =>
      by_cases hother : other.1 = entry.1
      · rw [List.filter_cons_of_neg (by simpa using hother), ih, List.lookup_cons]
        by_cases hkey : key = entry.1
        · rw [if_pos hkey, if_pos hkey]
        · rw [if_neg hkey, if_neg hkey, beq_eq_false_iff_ne.mpr (hother ▸ hkey)]
      · rw [List.filter_cons_of_pos (by simpa using hother), List.cons_append, List.lookup_cons, ih,
          List.lookup_cons]
        by_cases hsame : key = other.1
        · have hne : key ≠ entry.1 := hsame ▸ hother
          rw [beq_iff_eq.mpr hsame]
          exact (if_neg hne).symm
        · rw [beq_eq_false_iff_ne.mpr hsame]

theorem foldl_assignMetadata (envelope : Envelope) (metadata : List (String × String))
    (hnodup : ((envelope.metadata ++ metadata).map Prod.fst).Nodup) :
    metadata.foldl assignMetadata envelope =
      { envelope with metadata := envelope.metadata ++ metadata } := by
  induction metadata generalizing envelope with
  | nil => rw [List.foldl_nil, List.append_nil]
  | cons entry metadata ih =>
      have hnew : (envelope.metadata.filter fun other => other.1 ≠ entry.1) = envelope.metadata := by
        rw [List.filter_eq_self]
        intro other hother
        rw [List.map_append, List.map_cons, List.nodup_append] at hnodup
        exact decide_eq_true
          (hnodup.2.2 other.1 (List.mem_map_of_mem hother) entry.1 List.mem_cons_self)
      rw [List.foldl_cons, ih]
      · rw [assignMetadata, hnew]
        dsimp only
        rw [List.append_assoc]
        rfl
      · rw [assignMetadata, hnew]
        dsimp only
        rwa [List.append_assoc]

/-- The fields of a regular envelope give it again. -/
theorem applyAll_updatesOf {envelope : Envelope} (hregular : envelope.Regular) :
    applyAll (updatesOf members envelope) .empty = envelope := by
  obtain ⟨type, requestId, serviceName, methodName, payload, status, errorMessage, metadata⟩ :=
    envelope
  obtain ⟨htype, hstatus, hnodup⟩ := hregular
  have hmetadata : ∀ envelope : Envelope, envelope.metadata = [] →
      applyAll (metadata.map fun entry envelope => assignMetadata envelope entry) envelope =
        { envelope with metadata := metadata } := by
    intro envelope hnone
    rw [applyAll, List.foldl_map]
    refine (foldl_assignMetadata envelope metadata (by rwa [hnone])).trans ?_
    rw [hnone, List.nil_append]
  dsimp only at htype hstatus
  unfold members
  refine Eq.trans (applyAll_updatesOf_implicit rfl) ?_
  refine Eq.trans (applyAll_updatesOf_implicit rfl) ?_
  refine Eq.trans (applyAll_updatesOf_implicit rfl) ?_
  refine Eq.trans (applyAll_updatesOf_implicit rfl) ?_
  refine Eq.trans (applyAll_updatesOf_implicit rfl) ?_
  refine Eq.trans (applyAll_updatesOf_implicit rfl) ?_
  refine Eq.trans (applyAll_updatesOf_implicit rfl) ?_
  refine Eq.trans (applyAll_updatesOf_cons (hmetadata _ rfl)) ?_
  rw [applyAll_updatesOf_nil]
  dsimp only
  rw [htype, hstatus]

end Envelope

namespace EnvelopeFormat

/-- The class that protobuf generates for C++: what it writes are fields with the
content of the envelope, and it reads any row of fields as what they mean, if it fits into
a frame. A map has its entries in any order. -/
structure Protobuf (format : EnvelopeFormat) : Prop where
  serialize : ∀ envelope bytes, envelope.Regular → format.serialize envelope = some bytes →
    ∃ fields updates, bytes = TaggedFields.bytes fields ∧
      List.Forall₂ (Means Envelope.members) fields updates ∧
        (applyAll updates .empty).SameBut [] envelope
  parse : ∀ fields updates, List.Forall₂ (Means Envelope.members) fields updates →
    (TaggedFields.bytes fields).length ≤ MAX_FRAME_SIZE → ∃ envelope,
      format.parse (TaggedFields.bytes fields) = .ok envelope ∧
        envelope.SameBut [] (applyAll updates .empty)

/-- Messages of less than two gigabytes, with the fields in the order of their numbers. -/
def inOrder : EnvelopeFormat where
  serialize envelope :=
    let bytes := Runtime.standard.encode Envelope.members envelope
    if envelope.Regular ∧ bytes.length < 2 ^ 31 then some bytes else none
  parse bytes := Runtime.standard.decode Envelope.members .empty bytes

theorem inOrder_serialize {envelope : Envelope} {bytes : List UInt8}
    (hserialize : inOrder.serialize envelope = some bytes) :
    envelope.Regular ∧ bytes.length < 2 ^ 32 ∧
      bytes = Runtime.standard.encode Envelope.members envelope := by
  obtain ⟨⟨hregular, hsmall⟩, hbytes⟩ := Option.ite_none_right_eq_some.mp hserialize
  rw [← Option.some_inj.mp hbytes]
  exact ⟨hregular, Nat.lt_trans hsmall (by decide), rfl⟩

theorem inOrder_inverse : inOrder.Inverse := by
  intro envelope bytes hserialize _
  obtain ⟨hregular, hsmall, rfl⟩ := inOrder_serialize hserialize
  refine (decode_encode Runtime.standard_conforms Envelope.numbered hsmall .empty).trans ?_
  rw [Envelope.applyAll_updatesOf hregular]

theorem inOrder_protobuf : inOrder.Protobuf where
  serialize envelope bytes _ hserialize := by
    obtain ⟨hregular, hsmall, rfl⟩ := inOrder_serialize hserialize
    obtain ⟨hencode, hmeans⟩ := encode_means Runtime.standard_conforms Envelope.numbered hsmall
    refine ⟨_, _, hencode, hmeans, ?_⟩
    rw [Envelope.applyAll_updatesOf hregular]
    exact .refl _ _
  parse fields updates hmeans _ :=
    ⟨_, decode_bytes Runtime.standard_conforms Envelope.numbered hmeans _, .refl _ _⟩

end EnvelopeFormat

end Ibridger.Wire
