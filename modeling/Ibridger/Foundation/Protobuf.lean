import Ibridger.Foundation.TaggedFields
import Mathlib.Data.List.Forall2

/-! # Protobuf classes

A protobuf library for some language consists of a runtime, which reads and writes
scalars, and of classes that are generated from the messages. A class is described by
its members, and what a runtime is to do is said in terms of tagged fields.
-/

namespace Protobuf

open TaggedFields

/-- The bytes of a string in UTF-8. -/
def utf8 (string : String) : List UInt8 :=
  string.toUTF8.data.toList

theorem fromUTF8?_utf8 (string : String) :
    String.fromUTF8? ⟨(utf8 string).toArray⟩ = some string := by
  have hbytes : (⟨(utf8 string).toArray⟩ : ByteArray) = string.toByteArray := by
    rw [utf8, Array.toArray_toList]
    rfl
  rw [hbytes, String.fromUTF8?, dif_pos string.isValidUTF8]
  rfl

/-! ## Scalars -/

/-- The scalar types that members have; tags and lengths are of the first one. -/
inductive Scalar where
  | uint32
  | int32
  | uint64
  | int64
  | string
  | bytes
deriving DecidableEq

namespace Scalar

abbrev Value : Scalar → Type
  | uint32 => UInt32
  | int32 => Int32
  | uint64 => UInt64
  | int64 => Int64
  | string => String
  | bytes => List UInt8

/-- The wire type of what is written. -/
def wireType : Scalar → Nat
  | uint32 | int32 | uint64 | int64 => 0
  | string | bytes => 2

/-- What is written for a value. A negative number takes all 64 bits. -/
def content : (scalar : Scalar) → scalar.Value → Content
  | uint32, n => .varint (UInt32.toNat n)
  | int32, n => .varint (Int32.toInt64 n).toUInt64.toNat
  | uint64, n => .varint (UInt64.toNat n)
  | int64, n => .varint (Int64.toUInt64 n).toNat
  | string, value => .delimited (utf8 value)
  | bytes, value => .delimited value

/-- As a number of 32 bits, `n` takes at most five bytes, or all ten where it is negative. -/
def Short (n : Nat) : Prop :=
  n < 2 ^ 35 ∨ 2 ^ 63 ≤ n

instance : DecidablePred Short := fun n => inferInstanceAs (Decidable (n < 2 ^ 35 ∨ 2 ^ 63 ≤ n))

/-- The value that a content has, if it is of this type. Longer numbers are cut off; there
are runtimes that take numbers of six to nine bytes apart where one of 32 bits is due. -/
def value? : (scalar : Scalar) → Content → Option scalar.Value
  | uint32, .varint n => if Short n then some (UInt32.ofNat n) else none
  | int32, .varint n => if Short n then some (UInt32.ofNat n).toInt32 else none
  | uint64, .varint n => some (UInt64.ofNat n)
  | int64, .varint n => some (UInt64.ofNat n).toInt64
  | string, .delimited data => String.fromUTF8? ⟨data.toArray⟩
  | bytes, .delimited data => some data
  | _, _ => none

theorem toInt32_toUInt64 (n : Int64) : n.toUInt64.toUInt32.toInt32 = n.toInt32 := by
  apply Int32.toBitVec_inj.mp
  rw [Int64.toBitVec_toInt32, BitVec.signExtend_eq_setWidth_of_le _ (by decide)]
  rfl

theorem value?_uint32 {n : Nat} (hsmall : n < 2 ^ 32) :
    uint32.value? (.varint n) = some (UInt32.ofNat n) :=
  if_pos (.inl (Nat.lt_trans hsmall (by decide)))

theorem short_toInt64 (n : Int32) : Short n.toInt64.toUInt64.toNat := by
  have hlow := n.minValue_le_toInt
  have hhigh := n.toInt_lt
  rw [← Int32.toInt_toInt64] at hlow hhigh
  have hbits := BitVec.toInt_eq_toNat_cond n.toInt64.toBitVec
  change n.toInt64.toInt = _ at hbits
  change _ ∨ _
  rw [show n.toInt64.toUInt64.toNat = n.toInt64.toBitVec.toNat from rfl]
  split at hbits <;> omega

theorem value?_content (scalar : Scalar) (value : scalar.Value) :
    scalar.value? (scalar.content value) = some value := by
  cases scalar with
  | uint32 =>
      refine (value?_uint32 (UInt32.toNat_lt value)).trans ?_
      rw [UInt32.ofNat_toNat]
  | int32 =>
      refine (if_pos (short_toInt64 value)).trans ?_
      rw [UInt32.ofNat_uInt64ToNat, toInt32_toUInt64, Int32.toInt32_toInt64]
  | uint64 =>
      change some (UInt64.ofNat (UInt64.toNat value)) = some value
      rw [UInt64.ofNat_toNat]
  | int64 =>
      change some (UInt64.ofNat (Int64.toUInt64 value).toNat).toInt64 = some value
      rw [UInt64.ofNat_toNat, Int64.toInt64_toUInt64]
  | string => exact fromUTF8?_utf8 value
  | bytes => rfl

theorem wireType_content (scalar : Scalar) (value : scalar.Value) :
    (scalar.content value).wireType = scalar.wireType := by
  cases scalar <;> rfl

theorem content_valid (scalar : Scalar) (value : scalar.Value)
    (hsmall : (scalar.content value).bytes.length < 2 ^ 32) : (scalar.content value).Valid := by
  have hdelimited : ∀ data : List UInt8, (Content.delimited data).bytes.length < 2 ^ 32 →
      data.length < 2 ^ 32 := by
    intro data hlength
    rw [Content.bytes, List.length_append] at hlength
    omega
  cases scalar with
  | uint32 => exact Nat.lt_trans (UInt32.toNat_lt value) (by decide)
  | int32 => exact UInt64.toNat_lt _
  | uint64 => exact UInt64.toNat_lt _
  | int64 => exact UInt64.toNat_lt _
  | string => exact hdelimited _ hsmall
  | bytes => exact hdelimited _ hsmall

end Scalar

/-! ## The runtime -/

/-- The functions of a protobuf runtime that generated classes use. What is read is in
front of the bytes, and what is behind it is given back. -/
structure Runtime where
  write : (scalar : Scalar) → scalar.Value → List UInt8
  read : (scalar : Scalar) → List UInt8 → Except String (scalar.Value × List UInt8)
  /-- Step over a content of this wire type. -/
  skipType : Nat → List UInt8 → Except String (List UInt8)

/-- The runtime writes and reads protobuf. -/
structure Runtime.Conforms (runtime : Runtime) : Prop where
  write : ∀ scalar value, runtime.write scalar value = (scalar.content value).bytes
  read : ∀ scalar content value rest, content.Valid → scalar.value? content = some value →
    runtime.read scalar (content.bytes ++ rest) = .ok (value, rest)
  skipType : ∀ (content : Content) rest, content.Valid →
    runtime.skipType content.wireType (content.bytes ++ rest) = .ok rest

/-- A runtime that reads and writes the format and nothing more. -/
def Runtime.standard : Runtime where
  write scalar value := (scalar.content value).bytes
  read scalar bytes :=
    match Content.read scalar.wireType bytes with
    | .error error => .error error
    | .ok (content, rest) =>
        match scalar.value? content with
        | some value => .ok (value, rest)
        | none => .error "invalid value"
  skipType wireType bytes := (Content.read wireType bytes).map Prod.snd

theorem Scalar.wireType_of_value? {scalar : Scalar} {content : Content} {value : scalar.Value}
    (hvalue : scalar.value? content = some value) : content.wireType = scalar.wireType := by
  cases scalar <;> cases content <;> first | rfl | cases hvalue

theorem Runtime.standard_conforms : standard.Conforms := by
  refine ⟨fun _ _ => rfl, ?_, ?_⟩
  · intro scalar content value rest hvalid hvalue
    have hread := Content.read_bytes hvalid rest
    rw [Scalar.wireType_of_value? hvalue] at hread
    rw [standard]
    dsimp only
    rw [hread]
    dsimp only
    rw [hvalue]
  · intro content rest hvalid
    rw [standard]
    dsimp only
    rw [Content.read_bytes hvalid]
    rfl

/-! ## Entries of maps -/

/-- The field assigns the key or the value of an entry, or is unknown. -/
inductive EntryMeans : Field → (String × String → String × String) → Prop where
  | key (content : Content) (hvalid : content.Valid) (key : String)
      (hkey : Scalar.string.value? content = some key) :
      EntryMeans ⟨1, content⟩ fun entry => (key, entry.2)
  | value (content : Content) (hvalid : content.Valid) (value : String)
      (hvalue : Scalar.string.value? content = some value) :
      EntryMeans ⟨2, content⟩ fun entry => (entry.1, value)
  | unknown (field : Field) (hvalid : field.Valid) (hkey : field.number ≠ 1)
      (hvalue : field.number ≠ 2) : EntryMeans field id

def entryFields (entry : String × String) : List Field :=
  [⟨1, Scalar.string.content entry.1⟩, ⟨2, Scalar.string.content entry.2⟩]

/-! ## Members -/

/-- What a member holds: a scalar, or an entry of a map from strings to strings. -/
inductive Kind where
  | scalar (type : Scalar)
  | entry
deriving DecidableEq

namespace Kind

abbrev Value : Kind → Type
  | .scalar type => type.Value
  | .entry => String × String

def wireType : Kind → Nat
  | .scalar type => type.wireType
  | .entry => 2

def content : (kind : Kind) → kind.Value → Content
  | .scalar type, value => type.content value
  | .entry, value => .delimited (bytes (entryFields value))

/-- The content has the value. -/
def Means : (kind : Kind) → Content → kind.Value → Prop
  | .scalar type, content, value => type.value? content = some value
  | .entry, content, value => ∃ fields updates, content = .delimited (bytes fields) ∧
      List.Forall₂ EntryMeans fields updates ∧ value = applyAll updates ("", "")

end Kind

/-- A member of a class: the values that are written of it, and what a value that is read
makes of the message. -/
structure Member (Message : Type) where
  id : Nat
  kind : Kind
  values : Message → List kind.Value
  assign : Message → kind.Value → Message

section

variable {Message : Type} (members : List (Member Message))

/-- What a field does to a message: it assigns a member, or is unknown. -/
inductive Means : Field → (Message → Message) → Prop where
  | known (member : Member Message) (hmem : member ∈ members) (content : Content)
      (hvalid : content.Valid) (value : member.kind.Value)
      (hmeans : member.kind.Means content value) :
      Means ⟨member.id, content⟩ fun message => member.assign message value
  | unknown (field : Field) (hvalid : field.Valid)
      (hunknown : ∀ member ∈ members, member.id ≠ field.number) : Means field id

/-- The members have different numbers, none of them 0. -/
structure Numbered : Prop where
  nodup : (members.map Member.id).Nodup
  id_pos : ∀ member ∈ members, 0 < member.id
  id_lt : ∀ member ∈ members, member.id < 2 ^ 29

/-- The fields that are written of a message. -/
def fieldsOf (message : Message) : List Field :=
  members.flatMap fun member =>
    (member.values message).map fun value => ⟨member.id, member.kind.content value⟩

/-- What the fields of a message do. -/
def updatesOf (message : Message) : List (Message → Message) :=
  members.flatMap fun member =>
    (member.values message).map fun value message => member.assign message value

end

namespace Runtime

variable (runtime : Runtime)

/-- What has been written since a `fork` gets its length in front. -/
def ldelim (body : List UInt8) : List UInt8 :=
  runtime.write .uint32 (UInt32.ofNat body.length) ++ body

def readTag (bytes : List UInt8) : Except String (Nat × List UInt8) :=
  (runtime.read .uint32 bytes).map fun (tag, rest) => (tag.toNat, rest)

def entryReader : Reader (String × String) String where
  tag := runtime.readTag
  content tag bytes entry :=
    match tag >>> 3 with
    | 1 => (runtime.read .string bytes).map fun (key, rest) => ((key, entry.2), rest)
    | 2 => (runtime.read .string bytes).map fun (value, rest) => ((entry.1, value), rest)
    | _ => (runtime.skipType (tag &&& 7) bytes).map fun rest => (entry, rest)

def writeKind : (kind : Kind) → kind.Value → List UInt8
  | .scalar type, value => runtime.write type value
  | .entry, (key, value) =>
      runtime.ldelim (runtime.write .uint32 10 ++ runtime.write .string key ++
        runtime.write .uint32 18 ++ runtime.write .string value)

def readKind : (kind : Kind) → List UInt8 → Except String (kind.Value × List UInt8)
  | .scalar type, bytes => runtime.read type bytes
  | .entry, bytes =>
      match runtime.read .uint32 bytes with
      | .error error => .error error
      | .ok (length, rest) =>
          runtime.entryReader.fields length.toNat length.toNat rest ("", "")

variable {Message : Type} (members : List (Member Message))

/-- `encode` of a class. -/
def encode (message : Message) : List UInt8 :=
  members.flatMap fun member => (member.values message).flatMap fun value =>
    runtime.write .uint32 (UInt32.ofNat (member.id * 8 + member.kind.wireType)) ++
      runtime.writeKind member.kind value

def reader : Reader Message String where
  tag := runtime.readTag
  content tag bytes message :=
    match members.find? fun member => member.id = tag >>> 3 with
    | some member =>
        (runtime.readKind member.kind bytes).map fun (value, rest) =>
          (member.assign message value, rest)
    | none => (runtime.skipType (tag &&& 7) bytes).map fun rest => (message, rest)

/-- `decode` of a class, whose constructor gives `new`. -/
def decode (new : Message) (bytes : List UInt8) : Except String Message :=
  ((runtime.reader members).fields bytes.length bytes.length bytes new).map Prod.fst

end Runtime

/-! ## Decoding -/

section

variable {runtime : Runtime} {Message : Type} {members : List (Member Message)}

theorem Runtime.Conforms.readTag (hconforms : runtime.Conforms) {field : Field}
    (htag : field.tag < 2 ^ 32) (rest : List UInt8) :
    runtime.readTag (field.bytes ++ rest) = .ok (field.tag, field.content.bytes ++ rest) := by
  have hread := hconforms.read .uint32 (.varint field.tag) (UInt32.ofNat field.tag)
    (field.content.bytes ++ rest) (Nat.lt_trans htag (by decide)) (Scalar.value?_uint32 htag)
  rw [Content.bytes] at hread
  rw [Runtime.readTag, Field.bytes, List.append_assoc, hread]
  dsimp only [Except.map]
  rw [UInt32.toNat_ofNat', Nat.mod_eq_of_lt htag]

theorem shift_tag (field : Field) : field.tag >>> 3 = field.number := by
  rw [Nat.shiftRight_eq_div_pow]
  exact field.tag_div

theorem mask_tag (field : Field) : field.tag &&& 7 = field.content.wireType :=
  (Nat.and_two_pow_sub_one_eq_mod field.tag 3).trans field.tag_mod

theorem entryMeans_reads (hconforms : runtime.Conforms) {field : Field}
    {update : String × String → String × String} (hmeans : EntryMeans field update) :
    runtime.entryReader.Reads field update := by
  cases hmeans with
  | key content hvalid key hkey =>
      have hfield : (⟨1, content⟩ : Field).Valid := ⟨Nat.one_pos, (by decide : 1 < 2 ^ 29), hvalid⟩
      refine ⟨hconforms.readTag hfield.tag_lt, ?_⟩
      intro rest entry
      simp only [Runtime.entryReader, shift_tag]
      rw [hconforms.read .string content key rest hvalid hkey]
      rfl
  | value content hvalid value hvalue =>
      have hfield : (⟨2, content⟩ : Field).Valid := ⟨Nat.two_pos, (by decide : 2 < 2 ^ 29), hvalid⟩
      refine ⟨hconforms.readTag hfield.tag_lt, ?_⟩
      intro rest entry
      simp only [Runtime.entryReader, shift_tag]
      rw [hconforms.read .string content value rest hvalid hvalue]
      rfl
  | unknown _ hvalid hkey hvalue =>
      refine ⟨hconforms.readTag hvalid.tag_lt, ?_⟩
      intro rest entry
      simp only [Runtime.entryReader, shift_tag, mask_tag]
      rw [hconforms.skipType _ rest hvalid.content]
      rfl

/-- A value is read from a content that has it. -/
theorem Kind.Means.read (hconforms : runtime.Conforms) {kind : Kind} {content : Content}
    {value : kind.Value} (hvalid : content.Valid) (hmeans : kind.Means content value)
    (rest : List UInt8) : runtime.readKind kind (content.bytes ++ rest) = .ok (value, rest) := by
  cases kind with
  | scalar type => exact hconforms.read type content value rest hvalid hmeans
  | entry =>
      obtain ⟨fields, updates, rfl, hfields, rfl⟩ := hmeans
      have hlength : (bytes fields).length < 2 ^ 32 := hvalid
      have hread := hconforms.read .uint32 (.varint (bytes fields).length)
        (UInt32.ofNat (bytes fields).length) (bytes fields ++ rest)
        (Nat.lt_trans hlength (by decide)) (Scalar.value?_uint32 hlength)
      rw [Content.bytes] at hread
      rw [Runtime.readKind, Content.bytes, List.append_assoc, hread]
      dsimp only
      rw [UInt32.toNat_ofNat', Nat.mod_eq_of_lt hlength]
      exact Reader.fields_eq (hfields.imp fun _ _ => entryMeans_reads hconforms) (Nat.le_refl _)
        rest _

theorem Numbered.find? (hnumbered : Numbered members) {member : Member Message}
    (hmem : member ∈ members) :
    (members.find? fun other => other.id = member.id) = some member := by
  have hnodup := hnumbered.nodup
  clear hnumbered
  induction members with
  | nil => cases hmem
  | cons first members ih =>
      rw [List.map_cons, List.nodup_cons] at hnodup
      rcases List.mem_cons.mp hmem with rfl | hlater
      · exact List.find?_cons_of_pos (by simp)
      · have hne : first.id ≠ member.id :=
          fun hsame => hnodup.1 (hsame ▸ List.mem_map_of_mem hlater)
        rw [List.find?_cons_of_neg (by simpa using hne)]
        exact ih hlater hnodup.2

theorem Means.reads (hconforms : runtime.Conforms) (hnumbered : Numbered members) {field : Field}
    {update : Message → Message} (hmeans : Means members field update) :
    (runtime.reader members).Reads field update := by
  cases hmeans with
  | known member hmem content hvalid value hvalue =>
      have hfield : (⟨member.id, content⟩ : Field).Valid := 
        ⟨hnumbered.id_pos member hmem, hnumbered.id_lt member hmem, hvalid⟩
      refine ⟨hconforms.readTag hfield.tag_lt, ?_⟩
      intro rest message
      simp only [Runtime.reader, shift_tag]
      rw [hnumbered.find? hmem]
      dsimp only
      rw [hvalue.read hconforms hvalid]
      rfl
  | unknown _ hvalid hunknown =>
      refine ⟨hconforms.readTag hvalid.tag_lt, ?_⟩
      intro rest message
      have hnone : (members.find? fun member => member.id = field.number) = none := by
        rw [List.find?_eq_none]
        intro member hmem
        simpa using hunknown member hmem
      simp only [Runtime.reader, shift_tag, mask_tag]
      rw [hnone]
      dsimp only
      rw [hconforms.skipType _ rest hvalid.content]
      rfl

/-- A row of fields is decoded into what the fields do, one after the other. -/
theorem decode_bytes (hconforms : runtime.Conforms) (hnumbered : Numbered members)
    {fields : List Field} {updates : List (Message → Message)}
    (hmeans : List.Forall₂ (Means members) fields updates) (new : Message) :
    runtime.decode members new (bytes fields) = .ok (applyAll updates new) := by
  have hreads := Reader.fields_eq (hmeans.imp fun _ _ => Means.reads hconforms hnumbered)
    (Nat.le_refl _) [] new
  rw [List.append_nil] at hreads
  rw [Runtime.decode, hreads]
  rfl

variable (members) in
/-- The fields of a row that the class knows. -/
def known (fields : List Field) : List Field :=
  fields.filter fun field => field.number ∈ members.map Member.id

/-- What is left of a row means the same when the unknown fields are left out. -/
theorem means_known {fields : List Field} {updates : List (Message → Message)}
    (hmeans : List.Forall₂ (Means members) fields updates) :
    ∃ updates', List.Forall₂ (Means members) (known members fields) updates' ∧
      ∀ message, applyAll updates' message = applyAll updates message := by
  induction hmeans with
  | nil => exact ⟨[], .nil, fun _ => rfl⟩
  | @cons field update fields updates hfield hfields ih =>
      obtain ⟨updates', hmeans', hsame⟩ := ih
      by_cases hknown : field.number ∈ members.map Member.id
      · rw [known, List.filter_cons_of_pos (by simpa using hknown)]
        exact ⟨update :: updates', .cons hfield hmeans', fun message => hsame (update message)⟩
      · rw [known, List.filter_cons_of_neg (by simpa using hknown)]
        refine ⟨updates', hmeans', fun message => ?_⟩
        cases hfield with
        | known member hmem => exact absurd (List.mem_map_of_mem hmem) hknown
        | unknown => exact hsame message

/-! ## Encoding -/

theorem Kind.wireType_content (kind : Kind) (value : kind.Value) :
    (kind.content value).wireType = kind.wireType := by
  cases kind with
  | scalar type => exact type.wireType_content value
  | entry => rfl

theorem length_le_of_delimited (data : List UInt8) :
    data.length ≤ (Content.delimited data).bytes.length := by
  rw [Content.bytes, List.length_append]
  exact Nat.le_add_left _ _

theorem entryFields_means {entry : String × String}
    (hsmall : (bytes (entryFields entry)).length < 2 ^ 32) :
    List.Forall₂ EntryMeans (entryFields entry)
      [fun other => (entry.1, other.2), fun other => (other.1, entry.2)] := by
  have hvalid : ∀ field ∈ entryFields entry, field.content.bytes.length < 2 ^ 32 :=
    fun field hmem => Nat.lt_of_le_of_lt (length_content_le hmem) hsmall
  have hkey := Scalar.string.content_valid entry.1 (hvalid _ List.mem_cons_self)
  have hvalue := Scalar.string.content_valid entry.2
    (hvalid _ (List.mem_cons_of_mem _ List.mem_cons_self))
  exact .cons (.key _ hkey _ (Scalar.value?_content _ _))
    (.cons (.value _ hvalue _ (Scalar.value?_content _ _)) .nil)

theorem Kind.content_valid (kind : Kind) (value : kind.Value)
    (hsmall : (kind.content value).bytes.length < 2 ^ 32) : (kind.content value).Valid := by
  cases kind with
  | scalar type => exact type.content_valid value hsmall
  | entry => exact Nat.lt_of_le_of_lt (length_le_of_delimited _) hsmall

theorem Kind.means_content (kind : Kind) (value : kind.Value)
    (hsmall : (kind.content value).bytes.length < 2 ^ 32) :
    kind.Means (kind.content value) value := by
  cases kind with
  | scalar type => exact type.value?_content value
  | entry =>
      exact ⟨_, _, rfl, entryFields_means (Nat.lt_of_le_of_lt (length_le_of_delimited _) hsmall), rfl⟩

theorem Kind.write_eq (hconforms : runtime.Conforms) (kind : Kind) (value : kind.Value)
    (hsmall : (runtime.writeKind kind value).length < 2 ^ 32) :
    runtime.writeKind kind value = (kind.content value).bytes := by
  cases kind with
  | scalar type => exact hconforms.write type value
  | entry =>
      obtain ⟨key, value⟩ := value
      have hbody : runtime.write .uint32 10 ++ runtime.write .string key ++
          runtime.write .uint32 18 ++ runtime.write .string value =
            bytes (entryFields (key, value)) := by
        rw [hconforms.write, hconforms.write, hconforms.write, hconforms.write, entryFields, bytes_cons,
          bytes_cons, bytes_nil, List.append_nil, Field.bytes, Field.bytes, List.append_assoc,
          List.append_assoc, List.append_assoc]
        rfl
      rw [Runtime.writeKind, hbody, Runtime.ldelim] at hsmall ⊢
      rw [List.length_append] at hsmall
      have hlength : (bytes (entryFields (key, value))).length < 2 ^ 32 := by omega
      rw [hconforms.write]
      change Varint.encode (UInt32.ofNat (bytes (entryFields (key, value))).length).toNat ++ _ = _
      rw [UInt32.toNat_ofNat', Nat.mod_eq_of_lt hlength]
      rfl

theorem length_le_flatMap {Item Part : Type} {items : List Item} {item : Item}
    (hmem : item ∈ items) (parts : Item → List Part) :
    (parts item).length ≤ (items.flatMap parts).length :=
  (List.sublist_flatten_of_mem (List.mem_map_of_mem hmem)).length_le

/-- What is written of one value takes no more than the whole message. -/
theorem length_writeKind_le {message : Message} {member : Member Message}
    (hmem : member ∈ members) {value : member.kind.Value} (hvalue : value ∈ member.values message) :
    (runtime.writeKind member.kind value).length ≤ (runtime.encode members message).length := by
  refine Nat.le_trans ?_ (length_le_flatMap hmem _)
  refine Nat.le_trans ?_ (length_le_flatMap hvalue _)
  rw [List.length_append]
  exact Nat.le_add_left _ _

/-- What a class writes are the fields of the message. -/
theorem encode_eq (hconforms : runtime.Conforms) (hnumbered : Numbered members) {message : Message}
    (hsmall : (runtime.encode members message).length < 2 ^ 32) :
    runtime.encode members message = bytes (fieldsOf members message) := by
  have hwritten : ∀ member ∈ members, ∀ value ∈ member.values message,
      runtime.writeKind member.kind value = (member.kind.content value).bytes :=
    fun member hmem value hvalue => Kind.write_eq hconforms _ _
      (Nat.lt_of_le_of_lt (length_writeKind_le hmem hvalue) hsmall)
  rw [Runtime.encode, bytes, fieldsOf, List.flatMap_assoc]
  apply List.flatMap_congr
  intro member hmem
  rw [List.flatMap_map]
  apply List.flatMap_congr
  intro value hvalue
  have htag : member.id * 8 + member.kind.wireType < 2 ^ 32 := by
    have hid := hnumbered.id_lt member hmem
    have htype := (member.kind.content value).wireType_lt
    rw [Kind.wireType_content] at htype
    omega
  rw [hconforms.write, hwritten member hmem value hvalue, Field.bytes, Field.tag,
    Kind.wireType_content]
  change Varint.encode (UInt32.ofNat (member.id * 8 + member.kind.wireType)).toNat ++ _ = _
  rw [UInt32.toNat_ofNat', Nat.mod_eq_of_lt htag]

theorem content_small {message : Message}
    (hsmall : (bytes (fieldsOf members message)).length < 2 ^ 32) {member : Member Message}
    (hmem : member ∈ members) {value : member.kind.Value} (hvalue : value ∈ member.values message) :
    (member.kind.content value).bytes.length < 2 ^ 32 := by
  have hfield : (⟨member.id, member.kind.content value⟩ : Field) ∈ fieldsOf members message :=
    List.mem_flatMap.mpr ⟨member, hmem, List.mem_map.mpr ⟨value, hvalue, rfl⟩⟩
  exact Nat.lt_of_le_of_lt (length_content_le hfield) hsmall

theorem fieldsOf_means {message : Message}
    (hsmall : (bytes (fieldsOf members message)).length < 2 ^ 32) :
    List.Forall₂ (Means members) (fieldsOf members message) (updatesOf members message) := by
  have hmembers : ∀ others ⊆ members, List.Forall₂ (Means members) (fieldsOf others message)
      (updatesOf others message) := by
    intro others hothers
    induction others with
    | nil => exact .nil
    | cons member others ih =>
        obtain ⟨hmem, hrest⟩ := List.cons_subset.mp hothers
        refine List.rel_append ?_ (ih hrest)
        rw [List.forall₂_map_left_iff, List.forall₂_map_right_iff, List.forall₂_same]
        intro value hvalue
        have hcontent := content_small hsmall hmem hvalue
        exact .known member hmem _ (member.kind.content_valid value hcontent) value
          (member.kind.means_content value hcontent)
  exact hmembers members (List.Subset.refl _)

/-- The bytes that a class writes are a row of fields which give the message again, as
far as its values make it up. -/
theorem encode_means (hconforms : runtime.Conforms) (hnumbered : Numbered members)
    {message : Message} (hsmall : (runtime.encode members message).length < 2 ^ 32) :
    runtime.encode members message = bytes (fieldsOf members message) ∧
      List.Forall₂ (Means members) (fieldsOf members message) (updatesOf members message) := by
  have hbytes := encode_eq hconforms hnumbered hsmall
  rw [hbytes] at hsmall
  exact ⟨hbytes, fieldsOf_means hsmall⟩

/-- A message comes back as far as its values make it up. -/
theorem decode_encode (hconforms : runtime.Conforms) (hnumbered : Numbered members)
    {message : Message} (hsmall : (runtime.encode members message).length < 2 ^ 32)
    (new : Message) :
    runtime.decode members new (runtime.encode members message) =
      .ok (applyAll (updatesOf members message) new) := by
  obtain ⟨hbytes, hmeans⟩ := encode_means hconforms hnumbered hsmall
  rw [hbytes]
  exact decode_bytes hconforms hnumbered hmeans new

end

/-! ## Two classes of one message -/

/-- Members of two classes that stand for the same field, and keep a relation between
the messages when they are assigned the same value. -/
inductive Member.Parallel {First Second : Type} (Relates : First → Second → Prop) :
    Member First → Member Second → Prop where
  | mk (id : Nat) (kind : Kind) (values : First → List kind.Value)
      (assign : First → kind.Value → First) (values' : Second → List kind.Value)
      (assign' : Second → kind.Value → Second)
      (hassign : ∀ first second value, Relates first second →
        Relates (assign first value) (assign' second value)) :
      Member.Parallel Relates ⟨id, kind, values, assign⟩ ⟨id, kind, values', assign'⟩

theorem Member.Parallel.flip {First Second : Type} {Relates : First → Second → Prop}
    {member : Member First} {other : Member Second} (hparallel : member.Parallel Relates other) :
    other.Parallel (fun second first => Relates first second) member := by
  cases hparallel with
  | mk id kind values assign values' assign' hassign =>
      exact .mk id kind values' assign' values assign fun second first => hassign first second

section

variable {First Second : Type} {Relates : First → Second → Prop} {members : List (Member First)}
  {others : List (Member Second)}

theorem ids_of_parallel (hparallel : List.Forall₂ (Member.Parallel Relates) members others) :
    members.map Member.id = others.map Member.id := by
  induction hparallel with
  | nil => rfl
  | cons hmember _ ih =>
      cases hmember
      rw [List.map_cons, List.map_cons, ih]

/-- A field means the same to both classes. -/
theorem Means.parallel (hparallel : List.Forall₂ (Member.Parallel Relates) members others)
    {field : Field} {update : First → First} (hmeans : Means members field update) :
    ∃ update', Means others field update' ∧
      ∀ first second, Relates first second → Relates (update first) (update' second) := by
  cases hmeans with
  | known member hmem content hvalid value hmeans =>
      obtain ⟨other, hother, hmember⟩ : ∃ other ∈ others, Member.Parallel Relates member other := by
        induction hparallel with
        | nil => cases hmem
        | cons hfirst hrest ih =>
            rcases List.mem_cons.mp hmem with rfl | hlater
            · exact ⟨_, List.mem_cons_self, hfirst⟩
            · obtain ⟨other, hother, hmember⟩ := ih hlater
              exact ⟨other, List.mem_cons_of_mem _ hother, hmember⟩
      cases hmember with
      | mk id kind values assign values' assign' hassign =>
          exact ⟨_, .known _ hother content hvalid value hmeans,
            fun first second hrelates => hassign first second value hrelates⟩
  | unknown _ hvalid hunknown =>
      refine ⟨id, .unknown field hvalid ?_, fun _ _ hrelates => hrelates⟩
      intro other hother
      have hid : other.id ∈ others.map Member.id := List.mem_map_of_mem hother
      rw [← ids_of_parallel hparallel] at hid
      obtain ⟨member, hmem, hsame⟩ := List.mem_map.mp hid
      rw [← hsame]
      exact hunknown member hmem

/-- A row of fields means the same to both classes. -/
theorem means_parallel (hparallel : List.Forall₂ (Member.Parallel Relates) members others)
    {fields : List Field} {updates : List (First → First)}
    (hmeans : List.Forall₂ (Means members) fields updates) :
    ∃ updates', List.Forall₂ (Means others) fields updates' ∧ ∀ first second,
      Relates first second → Relates (applyAll updates first) (applyAll updates' second) := by
  induction hmeans with
  | nil => exact ⟨[], .nil, fun _ _ hrelates => hrelates⟩
  | cons hfield hfields ih =>
      obtain ⟨update', hupdate', hrelate⟩ := hfield.parallel hparallel
      obtain ⟨updates', hupdates', hrest⟩ := ih
      exact ⟨update' :: updates', .cons hupdate' hupdates',
        fun first second hrelates => hrest _ _ (hrelate _ _ hrelates)⟩

end

/-! ## Restored messages -/

section

variable {Message : Type} {member : Member Message} {members : List (Member Message)}
  {message before : Message}

theorem applyAll_updatesOf_nil : applyAll (updatesOf [] message) before = before := rfl

/-- The members are restored one after the other. -/
theorem applyAll_updatesOf_cons {middle : Message}
    (hmember : applyAll ((member.values message).map fun value message =>
      member.assign message value) before = middle) :
    applyAll (updatesOf (member :: members) message) before =
      applyAll (updatesOf members message) middle := by
  rw [updatesOf, List.flatMap_cons, applyAll_append, hmember]
  rfl

end

end Protobuf
