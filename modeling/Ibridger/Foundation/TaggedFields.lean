import Ibridger.Foundation.Varint
import Mathlib.Algebra.Ring.Nat

/-! # Messages of tagged fields

A message is a row of fields, each behind a tag with its number and with the way to find
its end. So a reader can take the fields it knows, in any order and any number of times,
and step over the others.
-/

namespace TaggedFields

/-- What a field holds, as far as its tag tells. -/
inductive Content where
  | varint (n : Nat)
  | fixed64 (bytes : List UInt8)
  | delimited (bytes : List UInt8)
  | fixed32 (bytes : List UInt8)
deriving DecidableEq

namespace Content

def wireType : Content → Nat
  | varint _ => 0
  | fixed64 _ => 1
  | delimited _ => 2
  | fixed32 _ => 5

def bytes : Content → List UInt8
  | varint n => Varint.encode n
  | fixed64 bytes => bytes
  | delimited bytes => Varint.encode bytes.length ++ bytes
  | fixed32 bytes => bytes

def Valid : Content → Prop
  | varint n => n < 2 ^ 64
  | fixed64 bytes => bytes.length = 8
  | delimited bytes => bytes.length < 2 ^ 32
  | fixed32 bytes => bytes.length = 4

instance : DecidablePred Valid := fun content =>
  match content with
  | varint n => inferInstanceAs (Decidable (n < 2 ^ 64))
  | fixed64 bytes => inferInstanceAs (Decidable (bytes.length = 8))
  | delimited bytes => inferInstanceAs (Decidable (bytes.length < 2 ^ 32))
  | fixed32 bytes => inferInstanceAs (Decidable (bytes.length = 4))

theorem wireType_lt (content : Content) : content.wireType < 8 := by
  cases content <;> simp [wireType]

/-- The first bytes, if there are so many. -/
def split (length : Nat) (bytes : List UInt8) : Except String (List UInt8 × List UInt8) :=
  if length ≤ bytes.length then .ok (bytes.take length, bytes.drop length)
  else .error "index out of range"

/-- Read a content of this wire type. -/
def read : Nat → List UInt8 → Except String (Content × List UInt8)
  | 0, bytes =>
      match Varint.decode bytes with
      | none => .error "index out of range"
      | some (n, rest) => .ok (.varint n, rest)
  | 1, bytes => (split 8 bytes).map fun (data, rest) => (.fixed64 data, rest)
  | 2, bytes =>
      match Varint.decode bytes with
      | none => .error "index out of range"
      | some (length, rest) =>
          (split length rest).map fun (data, rest) => (.delimited data, rest)
  | 5, bytes => (split 4 bytes).map fun (data, rest) => (.fixed32 data, rest)
  | _, _ => .error "invalid wire type"

theorem split_append (data rest : List UInt8) :
    split data.length (data ++ rest) = .ok (data, rest) := by
  rw [split, if_pos (by rw [List.length_append]; exact Nat.le_add_right _ _), List.take_left,
    List.drop_left]

theorem read_bytes {content : Content} (hvalid : content.Valid) (rest : List UInt8) :
    read content.wireType (content.bytes ++ rest) = .ok (content, rest) := by
  cases content with
  | varint n =>
      rw [bytes, wireType, read, Varint.decode_encode]
  | fixed64 data =>
      have hlength : data.length = 8 := hvalid
      rw [bytes, wireType, read, ← hlength, split_append]
      rfl
  | delimited data =>
      rw [bytes, wireType, read, List.append_assoc, Varint.decode_encode]
      dsimp only
      rw [split_append]
      rfl
  | fixed32 data =>
      have hlength : data.length = 4 := hvalid
      rw [bytes, wireType, read, ← hlength, split_append]
      rfl

end Content

structure Field where
  number : Nat
  content : Content
deriving DecidableEq

namespace Field

def tag (field : Field) : Nat :=
  field.number * 8 + field.content.wireType

def bytes (field : Field) : List UInt8 :=
  Varint.encode field.tag ++ field.content.bytes

structure Valid (field : Field) : Prop where
  number_pos : 0 < field.number
  number_lt : field.number < 2 ^ 29
  content : field.content.Valid

theorem tag_div (field : Field) : field.tag / 8 = field.number := by
  have hwire := field.content.wireType_lt
  rw [tag]
  omega

theorem tag_mod (field : Field) : field.tag % 8 = field.content.wireType := by
  have hwire := field.content.wireType_lt
  rw [tag]
  omega

theorem Valid.tag_lt {field : Field} (hvalid : field.Valid) : field.tag < 2 ^ 32 := by
  have hnumber := hvalid.number_lt
  have hwire := field.content.wireType_lt
  rw [tag]
  omega

theorem length_bytes_pos (field : Field) : 0 < field.bytes.length := by
  rw [bytes, List.length_append]
  exact Nat.add_pos_left (List.length_pos_of_ne_nil (Varint.encode_ne_nil _)) _

end Field

/-- The bytes of a message. -/
def bytes (fields : List Field) : List UInt8 :=
  fields.flatMap Field.bytes

@[simp] theorem bytes_nil : bytes [] = [] := rfl

@[simp] theorem bytes_cons (field : Field) (fields : List Field) :
    bytes (field :: fields) = field.bytes ++ bytes fields := List.flatMap_cons

theorem bytes_append (first second : List Field) :
    bytes (first ++ second) = bytes first ++ bytes second := List.flatMap_append

theorem length_content_le {fields : List Field} {field : Field} (hmem : field ∈ fields) :
    field.content.bytes.length ≤ (bytes fields).length := by
  obtain ⟨before, after, rfl⟩ := List.append_of_mem hmem
  rw [bytes_append, bytes_cons, Field.bytes, List.length_append, List.length_append,
    List.length_append]
  omega

/-! ## Reading -/

/-- How the tag of a field is read, and what its content makes of the message. -/
structure Reader (Message Error : Type) where
  tag : List UInt8 → Except Error (Nat × List UInt8)
  content : Nat → List UInt8 → Message → Except Error (Message × List UInt8)

/-- One change after the other. -/
def applyAll {Message : Type} (updates : List (Message → Message)) (message : Message) : Message :=
  updates.foldl (fun message update => update message) message

theorem applyAll_append {Message : Type} (first second : List (Message → Message))
    (message : Message) :
    applyAll (first ++ second) message = applyAll second (applyAll first message) :=
  List.foldl_append

namespace Reader

variable {Message Error : Type} (reader : Reader Message Error)

/-- Read fields until `left` bytes have been taken, and no more than `fuel` fields. -/
def fields : Nat → Nat → List UInt8 → Message → Except Error (Message × List UInt8)
  | 0, _, bytes, message => .ok (message, bytes)
  | fuel + 1, left, bytes, message =>
      if left = 0 then .ok (message, bytes)
      else
        match reader.tag bytes with
        | .error error => .error error
        | .ok (tag, behind) =>
            match reader.content tag behind message with
            | .error error => .error error
            | .ok (message, rest) =>
                fields fuel (left - (bytes.length - rest.length)) rest message

/-- The reader takes the field, whatever is behind it, and changes the message by `update`. -/
structure Reads (field : Field) (update : Message → Message) : Prop where
  tag : ∀ rest, reader.tag (field.bytes ++ rest) = .ok (field.tag, field.content.bytes ++ rest)
  content : ∀ rest message, reader.content field.tag (field.content.bytes ++ rest) message =
    .ok (update message, rest)

variable {reader}

/-- A message is read field by field. -/
theorem fields_eq {fields : List Field} {updates : List (Message → Message)}
    (hreads : List.Forall₂ reader.Reads fields updates) {fuel : Nat}
    (hfuel : (bytes fields).length ≤ fuel) (rest : List UInt8) (message : Message) :
    reader.fields fuel (bytes fields).length (bytes fields ++ rest) message =
      .ok (applyAll updates message, rest) := by
  induction hreads generalizing fuel message with
  | nil => cases fuel <;> rfl
  | @cons field update fields updates hfield hfields ih =>
      have hpos := field.length_bytes_pos
      rw [bytes_cons, List.length_append] at hfuel ⊢
      obtain ⟨fuel, rfl⟩ := Nat.exists_eq_add_one_of_ne_zero (Nat.ne_zero_of_lt
        (Nat.lt_of_lt_of_le (Nat.add_pos_left hpos _) hfuel))
      have htaken : field.bytes.length + (bytes fields).length -
          ((field.bytes ++ (bytes fields ++ rest)).length - (bytes fields ++ rest).length) =
            (bytes fields).length := by
        rw [List.length_append]
        omega
      rw [Reader.fields, if_neg (by omega), List.append_assoc, hfield.tag]
      dsimp only
      rw [hfield.content]
      dsimp only
      rw [htaken]
      exact ih (by omega) _

end Reader

end TaggedFields
