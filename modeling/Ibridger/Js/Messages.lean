import Ibridger.Js.StringRecord
import Ibridger.Wire.Messages

/-! # The generated classes

`proto.js`. An object of a class is known by its own properties; what it does not have
itself it takes from the prototype. `encode` writes own properties only, and `decode`
gives an object those that it finds.
-/

namespace Ibridger.Js

open Protobuf TaggedFields

/-- A member that is written if it is an own property, and that the last value read
is assigned to. -/
def own {Message : Type} (id : Nat) (type : Scalar) (get : Message → Option type.Value)
    (set : Message → type.Value → Message) : Member Message where
  id := id
  kind := .scalar type
  values message := (get message).toList
  assign := set

theorem applyAll_updatesOf_own {Message : Type} {id : Nat} (type : Scalar)
    {get : Message → Option type.Value} {set : Message → type.Value → Message}
    {members : List (Member Message)} {message before : Message}
    (put : Message → Option type.Value → Message)
    (hset : ∀ message value, set message value = put message (some value))
    (hdefault : put before none = before) :
    applyAll (updatesOf (own id type get set :: members) message) before =
      applyAll (updatesOf members message) (put before (get message)) := by
  apply applyAll_updatesOf_cons
  change applyAll ((get message).toList.map _) before = _
  cases get message with
  | none => exact hdefault.symm
  | some value => exact hset before value

structure IEnvelope where
  type : Option Int32 := none
  requestId : Option UInt64 := none
  serviceName : Option String := none
  methodName : Option String := none
  payload : Option (List UInt8) := none
  status : Option Int32 := none
  errorMessage : Option String := none
  metadata : Option StringRecord := none
deriving DecidableEq

namespace Proto.Envelope

/-- `new Envelope(properties)` -/
def create (properties : IEnvelope) : IEnvelope :=
  { properties with metadata := some (properties.metadata.getD .empty) }

/-- `message.metadata[key] = value` -/
def setEntry (message : IEnvelope) (entry : String × String) : IEnvelope :=
  { message with metadata := some ((message.metadata.getD .empty).set entry.1 entry.2) }

/-- `metadata`, one entry at a time. -/
def metadataMember : Member IEnvelope where
  id := 8
  kind := .entry
  values message := (message.metadata.map StringRecord.entries).getD []
  assign := setEntry

def members : List (Member IEnvelope) :=
  [own 1 .int32 IEnvelope.type fun message type => { message with type := some type },
    own 2 .uint64 IEnvelope.requestId fun message id => { message with requestId := some id },
    own 3 .string IEnvelope.serviceName fun message name =>
      { message with serviceName := some name },
    own 4 .string IEnvelope.methodName fun message name => { message with methodName := some name },
    own 5 .bytes IEnvelope.payload fun message payload => { message with payload := some payload },
    own 6 .int32 IEnvelope.status fun message status => { message with status := some status },
    own 7 .string IEnvelope.errorMessage fun message text =>
      { message with errorMessage := some text },
    metadataMember]

/-- The tags as they stand in `encode`. -/
example : members.map (fun member => member.id * 8 + member.kind.wireType) =
    [8, 16, 26, 34, 42, 48, 58, 66] := rfl

def encode (runtime : Runtime) (message : IEnvelope) : List UInt8 :=
  runtime.encode members message

def decode (runtime : Runtime) (bytes : List UInt8) : Except String IEnvelope :=
  runtime.decode members (create {}) bytes

theorem numbered : Numbered members where
  nodup := by decide
  id_pos := by decide
  id_lt := by decide

theorem foldl_setEntry (entries : List (String × String)) {message : IEnvelope}
    {record : StringRecord} (hrecord : message.metadata = some record) :
    entries.foldl setEntry message =
      { message with
        metadata := some (entries.foldl (fun record entry => record.set entry.1 entry.2) record) } := by
  induction entries generalizing message record with
  | nil => rw [List.foldl_nil, List.foldl_nil, ← hrecord]
  | cons entry entries ih =>
      have hentry : (setEntry message entry).metadata = some (record.set entry.1 entry.2) := by
        rw [setEntry, hrecord, Option.getD_some]
      rw [List.foldl_cons, ih hentry, List.foldl_cons]
      rfl

/-- The entry under `__proto__` is assigned to no property. -/
theorem applyAll_updatesOf_metadata (message : IEnvelope) {before : IEnvelope}
    (hnew : before.metadata = some .empty) :
    applyAll (updatesOf [metadataMember] message) before =
      { before with metadata := some ((message.metadata.getD .empty).erase "__proto__") } := by
  have hentries : (message.metadata.map StringRecord.entries).getD [] =
      (message.metadata.getD .empty).entries := by
    cases message.metadata <;> rfl
  refine Eq.trans (applyAll_updatesOf_cons rfl) ?_
  change applyAll (((message.metadata.map StringRecord.entries).getD []).map
    fun entry message => setEntry message entry) before = _
  rw [hentries, applyAll, List.foldl_map]
  refine Eq.trans (foldl_setEntry _ hnew) ?_
  rw [StringRecord.foldl_set]

/-- The fields of an object give its own properties to a new one. -/
theorem applyAll_updatesOf (message : IEnvelope) :
    applyAll (updatesOf members message) (create {}) =
      { message with metadata := some ((message.metadata.getD .empty).erase "__proto__") } := by
  unfold members
  refine Eq.trans (applyAll_updatesOf_own .int32
    (fun (message : IEnvelope) type => { message with type := type }) (fun _ _ => rfl) rfl) ?_
  refine Eq.trans (applyAll_updatesOf_own .uint64
    (fun (message : IEnvelope) id => { message with requestId := id }) (fun _ _ => rfl) rfl) ?_
  refine Eq.trans (applyAll_updatesOf_own .string
    (fun (message : IEnvelope) name => { message with serviceName := name }) (fun _ _ => rfl) rfl) ?_
  refine Eq.trans (applyAll_updatesOf_own .string
    (fun (message : IEnvelope) name => { message with methodName := name }) (fun _ _ => rfl) rfl) ?_
  refine Eq.trans (applyAll_updatesOf_own .bytes
    (fun (message : IEnvelope) payload => { message with payload := payload }) (fun _ _ => rfl) rfl) ?_
  refine Eq.trans (applyAll_updatesOf_own .int32
    (fun (message : IEnvelope) status => { message with status := status }) (fun _ _ => rfl) rfl) ?_
  refine Eq.trans (applyAll_updatesOf_own .string
    (fun (message : IEnvelope) text => { message with errorMessage := text }) (fun _ _ => rfl) rfl) ?_
  exact applyAll_updatesOf_metadata _ rfl

/-- An object comes back from the bytes that are written of it, but for a metadata entry
under `__proto__`. -/
theorem object_comes_back {runtime : Runtime} (hconforms : runtime.Conforms) (message : IEnvelope)
    (hsmall : (encode runtime message).length < 2 ^ 32) :
    decode runtime (encode runtime message) =
      .ok { message with metadata := some ((message.metadata.getD .empty).erase "__proto__") } := by
  rw [decode, encode, Protobuf.decode_encode hconforms numbered hsmall, applyAll_updatesOf]

theorem metadata_comes_back :
    decode .standard (encode .standard
      (create { requestId := some 1, metadata := some (StringRecord.empty.set "user" "7") })) =
      .ok { requestId := some 1
            metadata := some ((StringRecord.empty.set "user" "7").erase "__proto__") } :=
  object_comes_back Runtime.standard_conforms _ (by decide)

end Proto.Envelope

/-! ## What an object shows -/

/-- What is read from the properties of an object, with the defaults of the prototype. -/
def IEnvelope.envelope (message : IEnvelope) : Wire.Envelope where
  type := .ofNumber (message.type.getD 0)
  requestId := message.requestId.getD 0
  serviceName := message.serviceName.getD ""
  methodName := message.methodName.getD ""
  payload := message.payload.getD []
  status := .ofNumber (message.status.getD 0)
  errorMessage := message.errorMessage.getD ""
  metadata := (message.metadata.getD .empty).entries

/-- The object shows the envelope, but for metadata under `__proto__`. -/
def IEnvelope.Shows (message : IEnvelope) (envelope : Wire.Envelope) : Prop :=
  message.envelope.SameBut ["__proto__"] envelope

/-- The object shows the envelope, and no metadata if the envelope has none. -/
structure IEnvelope.Follows (message : IEnvelope) (envelope : Wire.Envelope) : Prop where
  shown : message.Shows envelope
  plain : envelope.metadata = [] → message.envelope.metadata = []

namespace Proto.Envelope

theorem setEntry_follows {message : IEnvelope} {envelope : Wire.Envelope}
    (hfollows : message.Follows envelope) (entry : String × String) :
    (setEntry message entry).Follows (envelope.assignMetadata entry) := by
  obtain ⟨hshows, -⟩ := hfollows
  refine ⟨{ hshows with lookup_eq := ?_ },
    fun hnone => absurd hnone (List.append_ne_nil_of_right_ne_nil _ (List.cons_ne_nil _ _))⟩
  intro key hkey
  have hne : key ≠ "__proto__" := fun hsame => hkey (hsame ▸ List.mem_singleton_self _)
  have hbefore := hshows.lookup_eq key hkey
  rw [Wire.Envelope.lookup_assignMetadata]
  change ((message.metadata.getD .empty).set entry.1 entry.2).get? key = _
  by_cases hproto : entry.1 = "__proto__"
  · rw [hproto, if_neg hne, StringRecord.set, if_pos rfl]
    exact hbefore
  · rw [StringRecord.get?_set _ _ hproto, ← hbefore]
    rfl

/-- The class and `envelope.proto` agree on every field. -/
theorem parallel :
    List.Forall₂ (Member.Parallel IEnvelope.Follows) members Wire.Envelope.members :=
  .cons (.mk _ _ _ _ _ _ fun _ _ _ hfollows =>
      ⟨{ hfollows.shown with type_eq := rfl }, hfollows.plain⟩)
    (.cons (.mk _ _ _ _ _ _ fun _ _ _ hfollows =>
      ⟨{ hfollows.shown with requestId_eq := rfl }, hfollows.plain⟩)
    (.cons (.mk _ _ _ _ _ _ fun _ _ _ hfollows =>
      ⟨{ hfollows.shown with serviceName_eq := rfl }, hfollows.plain⟩)
    (.cons (.mk _ _ _ _ _ _ fun _ _ _ hfollows =>
      ⟨{ hfollows.shown with methodName_eq := rfl }, hfollows.plain⟩)
    (.cons (.mk _ _ _ _ _ _ fun _ _ _ hfollows =>
      ⟨{ hfollows.shown with payload_eq := rfl }, hfollows.plain⟩)
    (.cons (.mk _ _ _ _ _ _ fun _ _ _ hfollows =>
      ⟨{ hfollows.shown with status_eq := rfl }, hfollows.plain⟩)
    (.cons (.mk _ _ _ _ _ _ fun _ _ _ hfollows =>
      ⟨{ hfollows.shown with errorMessage_eq := rfl }, hfollows.plain⟩)
    (.cons (.mk _ _ _ _ _ _ fun _ _ entry hfollows => setEntry_follows hfollows entry) .nil)))))))

end Proto.Envelope

/-! ## Payloads -/

structure IPing where
  clientId : Option String := none
deriving DecidableEq

structure IPong where
  serverId : Option String := none
  timestampMs : Option Int64 := none
deriving DecidableEq

structure IServiceDescriptor where
  name : Option String := none
  methods : Option (List String) := none
deriving DecidableEq

structure IEchoRequest where
  message : Option String := none
deriving DecidableEq

structure IEchoResponse where
  message : Option String := none
  timestampMs : Option Int64 := none
deriving DecidableEq

namespace Proto

variable (runtime : Runtime)

namespace Ping

def members : List (Member IPing) :=
  [own 1 .string IPing.clientId fun message id => { message with clientId := some id }]

def encode (message : IPing) : List UInt8 :=
  runtime.encode members message

def decode (bytes : List UInt8) : Except String IPing :=
  runtime.decode members {} bytes

theorem numbered : Numbered members where
  nodup := by decide
  id_pos := by decide
  id_lt := by decide

theorem applyAll_updatesOf (message : IPing) : applyAll (updatesOf members message) {} = message := by
  unfold members
  exact applyAll_updatesOf_own .string
    (fun (message : IPing) id => { message with clientId := id }) (fun _ _ => rfl) rfl

end Ping

namespace Pong

def members : List (Member IPong) :=
  [own 1 .string IPong.serverId fun message id => { message with serverId := some id },
    own 2 .int64 IPong.timestampMs fun message ms => { message with timestampMs := some ms }]

def encode (message : IPong) : List UInt8 :=
  runtime.encode members message

def decode (bytes : List UInt8) : Except String IPong :=
  runtime.decode members {} bytes

theorem numbered : Numbered members where
  nodup := by decide
  id_pos := by decide
  id_lt := by decide

theorem applyAll_updatesOf (message : IPong) : applyAll (updatesOf members message) {} = message := by
  unfold members
  refine Eq.trans (applyAll_updatesOf_own .string
    (fun (message : IPong) id => { message with serverId := id }) (fun _ _ => rfl) rfl) ?_
  exact applyAll_updatesOf_own .int64
    (fun (message : IPong) ms => { message with timestampMs := ms }) (fun _ _ => rfl) rfl

end Pong

namespace ServiceDescriptor

/-- `new ServiceDescriptor(properties)` -/
def create (properties : IServiceDescriptor) : IServiceDescriptor :=
  { properties with methods := some (properties.methods.getD []) }

def pushMethod (message : IServiceDescriptor) (method : String) : IServiceDescriptor :=
  { message with methods := some (message.methods.getD [] ++ [method]) }

def members : List (Member IServiceDescriptor) :=
  [own 1 .string IServiceDescriptor.name fun message name => { message with name := some name },
    { id := 2
      kind := .scalar .string
      values := fun message => message.methods.getD []
      assign := pushMethod }]

def encode (message : IServiceDescriptor) : List UInt8 :=
  runtime.encode members message

def decode (bytes : List UInt8) : Except String IServiceDescriptor :=
  runtime.decode members (create {}) bytes

theorem numbered : Numbered members where
  nodup := by decide
  id_pos := by decide
  id_lt := by decide

theorem foldl_pushMethod (before methods : List String) {message : IServiceDescriptor}
    (hbefore : message.methods = some before) :
    methods.foldl pushMethod message = { message with methods := some (before ++ methods) } := by
  induction methods generalizing message before with
  | nil => rw [List.foldl_nil, List.append_nil, ← hbefore]
  | cons method methods ih =>
      have hpush : (pushMethod message method).methods = some (before ++ [method]) := by
        rw [pushMethod, hbefore, Option.getD_some]
      rw [List.foldl_cons, ih _ hpush, List.append_assoc]
      rfl

theorem applyAll_updatesOf (message : IServiceDescriptor) :
    applyAll (updatesOf members message) (create {}) = create message := by
  unfold members
  refine Eq.trans (applyAll_updatesOf_own .string
    (fun (message : IServiceDescriptor) name => { message with name := name }) (fun _ _ => rfl)
    rfl) ?_
  refine Eq.trans (applyAll_updatesOf_cons rfl) ?_
  change applyAll ((message.methods.getD []).map fun method message => pushMethod message method) _ = _
  rw [applyAll, List.foldl_map]
  exact foldl_pushMethod [] _ (by rfl)

end ServiceDescriptor

namespace EchoRequest

def members : List (Member IEchoRequest) :=
  [own 1 .string IEchoRequest.message fun message text => { message with message := some text }]

def encode (message : IEchoRequest) : List UInt8 :=
  runtime.encode members message

def decode (bytes : List UInt8) : Except String IEchoRequest :=
  runtime.decode members {} bytes

theorem numbered : Numbered members where
  nodup := by decide
  id_pos := by decide
  id_lt := by decide

theorem applyAll_updatesOf (message : IEchoRequest) :
    applyAll (updatesOf members message) {} = message := by
  unfold members
  exact applyAll_updatesOf_own .string
    (fun (message : IEchoRequest) text => { message with message := text }) (fun _ _ => rfl) rfl

end EchoRequest

namespace EchoResponse

def members : List (Member IEchoResponse) :=
  [own 1 .string IEchoResponse.message fun message text => { message with message := some text },
    own 2 .int64 IEchoResponse.timestampMs fun message ms => { message with timestampMs := some ms }]

def encode (message : IEchoResponse) : List UInt8 :=
  runtime.encode members message

def decode (bytes : List UInt8) : Except String IEchoResponse :=
  runtime.decode members {} bytes

theorem numbered : Numbered members where
  nodup := by decide
  id_pos := by decide
  id_lt := by decide

theorem applyAll_updatesOf (message : IEchoResponse) :
    applyAll (updatesOf members message) {} = message := by
  unfold members
  refine Eq.trans (applyAll_updatesOf_own .string
    (fun (message : IEchoResponse) text => { message with message := text }) (fun _ _ => rfl) rfl) ?_
  exact applyAll_updatesOf_own .int64
    (fun (message : IEchoResponse) ms => { message with timestampMs := ms }) (fun _ _ => rfl) rfl

end EchoResponse

variable {runtime}

/-- The messages of the payloads come back from what is written of them. -/
theorem payloads_decode_encode (hconforms : runtime.Conforms) :
    (∀ ping : IPing, (Ping.encode runtime ping).length < 2 ^ 32 →
      Ping.decode runtime (Ping.encode runtime ping) = .ok ping) ∧
    (∀ pong : IPong, (Pong.encode runtime pong).length < 2 ^ 32 →
      Pong.decode runtime (Pong.encode runtime pong) = .ok pong) ∧
    (∀ service : IServiceDescriptor, (ServiceDescriptor.encode runtime service).length < 2 ^ 32 →
      ServiceDescriptor.decode runtime (ServiceDescriptor.encode runtime service) =
        .ok (ServiceDescriptor.create service)) ∧
    (∀ request : IEchoRequest, (EchoRequest.encode runtime request).length < 2 ^ 32 →
      EchoRequest.decode runtime (EchoRequest.encode runtime request) = .ok request) ∧
    (∀ response : IEchoResponse, (EchoResponse.encode runtime response).length < 2 ^ 32 →
      EchoResponse.decode runtime (EchoResponse.encode runtime response) = .ok response) := by
  refine ⟨?_, ?_, ?_, ?_, ?_⟩
  · intro ping hsmall
    exact (Protobuf.decode_encode hconforms Ping.numbered hsmall {}).trans
      (congrArg Except.ok (Ping.applyAll_updatesOf ping))
  · intro pong hsmall
    exact (Protobuf.decode_encode hconforms Pong.numbered hsmall {}).trans
      (congrArg Except.ok (Pong.applyAll_updatesOf pong))
  · intro service hsmall
    exact (Protobuf.decode_encode hconforms ServiceDescriptor.numbered hsmall _).trans
      (congrArg Except.ok (ServiceDescriptor.applyAll_updatesOf service))
  · intro request hsmall
    exact (Protobuf.decode_encode hconforms EchoRequest.numbered hsmall {}).trans
      (congrArg Except.ok (EchoRequest.applyAll_updatesOf request))
  · intro response hsmall
    exact (Protobuf.decode_encode hconforms EchoResponse.numbered hsmall {}).trans
      (congrArg Except.ok (EchoResponse.applyAll_updatesOf response))

theorem ping_comes_back :
    Ping.decode .standard (Ping.encode .standard { clientId := some "cli" }) =
      .ok { clientId := some "cli" } :=
  (payloads_decode_encode Runtime.standard_conforms).1 _ (by decide)

end Proto

end Ibridger.Js
