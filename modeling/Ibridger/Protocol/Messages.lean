import Ibridger.Cpp.ClientStep
import Ibridger.Js.Envelopes
import Mathlib.Data.List.Flatten

/-! # Envelopes between the two SDKs

An envelope that one SDK writes is read by the other with the same content. The C++
class and the runtime of the JS classes are parameters that follow protobuf.
-/

namespace Ibridger.Protocol

open Protobuf Rpc TaggedFields Wire
open Js.Proto.Envelope (decode encode)

/-- The members of an envelope, with the own properties of an object as values. -/
def showing (message : Js.IEnvelope) : List (Member Envelope) :=
  [Js.own 1 .int32 (fun _ => message.type)
      fun envelope number => { envelope with type := .ofNumber number },
    Js.own 2 .uint64 (fun _ => message.requestId)
      fun envelope id => { envelope with requestId := id },
    Js.own 3 .string (fun _ => message.serviceName)
      fun envelope name => { envelope with serviceName := name },
    Js.own 4 .string (fun _ => message.methodName)
      fun envelope name => { envelope with methodName := name },
    Js.own 5 .bytes (fun _ => message.payload)
      fun envelope payload => { envelope with payload := payload },
    Js.own 6 .int32 (fun _ => message.status)
      fun envelope number => { envelope with status := .ofNumber number },
    Js.own 7 .string (fun _ => message.errorMessage)
      fun envelope text => { envelope with errorMessage := text },
    { id := 8
      kind := .entry
      values := fun _ => (message.metadata.map Js.StringRecord.entries).getD []
      assign := Envelope.assignMetadata }]

theorem showing_parallel (message : Js.IEnvelope) :
    List.Forall₂ (Member.Parallel Eq) (showing message) Envelope.members :=
  .cons (.mk _ _ _ _ _ _ fun _ _ _ hsame => hsame ▸ rfl)
    (.cons (.mk _ _ _ _ _ _ fun _ _ _ hsame => hsame ▸ rfl)
    (.cons (.mk _ _ _ _ _ _ fun _ _ _ hsame => hsame ▸ rfl)
    (.cons (.mk _ _ _ _ _ _ fun _ _ _ hsame => hsame ▸ rfl)
    (.cons (.mk _ _ _ _ _ _ fun _ _ _ hsame => hsame ▸ rfl)
    (.cons (.mk _ _ _ _ _ _ fun _ _ _ hsame => hsame ▸ rfl)
    (.cons (.mk _ _ _ _ _ _ fun _ _ _ hsame => hsame ▸ rfl)
    (.cons (.mk _ _ _ _ _ _ fun _ _ _ hsame => hsame ▸ rfl) .nil)))))))

/-- The fields that are written of an object make up the envelope that it shows. -/
theorem applyAll_showing (message : Js.IEnvelope) :
    applyAll (updatesOf (showing message) .empty) .empty = message.envelope := by
  unfold showing
  refine Eq.trans (Js.applyAll_updatesOf_own .int32 (fun (envelope : Envelope) number =>
    { envelope with type := .ofNumber (number.getD 0) }) (fun _ _ => rfl) rfl) ?_
  refine Eq.trans (Js.applyAll_updatesOf_own .uint64 (fun (envelope : Envelope) id =>
    { envelope with requestId := id.getD 0 }) (fun _ _ => rfl) rfl) ?_
  refine Eq.trans (Js.applyAll_updatesOf_own .string (fun (envelope : Envelope) name =>
    { envelope with serviceName := name.getD "" }) (fun _ _ => rfl) rfl) ?_
  refine Eq.trans (Js.applyAll_updatesOf_own .string (fun (envelope : Envelope) name =>
    { envelope with methodName := name.getD "" }) (fun _ _ => rfl) rfl) ?_
  refine Eq.trans (Js.applyAll_updatesOf_own .bytes (fun (envelope : Envelope) payload =>
    { envelope with payload := payload.getD [] }) (fun _ _ => rfl) rfl) ?_
  refine Eq.trans (Js.applyAll_updatesOf_own .int32 (fun (envelope : Envelope) number =>
    { envelope with status := .ofNumber (number.getD 0) }) (fun _ _ => rfl) rfl) ?_
  refine Eq.trans (Js.applyAll_updatesOf_own .string (fun (envelope : Envelope) text =>
    { envelope with errorMessage := text.getD "" }) (fun _ _ => rfl) rfl) ?_
  have hentries : (message.metadata.map Js.StringRecord.entries).getD [] =
      (message.metadata.getD .empty).entries := by
    cases message.metadata <;> rfl
  refine Eq.trans (applyAll_updatesOf_cons rfl) ?_
  rw [applyAll_updatesOf_nil, hentries, applyAll, List.foldl_map]
  exact Envelope.foldl_assignMetadata _ _ (message.metadata.getD .empty).nodup

section

variable {runtime : Runtime} (hconforms : runtime.Conforms) {format : EnvelopeFormat}
  (hprotobuf : format.Protobuf)

include hconforms

/-- A row of fields is decoded into an object that shows what the fields mean. -/
theorem decode_follows {fields : List Field} {updates : List (Envelope → Envelope)}
    (hmeans : List.Forall₂ (Means Envelope.members) fields updates) :
    ∃ message, decode runtime (bytes fields) = .ok message ∧
      message.Follows (applyAll updates .empty) := by
  have hparallel := Js.Proto.Envelope.parallel.flip.imp fun _ _ h => h.flip
  obtain ⟨updates', hmeans', hrelates⟩ := means_parallel hparallel hmeans
  exact ⟨_, decode_bytes hconforms Js.Proto.Envelope.numbered hmeans' _,
    hrelates .empty (Js.Proto.Envelope.create {}) ⟨.refl _ _, fun _ => rfl⟩⟩

/-- What a JS object is encoded into is a row of fields that mean what it shows. -/
theorem encode_means {message : Js.IEnvelope} (hsmall : (encode runtime message).length < 2 ^ 32) :
    ∃ fields updates, encode runtime message = bytes fields ∧
      List.Forall₂ (Means Envelope.members) fields updates ∧
        applyAll updates .empty = message.envelope := by
  have hbytes : encode runtime message = bytes (fieldsOf (showing message) .empty) :=
    encode_eq hconforms Js.Proto.Envelope.numbered hsmall
  rw [hbytes] at hsmall
  obtain ⟨updates, hmeans, hsame⟩ :=
    means_parallel (showing_parallel message) (fieldsOf_means hsmall)
  exact ⟨_, updates, hbytes, hmeans, (hsame _ _ rfl).symm.trans (applyAll_showing message)⟩

include hprotobuf

theorem decode_of_serialize {envelope : Envelope} (hregular : envelope.Regular)
    {written : List UInt8} (hserialize : format.serialize envelope = some written) :
    ∃ message, decode runtime written = .ok message ∧ message.Shows envelope := by
  obtain ⟨fields, updates, rfl, hmeans, hsame⟩ := hprotobuf.serialize _ _ hregular hserialize
  obtain ⟨message, hdecode, hshows, -⟩ := decode_follows hconforms hmeans
  exact ⟨message, hdecode, hshows.trans (hsame.mono (List.nil_subset _))⟩

theorem parse_of_encode {message : Js.IEnvelope}
    (hfits : (encode runtime message).length ≤ MAX_FRAME_SIZE) :
    ∃ envelope, format.parse (encode runtime message) = .ok envelope ∧
      envelope.SameBut [] message.envelope := by
  obtain ⟨fields, updates, hbytes, hmeans, hshown⟩ :=
    encode_means hconforms (Nat.lt_of_le_of_lt hfits (by decide))
  rw [hbytes] at hfits ⊢
  rw [← hshown]
  exact hprotobuf.parse _ _ hmeans hfits

end

/-- Neither SDK is disturbed by fields that it does not know, wherever they stand. -/
theorem unknown_fields_ignored {runtime : Runtime} (hconforms : runtime.Conforms)
    {format : EnvelopeFormat} (hprotobuf : format.Protobuf) {fields : List Field}
    {updates : List (Envelope → Envelope)}
    (hmeans : List.Forall₂ (Means Envelope.members) fields updates) :
    decode runtime (bytes fields) = decode runtime (bytes (known Envelope.members fields)) ∧
      ((bytes fields).length ≤ MAX_FRAME_SIZE → ∃ first second, format.parse (bytes fields) = .ok first ∧
        format.parse (bytes (known Envelope.members fields)) = .ok second ∧
          first.SameBut [] second) := by
  obtain ⟨updates', hmeans', hsame⟩ := means_known hmeans
  constructor
  · obtain ⟨objects, hobjects, -⟩ := means_parallel
      (Js.Proto.Envelope.parallel.flip.imp fun _ _ h => h.flip) hmeans
    obtain ⟨objects', hobjects', hsame⟩ := means_known hobjects
    rw [known, ids_of_parallel Js.Proto.Envelope.parallel, ← known] at hobjects'
    rw [decode, decode, decode_bytes hconforms Js.Proto.Envelope.numbered hobjects,
      decode_bytes hconforms Js.Proto.Envelope.numbered hobjects', hsame]
  · intro hfits
    have hshorter : (bytes (known Envelope.members fields)).length ≤ (bytes fields).length :=
      (List.filter_sublist.flatMap _).length_le
    obtain ⟨first, hfirst, hread⟩ := hprotobuf.parse _ _ hmeans hfits
    obtain ⟨second, hsecond, hread'⟩ :=
      hprotobuf.parse _ _ hmeans' (Nat.le_trans hshorter hfits)
    rw [hsame] at hread'
    exact ⟨first, second, hfirst, hsecond, hread.trans hread'.symm⟩

/-- A field with the number 9 in front of the request id. -/
theorem ninth_field_ignored :
    decode .standard [74, 2, 1, 2, 16, 1] = decode .standard [16, 1] :=
  (unknown_fields_ignored Runtime.standard_conforms EnvelopeFormat.inOrder_protobuf
    (.cons (.unknown ⟨9, .delimited [1, 2]⟩ ⟨by decide, by decide, by decide⟩ (by decide))
      (.cons (.known _ (List.mem_cons_of_mem _ List.mem_cons_self) (.varint 1) (by decide)
        (1 : UInt64) (by rfl)) .nil))).1

/-! ## Calls between the two SDKs -/

/-- An envelope with a named type and status and without metadata can be sent. -/
theorem regular_of_plain {envelope : Envelope}
    (htype : envelope.type = .request ∨ envelope.type = .response ∨ envelope.type = .error)
    (hstatus : envelope.status = .ok ∨ envelope.status = .notFound ∨ envelope.status = .internal)
    (hmetadata : envelope.metadata = []) : envelope.Regular where
  type := by rcases htype with h | h | h <;> rw [h] <;> rfl
  status := by rcases hstatus with h | h | h <;> rw [h] <;> rfl
  nodup := by
    rw [hmetadata]
    exact .nil

theorem requestOf_regular (call : Cpp.Call) (id : UInt64) : (Cpp.Client.requestOf call id).Regular :=
  regular_of_plain (.inl rfl) (.inl rfl) rfl

section

variable {Handler : Type} (behave : Handler → List UInt8 → Cpp.HandlerOutcome)
  (table : ServiceTable Handler)

theorem dispatch_regular (request : Envelope) :
    (Cpp.Dispatcher.dispatch behave table request).Regular := by
  unfold Cpp.Dispatcher.dispatch Cpp.Dispatcher.locate
  split
  next response hlocate =>
    split at hlocate
    · cases hlocate
      exact regular_of_plain (.inr (.inr rfl)) (.inr (.inl rfl)) rfl
    · split at hlocate
      · cases hlocate
        exact regular_of_plain (.inr (.inr rfl)) (.inr (.inl rfl)) rfl
      · cases hlocate
  next handler _ =>
    cases behave handler request.payload with
    | returned payload => exact regular_of_plain (.inr (.inl rfl)) (.inl rfl) rfl
    | error message => exact regular_of_plain (.inr (.inr rfl)) (.inr (.inr rfl)) rfl
    | threw what => exact regular_of_plain (.inr (.inr rfl)) (.inr (.inr rfl)) rfl
    | threwUnknown => exact regular_of_plain (.inr (.inr rfl)) (.inr (.inr rfl)) rfl

/-- The dispatcher does not look at the metadata. -/
theorem dispatch_congr {ignored : List String} {request other : Envelope}
    (hsame : request.SameBut ignored other) :
    Cpp.Dispatcher.dispatch behave table request = Cpp.Dispatcher.dispatch behave table other := by
  have hlocate : Cpp.Dispatcher.locate table request = Cpp.Dispatcher.locate table other := by
    rw [Cpp.Dispatcher.locate, Cpp.Dispatcher.locate, hsame.serviceName_eq, hsame.methodName_eq,
      hsame.requestId_eq]
  have hrespond : Cpp.Dispatcher.respond request = Cpp.Dispatcher.respond other := by
    funext outcome
    cases outcome <;> rw [Cpp.Dispatcher.respond, Cpp.Dispatcher.respond, hsame.requestId_eq]
  rw [Cpp.Dispatcher.dispatch, Cpp.Dispatcher.dispatch, hlocate, hrespond, hsame.payload_eq]

end

/-- `call` makes of an object what it makes of the envelope that the object shows. -/
theorem respond_congr {Value : Type} {ignored : List String} {response other : Envelope}
    (hsame : response.SameBut ignored other) (id : Nat) (parse : List UInt8 → Except String Value) :
    Js.Client.respond id parse response = Js.Client.respond id parse other := by
  rw [Js.Client.respond, Js.Client.respond, hsame.requestId_eq, hsame.status_eq,
    hsame.errorMessage_eq, hsame.payload_eq]

/-- The bytes of a request of a JS client make a C++ server answer what its dispatcher
answers to the request, and the bytes of the answer bring the call to what it makes of
that answer. The bytes of a request of a C++ client make a JS server answer what its
`dispatch` answers to the request, and the C++ client takes the answer as its own. -/
theorem calls_cross {runtime : Runtime} (hconforms : runtime.Conforms) {format : EnvelopeFormat}
    (hprotobuf : format.Protobuf) :
    (∀ {Value Handler : Type} (call : Js.Call Value) (metadata : Option Js.StringRecord) (id : Nat)
      (payload : List UInt8) (behave : Handler → List UInt8 → Cpp.HandlerOutcome)
      (table : ServiceTable Handler),
      call.options.metadata = metadata.map Js.StringRecord.entries →
      (encode runtime (Js.Client.requestObject call id payload metadata)).length ≤ MAX_FRAME_SIZE →
      ∃ request,
        format.parse (encode runtime (Js.Client.requestObject call id payload metadata)) =
          .ok request ∧
        request.SameBut [] (Js.Client.requestEnvelope call id payload) ∧
        ∀ written, format.serialize (Cpp.Dispatcher.dispatch behave table request) = some written →
          ∃ message, decode runtime written = .ok message ∧
            ∀ parse : List UInt8 → Except String Value,
              Js.Client.respond id parse message.envelope =
                Js.Client.respond id parse (Cpp.Dispatcher.dispatch behave table
                  (Js.Client.requestEnvelope call id payload))) ∧
    (∀ (services : ServiceTable Js.MethodHandler) (call : Cpp.Call) (id : UInt64) written,
      format.serialize (Cpp.Client.requestOf call id) = some written →
      ∃ message, decode runtime written = .ok message ∧
        ((encode runtime (Js.Dispatch.replyObject services message)).length ≤ MAX_FRAME_SIZE →
          ∃ response,
            format.parse (encode runtime (Js.Dispatch.replyObject services message)) =
              .ok response ∧
            Cpp.Client.accept (Cpp.Client.requestOf call id) response = .ok response ∧
            response.SameBut []
              (Js.Dispatch.reply services (Cpp.Client.requestOf call id)))) := by
  constructor
  · intro Value Handler call metadata id payload behave table hmetadata hfits
    obtain ⟨request, hparse, hsame⟩ := parse_of_encode hconforms hprotobuf hfits
    rw [Js.Client.requestObject_envelope hmetadata] at hsame
    refine ⟨request, hparse, hsame, ?_⟩
    intro written hserialize
    rw [dispatch_congr behave table hsame] at hserialize
    obtain ⟨message, hdecode, hshows⟩ :=
      decode_of_serialize hconforms hprotobuf (dispatch_regular behave table _) hserialize
    exact ⟨message, hdecode, fun parse => respond_congr hshows id parse⟩
  · intro services call id written hserialize
    obtain ⟨message, hdecode, hshows⟩ :=
      decode_of_serialize hconforms hprotobuf (requestOf_regular call id) hserialize
    refine ⟨message, hdecode, ?_⟩
    intro hfits
    obtain ⟨response, hparse, hsame⟩ := parse_of_encode hconforms hprotobuf hfits
    rw [Js.Dispatch.replyObject_envelope, Js.Dispatch.reply_congr services hshows] at hsame
    refine ⟨response, hparse, ?_, hsame⟩
    rw [Cpp.Client.accept, if_pos]
    rw [hsame.requestId_eq, Js.Dispatch.reply_requestId]

/-- The first call of a C++ client, to a JS server without services. -/
theorem nameless_call_crosses : ∃ message response,
    decode .standard [16, 1] = .ok message ∧
      EnvelopeFormat.inOrder.parse
        (encode .standard (Js.Dispatch.replyObject (fun _ => none) message)) = .ok response ∧
      response.SameBut []
        (Js.Dispatch.reply (fun _ => none) (Cpp.Client.requestOf .idle 1)) := by
  obtain ⟨message, hdecode, hanswer⟩ :=
    (calls_cross Runtime.standard_conforms EnvelopeFormat.inOrder_protobuf).2 (fun _ => none) .idle
      1 [16, 1] (by decide)
  have hread : decode .standard [16, 1] = .ok (Js.Proto.Envelope.create { requestId := some 1 }) :=
    rfl
  cases hdecode.symm.trans hread
  obtain ⟨response, hparse, -, hsame⟩ := hanswer (by decide)
  exact ⟨_, response, hdecode, hparse, hsame⟩

end Ibridger.Protocol
