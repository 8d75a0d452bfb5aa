import Ibridger.Js.Exclusion
import Ibridger.Js.Replies
import Ibridger.Wire.KnownMessages
import Ibridger.Wire.RequestIds

/-! # The check of the request id, in JS

A request carries its id as a 64-bit number, and `call` compares the id, a double, with
the rounded id of the response. Most 64-bit numbers are no doubles, but those that are
rounded stay far from the ids: below 2^53, the comparison is one of integers.
-/

namespace Ibridger.Js

open Rpc Transition Wire

variable {Value : Type}

/-- The id that the call has taken, as long as it is to compare it. -/
def CallPhase.requestId? : CallPhase Value → Option Nat
  | .sending _ id _ _ | .receiving _ id _ => some id
  | .idle | .waiting | .starting | .failing _ | .settled _ => none

namespace Client

/-- What `call` throws at a response that it does not take for its own. -/
def mismatch (id : Nat) (response : Envelope) : CallError :=
  .error ("Protocol error: expected request_id " ++ numberText id ++ ", got " ++
    numberText (numberOfLong response.requestId))

theorem respond_eq_mismatch_iff {id : Nat} (hid : id < 2 ^ 53)
    (parse : List UInt8 → Except String Value) (response : Envelope) :
    respond id parse response = .error (mismatch id response) ↔ response.requestId.toNat ≠ id := by
  rw [respond]
  by_cases hsame : numberOfLong response.requestId = id
  · rw [if_neg (not_not.mpr hsame)]
    refine iff_of_false ?_ (not_not.mpr ((numberOfLong_eq_iff hid).mp hsame))
    intro hresult
    split at hresult
    · cases hresult
    · split at hresult
      · cases hresult
      · cases hresult
  · rw [if_pos hsame]
    exact iff_of_true rfl fun hequal => hsame ((numberOfLong_eq_iff hid).mpr hequal)

/-! ## From one side to the other -/

section

variable (format : EnvelopeFormat) (decode : Nat → List UInt8 → Except String Value)

/-- The way of an id to the server and back, and the check at its end. -/
structure ExactPath (id : Nat) : Prop where
  sent : ∀ (call : Call Value) payload bytes request,
    format.serialize (requestEnvelope call id payload) = some bytes →
      format.parse bytes = .ok request → request.requestId.toNat = id
  /-- Whatever comes back, it is rejected exactly if it carries another integer. -/
  checked : ∀ i response bytes got, format.serialize response = some bytes →
    format.parse bytes = .ok got →
      (received format decode i id (.ok bytes) = .error (mismatch id got) ↔
        response.requestId.toNat ≠ id)
  /-- The response of the server to the request is not rejected. -/
  answered : ∀ (call : Call Value) payload bytes request services i bytes' got,
    format.serialize (requestEnvelope call id payload) = some bytes →
      format.parse bytes = .ok request →
        format.serialize (Dispatch.reply services request) = some bytes' →
          format.parse bytes' = .ok got →
            received format decode i id (.ok bytes') ≠ .error (mismatch id got)
  next : increment id = id + 1

variable {format} in
theorem exactPath (hids : format.KeepsIds) {id : Nat} (hid : id < 2 ^ 53) :
    ExactPath format decode id := by
  have hsent : ∀ (call : Call Value) payload bytes request,
      format.serialize (requestEnvelope call id payload) = some bytes →
        format.parse bytes = .ok request → request.requestId.toNat = id := by
    intro call payload bytes request hserialize hparse
    rw [hids _ _ _ hserialize hparse]
    exact requestId_toNat (Nat.le_of_lt hid) payload
  have hchecked : ∀ i response bytes got, format.serialize response = some bytes →
      format.parse bytes = .ok got →
        (received format decode i id (.ok bytes) = .error (mismatch id got) ↔
          response.requestId.toNat ≠ id) := by
    intro i response bytes got hserialize hparse
    rw [received, hparse, ← hids _ _ _ hserialize hparse]
    exact respond_eq_mismatch_iff hid (decode i) got
  refine ⟨hsent, hchecked, ?_, increment_of_lt hid⟩
  intro call payload bytes request services i bytes' got hserialize hparse hserialize' hparse'
  rw [Ne, hchecked i _ bytes' got hserialize' hparse', Dispatch.reply_requestId]
  exact not_not.mpr (hsent call payload bytes request hserialize hparse)

end

/-! ## Along a run -/

/-- The id of a call is the one that its request carries. -/
def Named (client : Client Value) : Prop :=
  ∀ i id, (client.calls i).phase.requestId? = some id →
    ∃ request, (client.calls i).envelope = some request ∧ request.requestId.toNat = id

/-- What is the case between the steps of a run. -/
structure Counting (client : Client Value) : Prop where
  blank : Blank client
  named : Named client
  id_pos : 1 ≤ client.nextRequestId
  id_le : client.nextRequestId ≤ 2 ^ 53

variable (format : EnvelopeFormat) in
/-- The step compares the id of the call with that of the response it has read. -/
def Compares (client : Client Value) (event : ClientEvent) (i id : Nat) (response : Envelope) :
    Prop :=
  ∃ r timeoutMs reader c frame, event = .resume i ∧
    (client.calls i).phase = .receiving r id timeoutMs ∧
    client.reads[r]? = some ⟨reader, c, .settled (.ok frame)⟩ ∧ format.parse frame = .ok response

variable (format : EnvelopeFormat) in
/-- A step takes ids and compares them as integers. -/
structure ExactStep (client : Client Value) (event : ClientEvent) (next : Client Value) : Prop where
  /-- A request takes the next id, and the integer behind it follows. -/
  taken : ∀ request ∈ handed client next event, 1 ≤ client.nextRequestId ∧
    (client.nextRequestId ≤ 2 ^ 53 - 1 → request.requestId.toNat = client.nextRequestId ∧
      next.nextRequestId = client.nextRequestId + 1)
  kept : handed client next event = [] → next.nextRequestId = client.nextRequestId
  /-- The call is rejected exactly if the response carries another integer than its request. -/
  compared : ∀ i id response, Compares format client event i id response → id ≤ 2 ^ 53 - 1 →
    (∃ request, (client.calls i).envelope = some request ∧ request.requestId.toNat = id) ∧
      ((next.calls i).phase = .settled (.error (mismatch id response)) ↔
        response.requestId.toNat ≠ id)

variable {format : EnvelopeFormat} {decode : Nat → List UInt8 → Except String Value}
  {client next : Client Value} {event : ClientEvent}

theorem init_counting (config : ClientConfig) : Counting (init config : Client Value) := by
  refine ⟨fun _ _ => rfl, ?_, Nat.le_refl _, Nat.one_le_two_pow⟩
  intro i id hid
  cases hid

theorem Named.update (hnamed : Named client) {i : Nat} {call : Call Value}
    (hcalls : next.calls = Function.update client.calls i call)
    (hcall : ∀ id, call.phase.requestId? = some id →
      ∃ request, call.envelope = some request ∧ request.requestId.toNat = id) : Named next := by
  intro j id hid
  rw [hcalls] at hid ⊢
  by_cases hj : j = i
  · subst hj
    rw [Function.update_self] at hid ⊢
    exact hcall id hid
  · rw [Function.update_of_ne hj] at hid ⊢
    exact hnamed j id hid

/-- A call that is not to compare an id. -/
theorem Named.leave (hnamed : Named client) {i : Nat} {call : Call Value}
    (hcalls : next.calls = Function.update client.calls i call)
    (hnone : call.phase.requestId? = none) : Named next := by
  apply hnamed.update hcalls
  intro id hid
  rw [hnone] at hid
  cases hid

/-- A call that goes on with the id that it has. -/
theorem Named.goesOn (hnamed : Named client) {i id : Nat} {phase : CallPhase Value}
    (hcalls : next.calls = Function.update client.calls i { client.calls i with phase := phase })
    (hbefore : (client.calls i).phase.requestId? = some id)
    (hafter : phase.requestId? = some id) : Named next := by
  apply hnamed.update hcalls
  intro other hother
  cases hafter.symm.trans hother
  exact hnamed i id hbefore

theorem Named.start (hnamed : Named client) (hle : client.nextRequestId ≤ 2 ^ 53) (i : Nat) :
    Named (client.start format i) := by
  have hstarts := client.start_cases format i
  generalize client.start format i = next at hstarts ⊢
  cases hstarts with
  | rejected error => exact hnamed.leave rfl rfl
  | unserializable c payload _ _ _ _ =>
      exact hnamed.leave (begun_setPhase_calls client i c payload _) rfl
  | sending c payload bytes _ _ _ _ =>
      apply hnamed.update (begun_setPhase_calls client i c payload _)
      intro id hid
      cases hid
      exact ⟨_, rfl, requestId_toNat hle payload⟩

theorem Named.resume (hnamed : Named client) (hle : client.nextRequestId ≤ 2 ^ 53) {i : Nat}
    (hresume : client.resume format decode i = some next) : Named next := by
  cases resume_cases hresume with
  | starting hphase => exact hnamed.start hle i
  | receiving c id timeoutMs hphase =>
      cases hcodec : client.codec with
      | none =>
          rw [receive, hcodec]
          exact hnamed.leave rfl rfl
      | some c =>
          exact hnamed.goesOn (receive_calls hcodec i id timeoutMs) (by rw [hphase]; rfl) rfl
  | unsent c id timeoutMs error hphase => exact hnamed.leave rfl rfl
  | sending c id timeoutMs send result hphase _ =>
      obtain ⟨send', conn⟩ := result
      exact hnamed.goesOn rfl (by rw [hphase]; rfl) rfl
  | received r id timeoutMs read result hphase _ _ => exact hnamed.leave rfl rfl
  | failing error hphase => exact hnamed.leave rfl rfl

theorem Named.step (hnamed : Named client) (hle : client.nextRequestId ≤ 2 ^ 53)
    (hstep : client.step format decode event = some next) : Named next := by
  by_cases hcall : ¬ event.OfCall
  · have hkept := step_callsKept hcall hstep
    unfold Named
    rw [hkept.calls_eq]
    exact hnamed
  cases event with
  | call i service method encoded options =>
      have hcalled : Named (client.called i service method encoded options) :=
        hnamed.leave rfl rfl
      obtain ⟨-, ⟨-, rfl⟩ | rfl⟩ := call_cases hstep
      · exact hcalled.leave rfl rfl
      · exact hcalled.start hle i
  | poll i =>
      obtain ⟨-, rfl | rfl | rfl⟩ := poll_cases hstep
      · exact hnamed.leave rfl rfl
      · exact hnamed
      · exact hnamed.leave rfl rfl
  | timeout i =>
      obtain ⟨r, id, timeoutMs, -, rfl⟩ := timeout_cases hstep
      exact hnamed.leave rfl rfl
  | resume i => exact hnamed.resume hle hstep
  | connect | disconnect | connected | connectFailed | data | close | error | written | sleepOver
  | read => exact absurd id hcall

/-- The counter stays at 2^53 when it has come there. -/
theorem Takes.bounds {taken : List Envelope} (htakes : Takes client next taken)
    (hpos : 1 ≤ client.nextRequestId) (hle : client.nextRequestId ≤ 2 ^ 53) :
    1 ≤ next.nextRequestId ∧ next.nextRequestId ≤ 2 ^ 53 := by
  cases htakes with
  | nothing hid =>
      rw [hid]
      exact ⟨hpos, hle⟩
  | envelope request hrequest hid =>
      rw [hid]
      refine ⟨?_, increment_le hle⟩
      rw [increment]
      split
      · exact Nat.le_add_left _ _
      · exact hpos

theorem Counting.step (hcounting : Counting client)
    (hstep : client.step format decode event = some next) : Counting next := by
  obtain ⟨hblank, htakes⟩ := step_takes hcounting.blank hstep
  obtain ⟨hpos, hle⟩ := htakes.bounds hcounting.id_pos hcounting.id_le
  exact ⟨hblank, hcounting.named.step hcounting.id_le hstep, hpos, hle⟩

/-- The step with which a call compares its id. -/
theorem Compares.step_eq {i id : Nat} {response : Envelope}
    (hcompares : Compares format client event i id response)
    (hstep : client.step format decode event = some next) :
    next = client.finish i (respond id (decode i) response) ∧
      (client.calls i).phase.requestId? = some id := by
  obtain ⟨r, timeoutMs, reader, c, frame, rfl, hphase, hread, hparse⟩ := hcompares
  simp only [step, resume, hphase, hread, received, hparse] at hstep
  refine ⟨(Option.some_inj.mp hstep).symm, ?_⟩
  rw [hphase]
  rfl

theorem Counting.exactStep (hcounting : Counting client)
    (hstep : client.step format decode event = some next) :
    ExactStep format client event next := by
  obtain ⟨-, htakes⟩ := step_takes hcounting.blank hstep
  refine ⟨?_, ?_, ?_⟩
  · intro request hmem
    refine ⟨hcounting.id_pos, ?_⟩
    intro hlimit
    generalize handed client next event = taken at htakes hmem
    cases htakes with
    | nothing hid => cases hmem
    | envelope first hrequest hid =>
        cases List.mem_singleton.mp hmem
        rw [hid, increment_of_lt (by omega), hrequest, UInt64.toNat_ofNat']
        exact ⟨Nat.mod_eq_of_lt (by omega), rfl⟩
  · intro hnone
    rw [hnone] at htakes
    cases htakes with
    | nothing hid => exact hid
  · intro i id response hcompares hlimit
    obtain ⟨rfl, hid⟩ := hcompares.step_eq hstep
    refine ⟨hcounting.named i id hid, ?_⟩
    have hphase : ((client.finish i (respond id (decode i) response)).calls i).phase =
        .settled (respond id (decode i) response) := by
      simp only [finish, settle, setPhase, setCall, Function.update_self]
    rw [hphase, CallPhase.settled.injEq]
    exact respond_eq_mismatch_iff (by omega) (decode i) response

/-- The check of the JS client is exact: for every id from 1 to 2^53 - 1, a response is
rejected exactly if it carries another integer than the request, and every id that a run
takes is the integer behind the last one. -/
theorem correlation_exact (hids : format.KeepsIds)
    (decode : Nat → List UInt8 → Except String Value) :
    (∀ id, 1 ≤ id → id ≤ 2 ^ 53 - 1 → ExactPath format decode id) ∧
      ∀ config events, Along (step format decode) (ExactStep format) (init config) events := by
  refine ⟨?_, ?_⟩
  · intro id _ hlimit
    exact exactPath decode hids (by omega)
  · intro config events
    refine Along.of_guarded Counting ?_ (init_counting config) (guarded_true _ events)
    intro client event next hcounting _ hstep
    exact ⟨hcounting.step hstep, hcounting.exactStep hstep⟩

/-- The request with the last id below 2^53. -/
def lastRequest : Envelope := { namelessRequest with requestId := 9007199254740991 }

/-- A response with an id that no double holds. -/
def foreignResponse : Envelope :=
  { Envelope.empty with type := .response, requestId := 9007199254740993 }

/-- The request as protobuf.js writes it, the response of a server without services, and
one that is not meant for the call. -/
def lastMessages : List (Envelope × List UInt8) :=
  [(lastRequest, [8, 0, 16, 255, 255, 255, 255, 255, 255, 255, 15, 26, 0, 34, 0, 42, 0]),
    (Dispatch.reply (fun _ => none) lastRequest,
      [8, 3, 16, 255, 255, 255, 255, 255, 255, 255, 15, 48, 2, 58, 19, 83, 101, 114, 118, 105, 99,
        101, 32, 110, 111, 116, 32, 102, 111, 117, 110, 100, 58, 32]),
    (foreignResponse, [8, 1, 16, 129, 128, 128, 128, 128, 128, 128, 16])]

/-- The last id is told apart from one that is rounded, and its own response is taken. -/
theorem last_id_correlates :
    received (.knowing lastMessages) (fun _ => .ok) 0 (2 ^ 53 - 1)
        (.ok [8, 1, 16, 129, 128, 128, 128, 128, 128, 128, 16]) =
        .error (mismatch (2 ^ 53 - 1) foreignResponse) ∧
      received (.knowing lastMessages) (fun _ => .ok) 0 (2 ^ 53 - 1)
        (.ok [8, 3, 16, 255, 255, 255, 255, 255, 255, 255, 15, 48, 2, 58, 19, 83, 101, 114, 118, 105,
          99, 101, 32, 110, 111, 116, 32, 102, 111, 117, 110, 100, 58, 32]) ≠
        .error (mismatch (2 ^ 53 - 1) (Dispatch.reply (fun _ => none) lastRequest)) ∧
      increment (2 ^ 53 - 1) = 2 ^ 53 := by
  have hids : (EnvelopeFormat.knowing lastMessages).KeepsIds := by
    intro envelope bytes other hserialize hother
    cases (EnvelopeFormat.knowing_parse_of_serialize (by decide) hserialize).symm.trans hother
    rfl
  have hserialize : ∀ {envelope : Envelope} {bytes : List UInt8},
      (envelope, bytes) ∈ lastMessages →
        (EnvelopeFormat.knowing lastMessages).serialize envelope = some bytes :=
    fun hmem => EnvelopeFormat.knowing_serialize (by decide) hmem
  have hparse : ∀ {envelope : Envelope} {bytes : List UInt8}, (envelope, bytes) ∈ lastMessages →
      (EnvelopeFormat.knowing lastMessages).parse bytes = .ok envelope :=
    fun hmem => EnvelopeFormat.knowing_parse (by decide) hmem
  obtain ⟨hpaths, -⟩ := correlation_exact hids (fun _ => Except.ok)
  have hpath := hpaths (2 ^ 53 - 1) (by decide) (Nat.le_refl _)
  have hforeign : (foreignResponse, _) ∈ lastMessages :=
    List.mem_cons_of_mem _ (List.mem_cons_of_mem _ List.mem_cons_self)
  have hown : (Dispatch.reply (fun _ => none) lastRequest, _) ∈ lastMessages :=
    List.mem_cons_of_mem _ List.mem_cons_self
  have hrequest : (lastRequest, _) ∈ lastMessages := List.mem_cons_self
  refine ⟨?_, ?_, hpath.next⟩
  · exact (hpath.checked 0 _ _ _ (hserialize hforeign) (hparse hforeign)).mpr (by decide)
  · exact hpath.answered .idle [] _ _ _ 0 _ _ (hserialize hrequest) (hparse hrequest)
      (hserialize hown) (hparse hown)

end Client

end Ibridger.Js
