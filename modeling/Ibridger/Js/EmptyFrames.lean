import Ibridger.Js.LateResponses
import Ibridger.Rpc.ResultSize
import Ibridger.Wire.EmptyFrames

/-! # Empty frames and the calls of the JS client

A call makes one `recvFrame` behind its request. The frame that it reads, empty
or not, is the one whose turn it is, and the result of the call depends on that
frame alone.
-/

namespace Ibridger.Js

open LengthPrefix Spacing Transition UnixSocketConnection Wire

/-- The call has got behind its `codec.send`. -/
def CallPhase.Past {Value : Type} : CallPhase Value → Prop
  | .idle | .waiting | .starting | .sending _ _ _ _ => False
  | .receiving _ _ _ | .failing _ | .settled _ => True

namespace Client

variable {Value : Type} (format : EnvelopeFormat)
  (decode : Nat → List UInt8 → Except String Value)

/-- The client of a run on one connection, in which the calls join in order, that
reads from the front of the stream. -/
def ReadsFrom (stream : List UInt8) (client : Client Value) : Prop :=
  (∃ config throws events, (∀ event ∈ events, event.Undisturbed) ∧
    Guarded (step format decode) JoinsInOrder (init config)
      (.connect :: .connected 0 throws :: events) ∧
    run (step format decode) (init config) (.connect :: .connected 0 throws :: events) =
      some client) ∧
  ∃ rest, (client.conns 0).received ++ rest = stream

/-- A call has sent its request, has made the `recvFrame` number `r` and has
settled in time. -/
structure Gets (client : Client Value) (i r : Nat) (request : Envelope)
    (result : Except CallError Value) : Prop where
  settled : (client.calls i).phase = .settled result
  envelope_eq : (client.calls i).envelope = some request
  sendable : Rpc.Sendable format request
  read : ∃ read, client.reads[r]? = some read ∧ read.call = i
  in_time : ∀ timeoutMs, result ≠ .error (Js.timedOut timeoutMs)

/-- No call makes two `recvFrame`. -/
structure ReadsOnce (client : Client Value) : Prop where
  nodup : (client.reads.map Read.call).Nodup
  past : ∀ read ∈ client.reads, (client.calls read.call).phase.Past

variable {format decode} {client next : Client Value}

theorem calls_eq_owners (reads : List Read) :
    reads.map Read.call = (reads.map Read.owner).map Prod.fst := by
  rw [List.map_map]
  rfl

/-- A call moves on. -/
theorem ReadsOnce.update (honce : client.ReadsOnce) {i : Nat} {call : Call Value}
    (hcalls : next.calls = Function.update client.calls i call)
    (hreads : next.reads = client.reads)
    (hpast : (client.calls i).phase.Past → call.phase.Past) : next.ReadsOnce := by
  refine ⟨hreads ▸ honce.nodup, ?_⟩
  intro read hread
  rw [hreads] at hread
  have hbefore := honce.past read hread
  rw [hcalls]
  by_cases hcall : read.call = i
  · subst hcall
    rw [Function.update_self]
    exact hpast hbefore
  · rw [Function.update_of_ne hcall]
    exact hbefore

theorem ReadsOnce.start (honce : client.ReadsOnce) {i : Nat}
    (hearly : ¬ (client.calls i).phase.Past) : (client.start format i).ReadsOnce := by
  have hstarts := client.start_cases format i
  generalize client.start format i = next at hstarts
  cases hstarts with
  | rejected error => exact honce.update rfl rfl fun hpast => absurd hpast hearly
  | unserializable c payload hcodec hidle hencoded hserialize =>
      exact honce.update (begun_setPhase_calls client i c payload _) rfl
        fun hpast => absurd hpast hearly
  | sending c payload bytes hcodec hidle hencoded hserialize =>
      exact honce.update (begun_setPhase_calls client i c payload _) rfl
        fun hpast => absurd hpast hearly

/-- The call makes its `recvFrame`. -/
theorem ReadsOnce.receive (honce : client.ReadsOnce) {i : Nat} (id timeoutMs : Nat)
    (hearly : ¬ (client.calls i).phase.Past) : (client.receive i id timeoutMs).ReadsOnce := by
  unfold Client.receive
  split
  · exact honce.update rfl rfl fun _ => trivial
  next c hcodec =>
    refine ⟨?_, ?_⟩
    · dsimp only
      rw [List.map_append, List.map_singleton, List.nodup_append_comm, List.singleton_append,
        List.nodup_cons]
      refine ⟨?_, honce.nodup⟩
      intro hmem
      obtain ⟨read, hread, rfl⟩ := List.mem_map.mp hmem
      exact hearly (honce.past read hread)
    · intro read hread
      simp only [Client.setPhase, setCall, setConn]
      by_cases hcall : read.call = i
      · rw [hcall, Function.update_self]
        trivial
      · rw [Function.update_of_ne hcall]
        rcases List.mem_append.mp hread with hold | hnew
        · exact honce.past read hold
        · rw [List.mem_singleton.mp hnew] at hcall
          exact absurd rfl hcall

theorem ReadsOnce.resume {i : Nat} (honce : client.ReadsOnce)
    (hresume : client.resume format decode i = some next) : next.ReadsOnce := by
  cases resume_cases hresume with
  | starting hphase => exact honce.start (by rw [hphase]; exact id)
  | receiving c id timeoutMs hphase =>
      exact honce.receive id timeoutMs (by rw [hphase]; exact fun h => h)
  | unsent c id timeoutMs error hphase => exact honce.update rfl rfl fun _ => trivial
  | sending c id timeoutMs send result hphase hsend =>
      refine honce.update rfl rfl ?_
      rw [hphase]
      exact fun h => h
  | received r id timeoutMs read result hphase hread hsettled =>
      exact honce.update rfl rfl fun _ => trivial
  | failing error hphase => exact honce.update rfl rfl fun _ => trivial

theorem ReadsOnce.step {event : ClientEvent} (honce : client.ReadsOnce)
    (hstep : client.step format decode event = some next) : next.ReadsOnce := by
  by_cases hkept : ¬ event.OfCall
  · obtain ⟨hcalls, -, -, howners⟩ := step_callsKept hkept hstep
    refine ⟨?_, ?_⟩
    · rw [calls_eq_owners, howners, ← calls_eq_owners]
      exact honce.nodup
    · intro read hread
      have hcall : read.call ∈ client.reads.map Read.call := by
        rw [calls_eq_owners, ← howners, ← calls_eq_owners]
        exact List.mem_map_of_mem hread
      obtain ⟨other, hother, hsame⟩ := List.mem_map.mp hcall
      rw [hcalls, ← hsame]
      exact honce.past other hother
  cases event with
  | call i service method encoded options =>
      obtain ⟨hphase, hnext⟩ := call_cases hstep
      have hcalled : (client.called i service method encoded options).ReadsOnce := by
        refine honce.update rfl rfl ?_
        rw [hphase]
        exact fun h => h
      have hstarting : ((client.called i service method encoded options).calls i).phase =
          .starting := by
        simp only [called, setCall, Function.update_self]
      rcases hnext with ⟨-, rfl⟩ | rfl
      · refine hcalled.update rfl rfl ?_
        rw [hstarting]
        exact fun h => h
      · apply hcalled.start
        rw [hstarting]
        exact fun h => h
  | poll i =>
      obtain ⟨hphase, rfl | rfl | rfl⟩ := poll_cases hstep
      · refine honce.update rfl rfl ?_
        rw [hphase]
        exact fun h => h
      · exact honce
      · exact honce.update rfl rfl fun _ => trivial
  | timeout i =>
      obtain ⟨r, id, timeoutMs, hphase, rfl⟩ := timeout_cases hstep
      exact honce.update rfl rfl fun _ => trivial
  | resume i => exact honce.resume hstep
  | connect | disconnect | connected | connectFailed | data | close | error | written | sleepOver
  | read => exact absurd id hkept

theorem init_readsOnce (config : ClientConfig) : (init config : Client Value).ReadsOnce :=
  ⟨List.nodup_nil, fun _ hmem => (by cases hmem)⟩

theorem readsOnce_of_run {config : ClientConfig} {events : List ClientEvent}
    (hrun : run (step format decode) (init config) events = some client) : client.ReadsOnce :=
  run_invariant ReadsOnce (fun _ _ _ honce hstep => honce.step hstep) (init_readsOnce config) hrun

/-- A call that gets a result reads the frame whose turn it is. -/
theorem Gets.answered {frames : List (List UInt8)} {i r : Nat} {request : Envelope}
    {result : Except CallError Value} (hinverse : format.Inverse) (hfits : frameHeader.Fits frames)
    (hreads : client.ReadsFrom format decode (frameHeader.stream frames))
    (hgets : client.Gets format i r request result) :
    ∃ payload requests, frames[r]? = some payload ∧
      result = received format decode i request.requestId.toNat (.ok payload) ∧
      requests <+: format.envelopes (client.conns 0).output ∧ requests[r]? = some request ∧
      ∀ request ∈ requests, request.requestId.toNat ≤ 2 ^ 53 := by
  obtain ⟨⟨config, throws, events, hundisturbed, hjoins, hrun⟩, rest, hstream⟩ := hreads
  obtain ⟨-, hconnected⟩ := hjoins _ rfl
  obtain ⟨-, hevents⟩ := hconnected _ rfl
  have honce := readsOnce_of_run hrun
  obtain ⟨taken, front, requests, hseq⟩ := sequenced_of_run hundisturbed hevents hrun
    (frameHeader.not_oversized_of_stream hfits hstream)
  have hinitial : taken <+: frames := by
    have hfront : frameHeader.stream frames = frameHeader.stream taken ++ (front ++ rest) := by
      rw [← hstream, hseq.line.received_eq, List.append_assoc]
    have hparsed := frameHeader.prefix_parse hfront hseq.line.fits
    rwa [frameHeader.parse_stream hfits] at hparsed
  obtain ⟨read, hread, hcall⟩ := hgets.read
  have hended := hseq.ended i result hgets.settled
  rw [hgets.envelope_eq] at hended
  cases hended with
  | unserializable _ hserialize => exact absurd hgets.sendable (Rpc.not_sendable_of_none hserialize)
  | oversized _ bytes hserialize hlarge =>
      exact absurd (hgets.sendable.length_le hserialize) (Nat.not_le_of_lt hlarge)
  | timedOut r' _ timeoutMs howner hrequest => exact absurd rfl (hgets.in_time timeoutMs)
  | answered r' _ payload howner hrequest hframe =>
      have hsame : r' = r := by
        have hcalls : (client.reads.map Read.call)[r]? = some i := by
          rw [List.getElem?_map, hread, Option.map_some, hcall]
        have hcalls' : (client.reads.map Read.call)[r']? = some i := by
          rw [calls_eq_owners, List.getElem?_map, howner]
          rfl
        exact (List.getElem?_inj (List.getElem?_eq_some_iff.mp hcalls').1 honce.nodup).mp
          (hcalls'.trans hcalls.symm)
      subst hsame
      exact ⟨payload, requests, getElem?_of_initial hinitial hframe, rfl,
        hseq.requests_prefix hinverse, hrequest, hseq.small⟩

/-- A response with another id. -/
theorem respond_of_mismatch {id : Nat} {parse : List UInt8 → Except String Value}
    {response : Envelope} (hid : numberOfLong response.requestId ≠ id) :
    ∃ message, respond id parse response = .error (.error message) := by
  rw [respond, if_pos hid]
  exact ⟨_, rfl⟩

theorem outcome_ne_error (parse : List UInt8 → Except String Value) (response : Envelope)
    (message : String) : outcome parse response ≠ .error (.error message) := by
  rw [outcome]
  split
  · exact fun h => (by cases h)
  · cases parse response.payload <;> exact fun h => (by cases h)

variable {spaced : List (Option (List UInt8))} {first second : Client Value} {i r : Nat}
  {request : Envelope} {result result' : Except CallError Value}

/-- As long as no empty frame comes before the frame whose turn it is, the result
is the same. -/
theorem result_eq_of_not_mem (hinverse : format.Inverse)
    (hfits : frameHeader.Fits (plain spaced))
    (hfirst : first.ReadsFrom format decode (frameHeader.stream (plain spaced)))
    (hsecond : second.ReadsFrom format decode (frameHeader.stream (filled [] spaced)))
    (hgets : first.Gets format i r request result)
    (hgets' : second.Gets format i r request result') (hnone : none ∉ spaced.take (r + 1)) :
    result = result' := by
  have hfilled : frameHeader.Fits (filled [] spaced) :=
    forall_mem_filled (Nat.zero_le _) hfits
  obtain ⟨payload, -, hframe, rfl, -⟩ := hgets.answered hinverse hfits hfirst
  obtain ⟨payload', -, hframe', rfl, -⟩ := hgets'.answered hinverse hfilled hsecond
  rw [getElem?_filled [] hnone, hframe] at hframe'
  cases hframe'
  rfl

/-- Behind an empty frame, a call finds the id of another request. -/
theorem result_ne_of_mem (hinverse : format.Inverse) (hempty : format.parse [] = .ok .empty)
    (hfits : frameHeader.Fits (plain spaced))
    (hfirst : first.ReadsFrom format decode (frameHeader.stream (plain spaced)))
    (hsecond : second.ReadsFrom format decode (frameHeader.stream (filled [] spaced)))
    (hgets : first.Gets format i r request result)
    (hgets' : second.Gets format i r request result')
    (hmirrored : Mirrored format (format.envelopes (first.conns 0).output) (plain spaced) r)
    (hnone : none ∈ spaced.take (r + 1)) : result ≠ result' := by
  have hfilled : frameHeader.Fits (filled [] spaced) :=
    forall_mem_filled (Nat.zero_le _) hfits
  obtain ⟨payload, requests, hframe, rfl, hinitial, hrequest, hsmall⟩ :=
    hgets.answered hinverse hfits hfirst
  obtain ⟨payload', -, hframe', rfl, -⟩ := hgets'.answered hinverse hfilled hsecond
  have hwritten := getElem?_of_initial hinitial hrequest
  obtain ⟨response, hparse, hid⟩ := hmirrored.own hwritten hframe
  obtain ⟨other, hparse', hother⟩ := hmirrored.shifted hempty hnone hframe'
  have hne := hmirrored.requestId_ne hwritten hother
  have hlow := hsmall request (List.mem_of_getElem? hrequest)
  have hotherLow : other.requestId.toNat ≤ 2 ^ 53 := by
    rcases hother with hzero | ⟨k, hk, earlier, hearlier, hsame⟩
    · rw [hzero]
      exact Nat.zero_le _
    · obtain ⟨same, hsame'⟩ : ∃ same, requests[k]? = some same :=
        ⟨_, List.getElem?_eq_getElem (hk.trans (List.getElem?_eq_some_iff.mp hrequest).1)⟩
      have hequal := getElem?_of_initial hinitial hsame'
      rw [hearlier] at hequal
      cases hequal
      rw [hsame]
      exact hsmall _ (List.mem_of_getElem? hsame')
  have hmismatch : numberOfLong other.requestId ≠ request.requestId.toNat := by
    rw [numberOfLong_of_le hotherLow]
    exact fun h => hne (UInt64.toNat_inj.mp h)
  obtain ⟨message, hmessage⟩ := @respond_of_mismatch _ _ (decode i) _ hmismatch
  rw [received, hparse, received, hparse']
  dsimp only
  rw [respond_of_mirrored hid hlow, hmessage]
  exact outcome_ne_error _ _ _

end Client

end Ibridger.Js
