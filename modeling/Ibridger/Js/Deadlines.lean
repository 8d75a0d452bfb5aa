import Ibridger.Js.Abandoned
import Ibridger.Js.FrameWriter

/-! # The timer of a call, in JS

`withTimeout` is put around the `recv` of a call. While the call still writes its
request it waits for the peer as well, and no timer is armed.
-/

namespace Ibridger.Js

open Transition UnixSocketConnection Wire

/-- The timeout with which a call has begun. -/
def CallPhase.Carries {Value : Type} (timeoutMs : Nat) : CallPhase Value → Prop
  | .sending _ _ carried _ | .receiving _ _ carried => carried = timeoutMs
  | _ => True

/-- A call that is sending has failed to. -/
def CallPhase.Unwritten {Value : Type} : CallPhase Value → Prop
  | .sending _ _ _ send => ∃ error, send = .settled (.error error)
  | _ => True

namespace Client

variable {Value : Type} {client next : Client Value}

/-- The header or the body of the request has not been taken yet. -/
def Writes (client : Client Value) (i : Nat) : Prop :=
  match (client.calls i).phase with
  | .sending c _ _ (.header ticket _) | .sending c _ _ (.body ticket) =>
      (client.conns c).sendOutcome ticket = .pending
  | _ => False

/-- The response has not come. -/
def AwaitsResponse (client : Client Value) (i : Nat) : Prop :=
  match (client.calls i).phase with
  | .receiving r _ _ => ∀ read, client.reads[r]? = some read → ∀ result, read.frame ≠ .settled result
  | _ => False

/-- A timer of the configured timeout is armed for the call. -/
def Armed (client : Client Value) (i : Nat) : Prop :=
  ∃ r id, (client.calls i).phase = .receiving r id (client.timeoutMs (client.calls i)) ∧
    client.timeout i =
      some (client.setPhase i (.failing (timedOut (client.timeoutMs (client.calls i)))))

/-- Every call that waits for the peer has a deadline. -/
def Deadline (client : Client Value) : Prop :=
  ∀ i, client.Writes i ∨ client.AwaitsResponse i → client.Armed i

/-- The call that would start with the event, if the client were connected. -/
def starting (client : Client Value) : ClientEvent → Option (Call Value)
  | .call i service method encoded options =>
      match (client.calls i).phase with
      | .idle => some ((client.called i service method encoded options).calls i)
      | _ => none
  | .resume i =>
      match (client.calls i).phase with
      | .starting => some (client.calls i)
      | _ => none
  | _ => none

/-- The event makes a call write its request: the client is connected and free, and
the request is encoded, can be serialized and fits into a frame. -/
def WritesRequest (format : EnvelopeFormat) (client : Client Value) (event : ClientEvent) : Prop :=
  ∃ call c payload bytes, client.starting event = some call ∧ client.codec = some c ∧
    client.callInFlight = false ∧ call.encoded = .ok payload ∧
    format.serialize (requestEnvelope call client.nextRequestId payload) = some bytes ∧
    bytes.length ≤ MAX_FRAME_SIZE

/-! ## The timeout of a call -/

/-- Every call carries the timeout that is configured for it. -/
def Timed (client : Client Value) : Prop :=
  ∀ i, (client.calls i).phase.Carries (client.timeoutMs (client.calls i))

theorem init_timed (config : ClientConfig) : Timed (init config : Client Value) :=
  fun _ => trivial

theorem Timed.update (htimed : Timed client) {i : Nat} {call : Call Value}
    (hcalls : next.calls = Function.update client.calls i call)
    (hconfig : next.config = client.config)
    (hcall : call.phase.Carries (client.timeoutMs call)) : Timed next := by
  intro j
  rw [timeoutMs, hconfig, hcalls, Function.update_apply]
  split
  · exact hcall
  · exact htimed j

theorem Timed.congr (htimed : Timed client) (hcalls : next.calls = client.calls)
    (hconfig : next.config = client.config) : Timed next := by
  intro j
  rw [timeoutMs, hconfig, hcalls]
  exact htimed j

variable {format : EnvelopeFormat} {decode : Nat → List UInt8 → Except String Value}

theorem Timed.start (htimed : Timed client) (i : Nat) : Timed (client.start format i) := by
  have hstarts := client.start_cases format i
  generalize client.start format i = next at hstarts ⊢
  cases hstarts with
  | rejected error => exact htimed.update rfl rfl trivial
  | unserializable c payload _ _ _ _ =>
      exact htimed.update (begun_setPhase_calls client i c payload _) rfl trivial
  | sending c payload bytes _ _ _ _ =>
      exact htimed.update (begun_setPhase_calls client i c payload _) rfl rfl

theorem Timed.resume (htimed : Timed client) {i : Nat}
    (hresume : client.resume format decode i = some next) : Timed next := by
  have hphase := htimed i
  cases resume_cases hresume with
  | starting _ => exact htimed.start i
  | receiving c id timeoutMs hsending =>
      rw [hsending] at hphase
      unfold receive
      split
      · exact htimed.update rfl rfl trivial
      · exact htimed.update rfl rfl hphase
  | unsent | received | failing => exact htimed.update rfl rfl trivial
  | sending c id timeoutMs send result hsending _ =>
      rw [hsending] at hphase
      obtain ⟨send', conn⟩ := result
      exact htimed.update rfl rfl hphase

theorem step_config {event : ClientEvent} (hstep : client.step format decode event = some next) :
    next.config = client.config := by
  by_cases hcalm : ¬ event.Lifecycle
  · exact (step_calm hcalm hstep).config_eq
  cases event with
  | close c | error c message code =>
      obtain ⟨-, conn, -, -, rfl⟩ := lost_eq rfl hstep
      rw [onDisconnect_eq]
      rfl
  | connect | disconnect | connected | connectFailed | sleepOver =>
      obtain ⟨-, hnext⟩ := connecting_eq (by trivial) rfl hstep
      rw [hnext]
  | call | data | written | poll | timeout | resume | read => exact absurd id hcalm

theorem Timed.step {event : ClientEvent} (htimed : Timed client)
    (hstep : client.step format decode event = some next) : Timed next := by
  by_cases hcall : ¬ event.OfCall
  · exact htimed.congr (step_callsKept hcall hstep).calls_eq (step_config hstep)
  cases event with
  | call i service method encoded options =>
      obtain ⟨-, hnext⟩ := call_cases hstep
      have hcalled : Timed (client.called i service method encoded options) :=
        htimed.update rfl rfl trivial
      rcases hnext with ⟨-, rfl⟩ | rfl
      · exact hcalled.update rfl rfl trivial
      · exact hcalled.start i
  | poll i =>
      obtain ⟨-, rfl | rfl | rfl⟩ := poll_cases hstep
      · exact htimed.update rfl rfl trivial
      · exact htimed
      · exact htimed.update rfl rfl trivial
  | timeout i =>
      obtain ⟨r, id, timeoutMs, -, rfl⟩ := timeout_cases hstep
      exact htimed.update rfl rfl trivial
  | resume i => exact htimed.resume hstep
  | connect | disconnect | connected | connectFailed | data | close | error | written | sleepOver
  | read => exact absurd id hcall

/-! ## Which states have a deadline for every call -/

/-- While the response has not come, the timer is armed. -/
theorem Timed.armed (htimed : Timed client) {i : Nat} (hawaits : client.AwaitsResponse i) :
    client.Armed i := by
  have hcarries := htimed i
  unfold AwaitsResponse at hawaits
  cases hphase : (client.calls i).phase with
  | receiving r id carried =>
      rw [hphase] at hawaits hcarries
      have hsame : carried = client.timeoutMs (client.calls i) := hcarries
      subst hsame
      refine ⟨r, id, hphase, ?_⟩
      unfold Client.timeout
      rw [hphase]
      dsimp only
      split
      next read _ result hread => exact absurd rfl (hawaits _ hread result)
      · rfl
  | idle | waiting | starting | sending | failing | settled =>
      rw [hphase] at hawaits
      exact hawaits.elim

theorem Writes.not_armed {i : Nat} (hwrites : client.Writes i) : ¬ client.Armed i := by
  rintro ⟨r, id, hphase, -⟩
  rw [Writes, hphase] at hwrites
  exact hwrites

theorem Writes.not_deadline {i : Nat} (hwrites : client.Writes i) : ¬ client.Deadline :=
  fun hdeadline => hwrites.not_armed (hdeadline i (.inl hwrites))

/-- No timer is armed exactly while a request is written. -/
theorem Timed.deadline_iff (htimed : Timed client) :
    client.Deadline ↔ ∀ i, ¬ client.Writes i := by
  constructor
  · intro hdeadline i hwrites
    exact hwrites.not_deadline hdeadline
  · rintro hnone i (hwrites | hawaits)
    · exact absurd hwrites (hnone i)
    · exact htimed.armed hawaits

/-! ## Which runs have -/

/-- No call writes. -/
def Unwriting (client : Client Value) : Prop :=
  ∀ i, (client.calls i).phase.Unwritten

theorem Unwriting.not_writes (hunwriting : Unwriting client) (i : Nat) : ¬ client.Writes i := by
  intro hwrites
  have hphase := hunwriting i
  unfold Writes at hwrites
  split at hwrites
  next hsending =>
    rw [hsending] at hphase
    obtain ⟨error, herror⟩ := hphase
    cases herror
  next hsending =>
    rw [hsending] at hphase
    obtain ⟨error, herror⟩ := hphase
    cases herror
  · exact hwrites

theorem Unwriting.update (hunwriting : Unwriting client) {i : Nat} {call : Call Value}
    (hcalls : next.calls = Function.update client.calls i call) (hcall : call.phase.Unwritten) :
    Unwriting next := by
  intro j
  rw [hcalls, Function.update_apply]
  split
  · exact hcall
  · exact hunwriting j

/-- A call that starts does not get as far as writing. -/
theorem Unwriting.start (hunwriting : Unwriting client) {i : Nat}
    (hnone : ∀ c payload bytes, client.codec = some c → client.callInFlight = false →
      (client.calls i).encoded = .ok payload →
      format.serialize (requestEnvelope (client.calls i) client.nextRequestId payload) = some bytes →
      MAX_FRAME_SIZE < bytes.length) : Unwriting (client.start format i) := by
  have hstarts := client.start_cases format i
  generalize client.start format i = next at hstarts ⊢
  cases hstarts with
  | rejected error => exact hunwriting.update rfl trivial
  | unserializable c payload _ _ _ _ =>
      exact hunwriting.update (begun_setPhase_calls client i c payload _) trivial
  | sending c payload bytes hcodec hfree hencoded hserialize =>
      have hsize := hnone c payload bytes hcodec hfree hencoded hserialize
      refine hunwriting.update (begun_setPhase_calls client i c payload _)
        ⟨frameTooLargeError bytes.length, ?_⟩
      change (sendFrame (client.conns c) bytes).1 = _
      rw [sendFrame, if_pos hsize]

theorem Unwriting.resume (hunwriting : Unwriting client) {i : Nat}
    (hnone : ¬ WritesRequest format client (.resume i))
    (hresume : client.resume format decode i = some next) : Unwriting next := by
  have hphase := hunwriting i
  cases resume_cases hresume with
  | starting hstarting =>
      refine hunwriting.start ?_
      intro c payload bytes hcodec hfree hencoded hserialize
      by_contra hfits
      refine hnone ⟨client.calls i, c, payload, bytes, ?_, hcodec, hfree, hencoded, hserialize,
        Nat.le_of_not_lt hfits⟩
      simp only [starting, hstarting]
  | receiving c id timeoutMs hsending =>
      rw [hsending] at hphase
      obtain ⟨error, herror⟩ := hphase
      cases herror
  | sending c id timeoutMs send result hsending hsend =>
      rw [hsending] at hphase
      obtain ⟨error, rfl⟩ := hphase
      cases hsend
  | unsent | received | failing => exact hunwriting.update rfl trivial

theorem Unwriting.step {event : ClientEvent} (hunwriting : Unwriting client)
    (hnone : ¬ WritesRequest format client event)
    (hstep : client.step format decode event = some next) : Unwriting next := by
  by_cases hcall : ¬ event.OfCall
  · intro j
    rw [(step_callsKept hcall hstep).calls_eq]
    exact hunwriting j
  cases event with
  | call i service method encoded options =>
      obtain ⟨hidle, hnext⟩ := call_cases hstep
      have hcalled : Unwriting (client.called i service method encoded options) :=
        hunwriting.update rfl trivial
      rcases hnext with ⟨-, rfl⟩ | rfl
      · exact hcalled.update rfl trivial
      · refine hcalled.start ?_
        intro c payload bytes hcodec hfree hencoded hserialize
        by_contra hfits
        refine hnone ⟨_, c, payload, bytes, ?_, hcodec, hfree, hencoded, hserialize,
          Nat.le_of_not_lt hfits⟩
        simp only [starting, hidle]
  | poll i =>
      obtain ⟨-, rfl | rfl | rfl⟩ := poll_cases hstep
      · exact hunwriting.update rfl trivial
      · exact hunwriting
      · exact hunwriting.update rfl trivial
  | timeout i =>
      obtain ⟨r, id, timeoutMs, -, rfl⟩ := timeout_cases hstep
      exact hunwriting.update rfl trivial
  | resume i => exact hunwriting.resume hnone hstep
  | connect | disconnect | connected | connectFailed | data | close | error | written | sleepOver
  | read => exact absurd id hcall

/-- A call that writes its request waits for the peer at once. -/
theorem start_writes {i c : Nat} {payload bytes : List UInt8} (hcodec : client.codec = some c)
    (hconnected : (client.conns c).connected = true) (hfree : client.callInFlight = false)
    (hencoded : (client.calls i).encoded = .ok payload)
    (hserialize : format.serialize
      (requestEnvelope (client.calls i) client.nextRequestId payload) = some bytes)
    (hfits : bytes.length ≤ MAX_FRAME_SIZE) : (client.start format i).Writes i := by
  have hstart : client.start format i = client.request format i c payload := by
    simp only [start, hcodec, hfree, hencoded, Bool.false_eq_true, if_false]
  have hsend : sendFrame (client.conns c) bytes =
      (.header (client.conns c).sends.length bytes,
        ((client.conns c).send (writeUInt32BE bytes.length)).2) := by
    rw [sendFrame, if_neg (Nat.not_lt.mpr hfits), send_connected hconnected]
  rw [hstart, request, hserialize]
  dsimp only
  rw [hsend, send_connected hconnected]
  simp [Writes, sending, setPhase, setCall, setConn, sendOutcome]

/-- The event starts its call. -/
theorem WritesRequest.writes {event : ClientEvent} (hwrites : WritesRequest format client event)
    (hgrounded : Grounded client) (hstep : client.step format decode event = some next) :
    ∃ i, next.Writes i := by
  obtain ⟨call, c, payload, bytes, hstarting, hcodec, hfree, hencoded, hserialize, hfits⟩ := hwrites
  have hconnected : (client.conns c).connected = true := by
    by_contra hended
    exact hgrounded.not_codec (by simpa using hended) hcodec
  cases event with
  | call i service method encoded options =>
      obtain ⟨hidle, ⟨hnone, -⟩ | rfl⟩ := call_cases hstep
      · rw [hcodec] at hnone
        cases hnone
      · simp only [starting, hidle] at hstarting
        cases hstarting
        exact ⟨i, start_writes hcodec hconnected hfree hencoded hserialize hfits⟩
  | resume i =>
      cases hphase : (client.calls i).phase with
      | starting =>
          simp only [starting, hphase] at hstarting
          cases hstarting
          simp only [Client.step, resume, hphase] at hstep
          cases hstep
          exact ⟨i, start_writes hcodec hconnected hfree hencoded hserialize hfits⟩
      | idle | waiting | sending | receiving | failing | settled =>
          simp only [starting, hphase] at hstarting
          cases hstarting
  | connect | disconnect | connected | connectFailed | data | close | error | written | sleepOver
  | poll | timeout | read => cases hstarting

/-- Along a run every call that waits for the peer has a deadline exactly when no
call gets as far as writing its request. -/
theorem throughout_deadline_iff (config : ClientConfig) (events : List ClientEvent) :
    Throughout (step format decode) Deadline (init config) events ↔
      Guarded (step format decode) (fun client event => ¬ WritesRequest format client event)
        (init config) events := by
  apply throughout_iff_guarded (fun client => Timed client ∧ Grounded client ∧ Unwriting client)
  · rintro client ⟨htimed, -, hunwriting⟩
    exact htimed.deadline_iff.mpr hunwriting.not_writes
  · rintro client event next ⟨htimed, hgrounded, hunwriting⟩ hnone hstep
    exact ⟨htimed.step hstep, hgrounded.step hstep, hunwriting.step hnone hstep⟩
  · rintro client event next ⟨htimed, hgrounded, -⟩ hwrites hstep hdeadline
    obtain ⟨i, hnext⟩ := (not_not.mp hwrites).writes hgrounded hstep
    exact (htimed.step hstep).deadline_iff.mp hdeadline i hnext
  · exact ⟨init_timed config, init_grounded config, fun _ => trivial⟩

end Client

end Ibridger.Js
