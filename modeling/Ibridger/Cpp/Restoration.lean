import Ibridger.Cpp.SingleCaller
import Ibridger.Foundation.Progress

/-! # Calls that outlast a lost connection, in C++

A call that found the client disconnected, or could not send its request, is bound to
return the response of the peer, if this can be reached within the attempts and stays up.
-/

namespace Ibridger.Cpp.Client

open LengthPrefix Transition Wire

variable (format : EnvelopeFormat) (reply : Envelope → Envelope) (n : Nat)

/-- What a call that waits for the next connection is to send on it. -/
def Due (client : Client) (i : Nat) (request : Envelope) : Prop :=
  match (client.calls i).phase with
  | .sleeping _ _ none => requestOf (client.calls i) client.nextRequestId = request
  | .sleeping _ _ (some _) | .notifying (.send _) => (client.calls i).request = some request
  | .idle | .notifying (.resend _) | .notifying (.recv _) | .returned _ => False

/-- The response comes in one frame. -/
def Responds (response : Envelope) (reads : List ReadOutcome) : Prop :=
  ∃ payload, payload.length ≤ MAX_FRAME_SIZE ∧ format.parse payload = .ok response ∧
    Delivers [] reads (frameHeader.frame payload)

/-- What the client does by itself while a call waits, and a peer that can be reached from
the attempt `n` on, that takes what is sent, and that answers a request with `reply`. -/
def Own (client : Client) : ClientEvent → Prop
  | .wake i outcome traffic =>
      Accepting traffic.sends ∧
        (outcome ≠ .connected → ∀ attempt delay resend,
          (client.calls i).phase = .sleeping attempt delay resend → attempt < n) ∧
        (outcome = .connected → ∀ request, client.Due i request →
          Responds format (reply request) traffic.reads)
  | .notified _ => True
  | .connect _ | .disconnect | .call _ _ _ _ _ => False

/-- The call has sent the request on the connection, and it has returned what it makes of
the response. -/
structure Answered (client : Client) (i c : Nat) (request : Envelope) : Prop where
  returned : (client.calls i).phase = .returned (accept request (reply request))
  sent : ∃ write ∈ client.writesOn c, write.call = i ∧ write.request = request ∧
    write.Complete format

/-- The attempts that are left, and the turn before them. -/
def turnsLeft (client : Client) (i : Nat) : Nat :=
  match (client.calls i).phase with
  | .notifying _ => n + 2
  | .sleeping attempt _ _ => n - attempt + 1
  | .idle | .returned _ => 0

/-- Every call that sleeps in `attempt_reconnect`, or is about to, is bound to get its
response on the next connection, from a peer that can be reached from some attempt on. -/
def Restores (config : ReconnectConfig) (client : Client) : Prop :=
  ∀ (reply : Envelope → Envelope) (n i : Nat), n < config.limit →
    ((∃ attempt delay resend, (client.calls i).phase = .sleeping attempt delay resend) ∨
      ∃ err, (client.calls i).phase = .notifying (.send err)) →
    ∃ request, client.Due i request ∧
      (Rpc.Sendable format request → Rpc.Sendable format (reply request) →
        Inevitable (step format) (Own format reply n)
          (fun last => last.Answered format reply i client.opened request) client)

variable {format} {reply} {n} {config : ReconnectConfig} {client next : Client}
  {event : ClientEvent} {i c : Nat} {request : Envelope} {bytes : List UInt8}

/-! ## Own steps are allowed -/

theorem Own.foreseen (hown : client.Own format reply n event) (hlimit : n < config.limit) :
    client.Foreseen config event := by
  cases event with
  | wake i outcome traffic =>
      refine ⟨progressing_of_accepting hown.1, ?_⟩
      intro hfailed attempt delay resend hphase
      have hlt := hown.2.1 hfailed attempt delay resend hphase
      omega
  | notified i => exact fun _ _ => Nat.zero_lt_of_lt hlimit
  | connect | disconnect | call => exact hown.elim

theorem Own.staysUp (hown : client.Own format reply n event) : client.StaysUp event := by
  cases event with
  | wake i outcome traffic => exact fun _ _ _ _ _ => hown.1
  | notified i => trivial
  | connect | disconnect | call => exact hown.elim

/-! ## The exchange on the new connection -/

/-- A request that the peer takes and answers brings its call to an end. -/
theorem Exchanging.answered {middle : Client} {after : ErrorCode → AfterDisconnect}
    {error : Option ErrorCode} {conn : UnixSocketConnection}
    (hexchanging : Exchanging format middle i c request after error conn next)
    (hserialize : format.serialize request = some bytes) (hfits : bytes.length ≤ MAX_FRAME_SIZE)
    (haccept : Accepting (middle.links c).conn.sends)
    (hresponds : Responds format (reply request) (middle.links c).conn.reads) :
    next.Answered format reply i c request := by
  obtain ⟨payload, hsize, hparse, hdelivers⟩ := hresponds
  obtain ⟨left, rfl, -, rfl⟩ :=
    EnvelopeCodec.send_of_accepting hserialize hfits haccept hexchanging.send_eq
  have hscan := frameHeader.scan_frame_append hsize []
  rw [List.append_nil] at hscan
  obtain ⟨unread, hrecv, -⟩ := @EnvelopeCodec.recv_of_frame format
    { (middle.links c).conn with
      wire := (middle.links c).conn.wire ++ frameHeader.frame bytes, sends := left }
    [] _ payload [] _ hdelivers hscan hparse
  refine ⟨?_, ⟨i, c, request, frameHeader.frame bytes, none⟩, mem_writesOn.mpr ⟨?_, rfl⟩, rfl, rfl,
    bytes, hserialize, List.infix_rfl⟩
  · exact (hexchanging.received hrecv).1
  · rw [hexchanging.writes_eq, List.drop_left]
    exact List.mem_append_right _ List.mem_cons_self

/-- A connection that has just been opened has only what comes with the step. -/
theorem Tended.offered {traffic : Traffic} (htended : client.Tended format config) :
    ((client.offer client.opened traffic).links client.opened).conn.sends = traffic.sends ∧
      ((client.offer client.opened traffic).links client.opened).conn.reads = traffic.reads := by
  obtain ⟨hsends, hreads⟩ := htended.pristine client.opened (Nat.le_refl _)
  rw [offer, setLink_links, if_pos rfl]
  dsimp only
  rw [hsends, hreads]
  exact ⟨List.nil_append _, List.nil_append _⟩

/-! ## Steps -/

theorem Due.underWay (hdue : client.Due i request) : (client.calls i).phase.UnderWay := by
  unfold Due at hdue
  cases hphase : (client.calls i).phase with
  | sleeping attempt delay resend => trivial
  | notifying after => trivial
  | idle | returned =>
      rw [hphase] at hdue
      exact hdue.elim

theorem Due.unique {other : Envelope} (hdue : client.Due i request)
    (hother : client.Due i other) : request = other := by
  unfold Due at hdue hother
  cases hphase : (client.calls i).phase with
  | sleeping attempt delay resend =>
      rw [hphase] at hdue hother
      cases resend with
      | none => exact hdue.symm.trans hother
      | some err => exact Option.some_inj.mp (hdue.symm.trans hother)
  | notifying after =>
      rw [hphase] at hdue hother
      cases after with
      | send err => exact Option.some_inj.mp (hdue.symm.trans hother)
      | resend | recv => exact hdue.elim
  | idle | returned =>
      rw [hphase] at hdue
      exact hdue.elim

/-- A call that sleeps, or is about to, has a request to send. -/
theorem Tended.due (htended : client.Tended format config)
    (hphase : (∃ attempt delay resend, (client.calls i).phase = .sleeping attempt delay resend) ∨
      ∃ err, (client.calls i).phase = .notifying (.send err)) :
    ∃ request, client.Due i request := by
  rcases hphase with ⟨attempt, delay, resend, hphase⟩ | ⟨err, hphase⟩
  · obtain ⟨-, -, -, hrequest⟩ := htended.asleep hphase
    cases resend with
    | none =>
        refine ⟨requestOf (client.calls i) client.nextRequestId, ?_⟩
        simp only [Due, hphase]
    | some err =>
        obtain ⟨request, hrequest⟩ := hrequest err rfl
        refine ⟨request, ?_⟩
        simp only [Due, hphase]
        exact hrequest
  · have hfaring := htended.faring i
    rw [hphase] at hfaring
    cases hfaring with
    | unsent _ request _ hrequest =>
        refine ⟨request, ?_⟩
        simp only [Due, hphase]
        exact hrequest

/-- An attempt that succeeds brings the call to its end. -/
theorem Due.connected {traffic : Traffic} (hdue : client.Due i request)
    (htended : client.Tended format config) (hserialize : format.serialize request = some bytes)
    (hfits : bytes.length ≤ MAX_FRAME_SIZE)
    (hown : client.Own format reply n (.wake i .connected traffic)) (hcodec : client.codec = none)
    (hstep : client.step format (.wake i .connected traffic) = some next) :
    next.Answered format reply i client.opened request := by
  obtain ⟨haccept, -, hresponds⟩ := hown
  obtain ⟨hsends, hreads⟩ := @Tended.offered _ _ _ traffic htended
  have hcame := hresponds rfl request hdue
  unfold Due at hdue
  cases step_moves hstep with
  | failed _ _ _ hsame =>
      rw [connectLocked_connected hcodec, hcodec] at hsame
      cases hsame
  | restarted _ _ _ hphase hexchanged =>
      rw [hphase] at hdue
      obtain rfl := hdue
      have hprepared := prepared_restarted traffic hcodec hphase
      obtain ⟨error, conn, hexchanging⟩ := hexchanged.exchanging
      refine hexchanging.answered hserialize hfits ?_ ?_
      · rwa [hprepared.links_eq, hsends]
      · rwa [hprepared.links_eq, hreads]
  | resent _ _ _ hphase hrequest hexchanged =>
      rw [hphase] at hdue
      obtain rfl := Option.some_inj.mp (hrequest.symm.trans hdue)
      have hprepared := prepared_resent traffic hcodec hphase hrequest
      obtain ⟨error, conn, hexchanging⟩ := hexchanged.exchanging
      refine hexchanging.answered hserialize hfits ?_ ?_
      · rwa [hprepared.links_eq, hsends]
      · rwa [hprepared.links_eq, hreads]

theorem turnsLeft_setPhase (client : Client) (i : Nat) (phase : CallPhase) :
    (client.setPhase i phase).turnsLeft n i =
      match phase with
      | .notifying _ => n + 2
      | .sleeping attempt _ _ => n - attempt + 1
      | .idle | .returned _ => 0 := by
  rw [turnsLeft, setPhase_calls, if_pos rfl]

/-- Whatever happens next, the call gets closer to its response. -/
theorem Due.step (hdue : client.Due i request) (htended : client.Tended format config)
    (hlimit : n < config.limit) (hserialize : format.serialize request = some bytes)
    (hfits : bytes.length ≤ MAX_FRAME_SIZE) (hown : client.Own format reply n event)
    (hstep : client.step format event = some next) :
    (next.Due i request ∧ next.opened = client.opened ∨
        next.Answered format reply i client.opened request) ∧
      next.turnsLeft n i < client.turnsLeft n i := by
  cases event with
  | connect | disconnect | call => exact hown.elim
  | wake j outcome traffic =>
      obtain ⟨attempt, delay, resend, hphase⟩ := wake_sleeping hstep
      obtain rfl : j = i := htended.alone j i (by rw [hphase]; trivial) hdue.underWay
      obtain ⟨hcodec, -⟩ := htended.asleep hphase
      by_cases hconnected : outcome = .connected
      · subst hconnected
        have hanswered := hdue.connected htended hserialize hfits hown hcodec hstep
        refine ⟨.inr hanswered, ?_⟩
        rw [turnsLeft, turnsLeft, hanswered.returned, hphase]
        exact Nat.succ_pos _
      · have hlt := hown.2.1 hconnected attempt delay resend hphase
        rw [wake_failed hcodec htended.config_eq (by omega) hphase hconnected] at hstep
        cases hstep
        refine ⟨.inl ⟨?_, rfl⟩, ?_⟩
        · unfold Due at hdue ⊢
          rw [hphase] at hdue
          rw [setPhase_calls, if_pos rfl]
          cases resend with
          | none => exact hdue
          | some err => exact hdue
        · rw [turnsLeft_setPhase, turnsLeft, hphase]
          dsimp only
          omega
  | notified j =>
      obtain ⟨after, hphase⟩ := notified_notifying hstep
      obtain rfl : j = i := htended.alone j i (by rw [hphase]; trivial) hdue.underWay
      have hold := hdue
      unfold Due at hold
      rw [hphase] at hold
      cases after with
      | resend | recv => exact hold.elim
      | send err =>
          rw [notified_send htended.config_eq (by omega) hphase] at hstep
          cases hstep
          refine ⟨.inl ⟨?_, rfl⟩, ?_⟩
          · unfold Due
            rw [setPhase_calls, if_pos rfl]
            exact hold
          · rw [turnsLeft_setPhase, turnsLeft, hphase]
            dsimp only
            omega

/-! ## Progress -/

theorem Tended.rests (htended : client.Tended format config) :
    Rests (client.links client.opened) := by
  obtain ⟨hsends, hreads⟩ := htended.pristine client.opened (Nat.le_refl _)
  rw [Rests, hsends, hreads]
  exact ⟨fun _ hmem => absurd hmem List.not_mem_nil, .nil⟩

/-- As long as the call has not returned, it can go on. -/
theorem Due.goes_on (hdue : client.Due i request) (htended : client.Tended format config)
    (hlimit : n < config.limit) (hserialize : format.serialize request = some bytes)
    (hfits : bytes.length ≤ MAX_FRAME_SIZE) (hinverse : format.Inverse)
    (hreply : Rpc.Sendable format (reply request)) :
    ∃ event next, client.Own format reply n event ∧ client.step format event = some next := by
  obtain ⟨payload, -, hsize, hparse⟩ := hreply.parses hinverse
  have hown : client.Own format reply n (.wake i .connected (answering bytes payload)) := by
    refine ⟨accepting_answering bytes payload, fun h => absurd rfl h, ?_⟩
    intro _ other hother
    rw [hother.unique hdue]
    exact ⟨payload, hsize, hparse, delivers_answering bytes payload⟩
  obtain ⟨left, unread, -, -, hsend, hrecv⟩ :=
    @offer_answering format client client.opened bytes payload request _ _ rfl htended.rests
      hserialize hfits hparse hsize
  have hold := hdue
  unfold Due at hold
  cases hphase : (client.calls i).phase with
  | sleeping attempt delay resend =>
      obtain ⟨hcodec, -⟩ := htended.asleep hphase
      rw [hphase] at hold
      cases resend with
      | none =>
          obtain rfl := hold
          exact ⟨_, _, hown, step_restarted hcodec hphase (.answered hsend hrecv)⟩
      | some err =>
          exact ⟨_, _, hown, step_resent hcodec hphase hold (.answered hsend hrecv)⟩
  | notifying after =>
      rw [hphase] at hold
      cases after with
      | send err =>
          exact ⟨.notified i, _, trivial, notified_send htended.config_eq (by omega) hphase⟩
      | resend | recv => exact hold.elim
  | idle | returned =>
      rw [hphase] at hold
      exact hold.elim

/-- A call that waits for the next connection returns the response of its peer. -/
theorem Tended.inevitable (htended : client.Tended format config) (hinverse : format.Inverse)
    (hlimit : n < config.limit) (hdue : client.Due i request)
    (hsendable : Rpc.Sendable format request) (hreply : Rpc.Sendable format (reply request)) :
    Inevitable (Client.step format) (Own format reply n)
      (fun last => last.Answered format reply i client.opened request) client := by
  obtain ⟨bytes, hserialize, hfits⟩ := hsendable
  refine inevitable_of_rank (fun state : Client => state.Tended format config ∧
    (state.Due i request ∧ state.opened = client.opened ∨
      state.Answered format reply i client.opened request)) (turnsLeft n · i) ?_ ?_
    ⟨htended, .inl ⟨hdue, rfl⟩⟩
  · rintro state event next ⟨htended, hwhere⟩ hunanswered hown hstep
    obtain ⟨hdue, hopened⟩ := hwhere.resolve_right hunanswered
    obtain ⟨hnext, hfalls⟩ := hdue.step htended hlimit hserialize hfits hown hstep
    rw [hopened] at hnext
    exact ⟨⟨htended.step (hown.foreseen hlimit) hown.staysUp hstep, hnext⟩, hfalls⟩
  · rintro state ⟨htended, hwhere⟩ hunanswered
    obtain ⟨hdue, -⟩ := hwhere.resolve_right hunanswered
    exact hdue.goes_on htended hlimit hserialize hfits hinverse hreply

theorem Tended.restores (htended : client.Tended format config) (hinverse : format.Inverse) :
    client.Restores format config := by
  intro reply n i hlimit hphase
  obtain ⟨request, hdue⟩ := htended.due hphase
  refine ⟨request, hdue, ?_⟩
  intro hsendable hreply
  exact htended.inevitable hinverse hlimit hdue hsendable hreply

end Ibridger.Cpp.Client
