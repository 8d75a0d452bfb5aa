import Ibridger.Cpp.ClientState
import Ibridger.Cpp.Correlation
import Ibridger.Rpc.ResultSize

/-! # One caller and lost connections, in C++

A call that cannot send its request reconnects and sends it once more. If the peer takes
this second frame, no call learns from the connection that its request was lost.
-/

namespace Ibridger.Cpp

open Transition Wire

/-- The call has been made and has not returned. -/
def CallPhase.UnderWay : CallPhase → Prop
  | .idle | .returned _ => False
  | .sleeping _ _ _ | .notifying _ => True

namespace Client

variable (format : EnvelopeFormat) (config : ReconnectConfig)

/-- One caller connects and makes its calls one after the other, and an attempt that
fails is not the last one. -/
def Foreseen (client : Client) : ClientEvent → Prop
  | .disconnect => False
  | .connect _ => ∀ i, ¬ (client.calls i).phase.UnderWay
  | .call _ _ _ _ traffic =>
      (∀ i, ¬ (client.calls i).phase.UnderWay) ∧ Progressing traffic.sends ∧
        (client.codec = none → 0 < config.limit)
  | .wake i outcome traffic =>
      Progressing traffic.sends ∧
        (outcome ≠ .connected → ∀ attempt delay resend,
          (client.calls i).phase = .sleeping attempt delay resend → attempt + 1 < config.limit)
  | .notified i => ∀ err, (client.calls i).phase = .notifying (.send err) → 0 < config.limit

/-- A peer that a call has reached again, after its first sending failed, takes the
second one. -/
def StaysUp (client : Client) : ClientEvent → Prop
  | .wake i outcome traffic => outcome = .connected → ∀ attempt delay err,
      (client.calls i).phase = .sleeping attempt delay (some err) → Accepting traffic.sends
  | .connect _ | .disconnect | .call _ _ _ _ _ | .notified _ => True

/-- The complete frame of the request has gone out on some connection. -/
def Delivered (client : Client) (i : Nat) : Prop :=
  ∃ write ∈ client.writes, write.call = i ∧ write.Complete format

/-- The envelope of the request does not fit into a frame. -/
def Unsendable (client : Client) (i : Nat) : Prop :=
  ∃ request, (client.calls i).request = some request ∧ ¬ Rpc.Sendable format request

/-- A call that has returned an error has delivered its request, or the request cannot
be sent. -/
def ErrsDelivered (client : Client) : Prop :=
  ∀ i err, (client.calls i).phase = .returned (.error err) →
    client.Delivered format i ∨ client.Unsendable format i

/-- What the phase of a call has to do with the connection and the attempts. -/
inductive Faring (client : Client) (i : Nat) : CallPhase → Prop where
  | idle : Faring client i .idle
  | asleep (attempt : Nat) (delay : Int) (hcodec : client.codec = none)
      (hlimit : attempt < config.limit) : Faring client i (.sleeping attempt delay none)
  | asleepAgain (attempt : Nat) (delay : Int) (err : ErrorCode) (request : Envelope)
      (hcodec : client.codec = none) (hlimit : attempt < config.limit)
      (hrequest : (client.calls i).request = some request) :
      Faring client i (.sleeping attempt delay (some err))
  | unsent (err : ErrorCode) (request : Envelope) (hcodec : client.codec = none)
      (hrequest : (client.calls i).request = some request) :
      Faring client i (.notifying (.send err))
  | unresent (err : ErrorCode) (hunsendable : client.Unsendable format i) :
      Faring client i (.notifying (.resend err))
  | unreceived (err : ErrorCode) (hdelivered : client.Delivered format i) :
      Faring client i (.notifying (.recv err))
  | answered (response : Envelope) : Faring client i (.returned (.ok response))
  | failed (err : ErrorCode)
      (hends : client.Delivered format i ∨ client.Unsendable format i) :
      Faring client i (.returned (.error err))

/-- A client with `reconnect` that one caller uses, and that no peer has left a second
time. -/
structure Tended (client : Client) : Prop where
  config_eq : client.config.reconnect = some config
  once : AtMostOnce format client
  streams : Streams format client
  pristine : ∀ c, client.opened ≤ c →
    (client.links c).conn.sends = [] ∧ (client.links c).conn.reads = []
  alone : ∀ i j, (client.calls i).phase.UnderWay → (client.calls j).phase.UnderWay → i = j
  faring : ∀ i, client.Faring format config i (client.calls i).phase

variable {format} {config} {client next : Client} {event : ClientEvent}

/-! ## What every step keeps -/

theorem Foreseen.progressing (hforeseen : client.Foreseen config event) :
    Progressing event.traffic.sends := by
  cases event with
  | connect | disconnect | notified => exact fun outcome hmem => absurd hmem List.not_mem_nil
  | call => exact hforeseen.2.1
  | wake => exact hforeseen.1

theorem step_config (hstep : client.step format event = some next) :
    next.config = client.config := by
  cases step_moves hstep with
  | connect outcome => exact connectLocked_config client outcome
  | disconnect =>
      rw [disconnect_eq]
  | entered | resumed => rfl
  | failed i outcome => exact connectLocked_config client outcome
  | began _ _ _ _ _ _ _ _ hexchanged | restarted _ _ _ _ hexchanged
  | resent _ _ _ _ _ hexchanged =>
      obtain ⟨error, conn, hexchanging⟩ := hexchanged.exchanging
      exact hexchanging.config_eq

theorem step_writes (hstep : client.step format event = some next) :
    client.writes <+: next.writes := by
  rcases step_cases hstep with hquiet | ⟨i, c, request, after, middle, error, conn, hprepared, -,
    hexchanging⟩
  · exact hquiet.writes_eq ▸ List.prefix_refl client.writes
  · rw [hexchanging.writes_eq, hprepared.writes_eq]
    exact List.prefix_append _ _

/-- A connection that has not been opened is left alone. -/
theorem step_pristine (honce : AtMostOnce format client)
    (hpristine : ∀ c, client.opened ≤ c →
      (client.links c).conn.sends = [] ∧ (client.links c).conn.reads = [])
    (hstep : client.step format event = some next) {c : Nat} (hc : next.opened ≤ c) :
    (next.links c).conn.sends = [] ∧ (next.links c).conn.reads = [] := by
  rcases step_cases hstep with hquiet | ⟨i, d, request, after, middle, error, conn, hprepared, -,
    hexchanging⟩
  · obtain ⟨-, hsends, hreads, -⟩ := hquiet.links c
    rw [hsends, hreads]
    exact hpristine c (Nat.le_trans hquiet.opened_le hc)
  · obtain ⟨hne, hle⟩ := honce.unopened_behind hprepared hexchanging hc
    obtain ⟨-, hsends, -, hreads⟩ := hexchanging.links_eq c
    rw [hsends, if_neg hne, hreads hne, hprepared.links_eq, offer, setLink_links, if_neg hne]
    exact hpristine c hle

theorem Delivered.mono {i : Nat} (hdelivered : client.Delivered format i)
    (hwrites : client.writes <+: next.writes) : next.Delivered format i := by
  obtain ⟨write, hmem, hcall, hcomplete⟩ := hdelivered
  exact ⟨write, hwrites.subset hmem, hcall, hcomplete⟩

/-- The step of another call changes nothing for one that is not under way. -/
theorem Faring.other {i : Nat} (hfaring : client.Faring format config i (client.calls i).phase)
    (hrests : ¬ (client.calls i).phase.UnderWay) (hcall : next.calls i = client.calls i)
    (hwrites : client.writes <+: next.writes) :
    next.Faring format config i (next.calls i).phase := by
  have hsame : next.Unsendable format i ↔ client.Unsendable format i := by
    rw [Unsendable, hcall, Unsendable]
  rw [hcall]
  generalize (client.calls i).phase = phase at hfaring hrests
  cases hfaring with
  | idle => exact .idle
  | asleep | asleepAgain | unsent | unresent | unreceived => exact absurd trivial hrests
  | answered response => exact .answered response
  | failed err hends =>
      exact .failed err (hends.imp (fun hdelivered => hdelivered.mono hwrites) hsame.mpr)

/-- A step of one call, with no other under way. -/
theorem Tended.onCall {i : Nat} (htended : client.Tended format config)
    (hforeseen : client.Foreseen config event)
    (hstep : client.step format event = some next)
    (hothers : ∀ j, j ≠ i → next.calls j = client.calls j)
    (halone : ∀ j, j ≠ i → ¬ (client.calls j).phase.UnderWay)
    (hfaring : next.Faring format config i (next.calls i).phase) : next.Tended format config := by
  have hwrites := step_writes hstep
  refine ⟨(congrArg ClientConfig.reconnect (step_config hstep)).trans htended.config_eq,
    htended.once.step hstep, htended.streams.step htended.once hforeseen.progressing hstep,
    fun c hc => step_pristine htended.once htended.pristine hstep hc, ?_, ?_⟩
  · have honly : ∀ j, (next.calls j).phase.UnderWay → j = i := by
      intro j hj
      by_contra hne
      rw [hothers j hne] at hj
      exact halone j hne hj
    exact fun j k hj hk => (honly j hj).trans (honly k hk).symm
  · intro j
    by_cases hj : j = i
    · subst hj
      exact hfaring
    · exact (htended.faring j).other (halone j hj) (hothers j hj) hwrites

theorem init_tended {clientConfig : ClientConfig} (hconfig : clientConfig.reconnect = some config) :
    (init clientConfig).Tended format config :=
  ⟨hconfig, atMostOnce_init clientConfig, streams_init clientConfig, fun _ _ => ⟨rfl, rfl⟩,
    fun _ _ hidle => hidle.elim, fun _ => .idle⟩

/-! ## Steps -/

/-- Behind an exchange the call has its response, or it is clear what has gone out. -/
theorem Tended.exchanged {middle : Client} {i c : Nat} {traffic : Traffic} {request : Envelope}
    {after : ErrorCode → AfterDisconnect} {error : Option ErrorCode}
    {conn : UnixSocketConnection} (htended : client.Tended format config)
    (hstreams : Streams format next)
    (hprepared : Prepared client i c traffic request middle)
    (hexchanging : Exchanging format middle i c request after error conn next)
    (hafter : after = .send ∨
      after = .resend ∧ client.codec = none ∧ Accepting traffic.sends) :
    next.Faring format config i (next.calls i).phase := by
  have hrequest := hexchanging.own_request hprepared
  cases error with
  | some err =>
      obtain ⟨hphase, -, hcodec⟩ := hexchanging.unsent err rfl
      rw [hphase]
      rcases hafter with rfl | ⟨rfl, hdown, haccept⟩
      · exact .unsent err request hcodec hrequest
      · refine .unresent err ⟨request, hrequest, ?_⟩
        rintro ⟨bytes, hserialize, hfits⟩
        have hfresh : client.opened ≤ c := by
          rcases hprepared.conn with ⟨hopen, -⟩ | ⟨-, rfl, -⟩
          · rw [hdown] at hopen
            cases hopen
          · exact Nat.le_refl _
        have hsends : (middle.links c).conn.sends = traffic.sends := by
          rw [hprepared.links_eq, (client.offer_links c c traffic).2.1, if_pos rfl,
            (htended.pristine c hfresh).1, List.nil_append]
        obtain ⟨left, hnone, -⟩ := EnvelopeCodec.send_of_accepting hserialize hfits
          (by rwa [hsends]) hexchanging.send_eq
        cases hnone
  | none =>
      have hdelivered : next.Delivered format i := by
        have hmem : ⟨i, c, request, conn.wire.drop (middle.links c).conn.wire.length, none⟩ ∈
            next.writes := by
          rw [hexchanging.writes_eq]
          exact List.mem_append_right _ List.mem_cons_self
        obtain ⟨bytes, hserialize, -, hwritten⟩ := (hstreams.sound _ hmem).sent rfl
        exact ⟨_, hmem, rfl, bytes, hserialize, hwritten ▸ List.infix_refl _⟩
      rcases (hexchanging.sent rfl).2 with ⟨err, last, -, hphase, -⟩ |
        ⟨response, last, -, hphase, -⟩
      · rw [hphase]
        exact .unreceived err hdelivered
      · rw [hphase]
        cases accept request response with
        | ok response => exact .answered response
        | error err => exact .failed err (.inl hdelivered)

theorem call_idle {i : Nat} {service method : String} {payload : List UInt8} {traffic : Traffic}
    (hstep : client.step format (.call i service method payload traffic) = some next) :
    (client.calls i).phase = .idle := by
  simp only [step] at hstep
  split at hstep
  next hidle => exact hidle
  · cases hstep

theorem wake_sleeping {i : Nat} {outcome : ConnectOutcome} {traffic : Traffic}
    (hstep : client.step format (.wake i outcome traffic) = some next) :
    ∃ attempt delay resend, (client.calls i).phase = .sleeping attempt delay resend := by
  simp only [step] at hstep
  split at hstep
  next attempt delay resend hphase => exact ⟨attempt, delay, resend, hphase⟩
  · cases hstep

theorem notified_notifying {i : Nat} (hstep : client.step format (.notified i) = some next) :
    ∃ after, (client.calls i).phase = .notifying after := by
  simp only [step] at hstep
  split at hstep
  next after hphase => exact ⟨after, hphase⟩
  · cases hstep

/-- A call of a disconnected client waits for the first attempt. -/
theorem call_down {i : Nat} {service method : String} {payload : List UInt8} {traffic : Traffic}
    (hcodec : client.codec = none) (hconfig : client.config.reconnect = some config)
    (hlimit : 0 < config.limit) (hidle : (client.calls i).phase = .idle) :
    client.step format (.call i service method payload traffic) =
      some ((client.named i service method payload).setPhase i
        (.sleeping 0 (config.delay 0) none)) := by
  have hnone : (client.named i service method payload).codec = none := hcodec
  have hnamed : (client.named i service method payload).config.reconnect = some config := hconfig
  dsimp only [step]
  split
  · change (client.named i service method payload).enter format i traffic = _
    unfold enter
    rw [hnone, hnamed]
    dsimp only
    rw [attemptReconnect_eq hnamed, if_pos hlimit]
  next hother => exact absurd hidle hother

theorem connectLocked_failed {outcome : ConnectOutcome} (hcodec : client.codec = none)
    (hfailed : outcome ≠ .connected) :
    ∃ err, client.connectLocked outcome = (some err, { client with transport := false }) := by
  unfold connectLocked
  rw [if_neg (by simp [hcodec])]
  cases outcome with
  | noTransport => exact ⟨_, rfl⟩
  | failed err => exact ⟨_, rfl⟩
  | connected => exact absurd rfl hfailed

/-- An attempt that fails is followed by the next. -/
theorem wake_failed {i attempt : Nat} {delay : Int} {resend : Option ErrorCode}
    {outcome : ConnectOutcome} {traffic : Traffic} (hcodec : client.codec = none)
    (hconfig : client.config.reconnect = some config) (hlimit : attempt + 1 < config.limit)
    (hphase : (client.calls i).phase = .sleeping attempt delay resend)
    (hfailed : outcome ≠ .connected) :
    client.step format (.wake i outcome traffic) =
      some ({ client with transport := false }.setPhase i
        (.sleeping (attempt + 1) (config.delay (attempt + 1)) resend)) := by
  obtain ⟨err, hconnect⟩ := connectLocked_failed hcodec hfailed
  have hsame : { client with transport := false }.config.reconnect = some config := hconfig
  simp only [step, hphase]
  unfold wake
  rw [hconnect]
  dsimp only
  rw [attemptReconnect_eq hsame, if_pos hlimit]

/-- A call that could not send its request waits for the first attempt. -/
theorem notified_send {i : Nat} {err : ErrorCode}
    (hconfig : client.config.reconnect = some config) (hlimit : 0 < config.limit)
    (hphase : (client.calls i).phase = .notifying (.send err)) :
    client.step format (.notified i) =
      some (client.setPhase i (.sleeping 0 (config.delay 0) (some err))) := by
  simp only [step, hphase, resume, hconfig, Option.isSome_some, if_true]
  rw [attemptReconnect_eq hconfig, if_pos hlimit]

/-- While one call is under way, no other is. -/
theorem Tended.others {i : Nat} (htended : client.Tended format config)
    (hcall : (client.calls i).phase.UnderWay) :
    ∀ j, j ≠ i → ¬ (client.calls j).phase.UnderWay :=
  fun j hj hother => hj (htended.alone j i hother hcall)

/-- A call exchanges, with no other under way. -/
theorem Tended.exchange {middle : Client} {i c : Nat} {request : Envelope}
    {after : ErrorCode → AfterDisconnect} (htended : client.Tended format config)
    (hforeseen : client.Foreseen config event)
    (hstep : client.step format event = some next)
    (halone : ∀ j, j ≠ i → ¬ (client.calls j).phase.UnderWay)
    (hprepared : Prepared client i c event.traffic request middle)
    (hexchanged : Exchanged format middle i c request after next)
    (hafter : after = .send ∨
      after = .resend ∧ client.codec = none ∧ Accepting event.traffic.sends) :
    next.Tended format config := by
  obtain ⟨error, conn, hexchanging⟩ := hexchanged.exchanging
  have hstreams := htended.streams.step htended.once hforeseen.progressing hstep
  refine htended.onCall hforeseen hstep ?_ halone
    (htended.exchanged hstreams hprepared hexchanging hafter)
  exact fun j hj => hexchanging.others hprepared hj

/-- A call goes on to another wait, with no other under way. -/
theorem Tended.wait {i : Nat} {middle : Client} {phase : CallPhase}
    (htended : client.Tended format config) (hforeseen : client.Foreseen config event)
    (hstep : client.step format event = some (middle.setPhase i phase))
    (halone : ∀ j, j ≠ i → ¬ (client.calls j).phase.UnderWay)
    (hothers : ∀ j, j ≠ i → middle.calls j = client.calls j)
    (hfaring : (middle.setPhase i phase).Faring format config i phase) :
    (middle.setPhase i phase).Tended format config := by
  refine htended.onCall hforeseen hstep ?_ halone ?_
  · intro j hj
    rw [setPhase_calls, if_neg hj]
    exact hothers j hj
  · rw [setPhase_calls, if_pos rfl]
    exact hfaring

theorem Tended.connect {outcome : ConnectOutcome} (htended : client.Tended format config)
    (hforeseen : client.Foreseen config (.connect outcome))
    (hstep : client.step format (.connect outcome) = some next) : next.Tended format config := by
  have hcalls : next.calls = client.calls := by
    cases hstep
    exact connectLocked_calls client outcome
  refine @Tended.onCall _ _ _ _ _ 0 htended hforeseen hstep ?_ (fun j _ => hforeseen j) ?_
  · exact fun j _ => congrFun hcalls j
  · exact (htended.faring 0).other (hforeseen 0) (congrFun hcalls 0) (step_writes hstep)

theorem Tended.call {i : Nat} {service method : String} {payload : List UInt8} {traffic : Traffic}
    (htended : client.Tended format config)
    (hforeseen : client.Foreseen config (.call i service method payload traffic))
    (hstep : client.step format (.call i service method payload traffic) = some next) :
    next.Tended format config := by
  have hrests := hforeseen.1
  have hlimit := hforeseen.2.2
  have hidle := call_idle hstep
  cases hcodec : client.codec with
  | none =>
      have hwaits := hstep
      rw [call_down hcodec htended.config_eq (hlimit hcodec) hidle] at hwaits
      cases hwaits
      refine htended.wait hforeseen hstep (fun j _ => hrests j) ?_ ?_
      · intro j hj
        rw [named, setCall_calls, if_neg hj]
      · exact .asleep 0 _ hcodec (hlimit hcodec)
  | some c =>
      cases step_moves hstep with
      | entered _ _ _ _ _ hnone =>
          rw [hcodec] at hnone
          cases hnone
      | began _ d _ _ _ _ hsome _ hexchanged =>
          exact htended.exchange hforeseen hstep (fun j _ => hrests j)
            (prepared_began service method payload traffic hsome hidle) hexchanged (.inl rfl)

/-- While a call sleeps, the client is disconnected, and no other call is under way. -/
theorem Tended.asleep {i attempt : Nat} {delay : Int} {resend : Option ErrorCode}
    (htended : client.Tended format config)
    (hphase : (client.calls i).phase = .sleeping attempt delay resend) :
    client.codec = none ∧ attempt < config.limit ∧
      (∀ j, j ≠ i → ¬ (client.calls j).phase.UnderWay) ∧
      (∀ err, resend = some err → ∃ request, (client.calls i).request = some request) := by
  have halone := htended.others (by rw [hphase]; trivial : (client.calls i).phase.UnderWay)
  have hfaring := htended.faring i
  rw [hphase] at hfaring
  cases hfaring with
  | asleep _ _ hcodec hlimit =>
      exact ⟨hcodec, hlimit, halone, fun err h => (by cases h)⟩
  | asleepAgain _ _ _ request hcodec hlimit hrequest =>
      exact ⟨hcodec, hlimit, halone, fun _ _ => ⟨request, hrequest⟩⟩

theorem Tended.wake {i : Nat} {outcome : ConnectOutcome} {traffic : Traffic}
    (htended : client.Tended format config)
    (hforeseen : client.Foreseen config (.wake i outcome traffic))
    (hstays : client.StaysUp (.wake i outcome traffic))
    (hstep : client.step format (.wake i outcome traffic) = some next) :
    next.Tended format config := by
  obtain ⟨attempt, delay, resend, hphase⟩ := wake_sleeping hstep
  obtain ⟨hcodec, hlimit, halone, hrequest⟩ := htended.asleep hphase
  by_cases hconnected : outcome = .connected
  · subst hconnected
    cases step_moves hstep with
    | failed _ _ _ hsame =>
        rw [connectLocked_connected hcodec, hcodec] at hsame
        cases hsame
    | restarted _ _ _ hfirst hexchanged =>
        exact htended.exchange hforeseen hstep halone
          (prepared_restarted traffic hcodec hfirst) hexchanged (.inl rfl)
    | resent _ _ _ hagain hpending hexchanged =>
        exact htended.exchange hforeseen hstep halone
          (prepared_resent traffic hcodec hagain hpending) hexchanged
          (.inr ⟨rfl, hcodec, hstays rfl _ _ _ hagain⟩)
  · have hnext := hforeseen.2 hconnected attempt delay resend hphase
    have hwaits := hstep
    rw [wake_failed hcodec htended.config_eq hnext hphase hconnected] at hwaits
    cases hwaits
    refine htended.wait hforeseen hstep halone (fun _ _ => rfl) ?_
    cases resend with
    | none => exact .asleep _ _ hcodec hnext
    | some err =>
        obtain ⟨request, hpending⟩ := hrequest err rfl
        refine .asleepAgain _ _ err request hcodec hnext ?_
        rw [setPhase_calls, if_pos rfl]
        exact hpending

theorem Tended.notified {i : Nat} (htended : client.Tended format config)
    (hforeseen : client.Foreseen config (.notified i))
    (hstep : client.step format (.notified i) = some next) : next.Tended format config := by
  obtain ⟨after, hphase⟩ := notified_notifying hstep
  have halone := htended.others (by rw [hphase]; trivial : (client.calls i).phase.UnderWay)
  have hfaring := htended.faring i
  have hends : ∀ err, client.Delivered format i ∨ client.Unsendable format i →
      next = client.setPhase i (.returned (.error err)) → next.Tended format config := by
    rintro err hends rfl
    refine htended.wait hforeseen hstep halone (fun _ _ => rfl) (.failed err ?_)
    unfold Unsendable at hends ⊢
    rw [setPhase_calls, if_pos rfl]
    exact hends
  rw [hphase] at hfaring
  cases hfaring with
  | unsent err request hcodec hrequest =>
      have hlimit := hforeseen err hphase
      have hwaits := hstep
      rw [notified_send htended.config_eq hlimit hphase] at hwaits
      cases hwaits
      refine htended.wait hforeseen hstep halone (fun _ _ => rfl)
        (.asleepAgain _ _ err request hcodec hlimit ?_)
      rw [setPhase_calls, if_pos rfl]
      exact hrequest
  | unresent err hunsendable =>
      simp only [step, hphase, resume] at hstep
      exact hends err (.inr hunsendable) (Option.some_inj.mp hstep).symm
  | unreceived err hdelivered =>
      simp only [step, hphase, resume] at hstep
      exact hends err (.inl hdelivered) (Option.some_inj.mp hstep).symm

/-- A step of a client whose peers have stayed up. -/
theorem Tended.step (htended : client.Tended format config)
    (hforeseen : client.Foreseen config event) (hstays : client.StaysUp event)
    (hstep : client.step format event = some next) : next.Tended format config := by
  cases event with
  | connect outcome => exact htended.connect hforeseen hstep
  | disconnect => exact hforeseen.elim
  | call i service method payload traffic => exact htended.call hforeseen hstep
  | wake i outcome traffic => exact htended.wake hforeseen hstays hstep
  | notified i => exact htended.notified hforeseen hstep

theorem Tended.errsDelivered (htended : client.Tended format config) :
    client.ErrsDelivered format := by
  intro i err hreturned
  have hfaring := htended.faring i
  rw [hreturned] at hfaring
  cases hfaring with
  | failed _ hends => exact hends

end Client

end Ibridger.Cpp
