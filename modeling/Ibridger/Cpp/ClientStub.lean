import Ibridger.Cpp.RequestIds
import Ibridger.Cpp.TypedMethod

/-! # The client stub

`ClientStub` of `client_stub.h` and `client_stub.cpp`: a typed call on top of
`Client::call`. The request that `Client::call` sends names the service, the method and
the payload that it was called with.
-/

namespace Ibridger.Cpp

open Transition Wire

/-- The values of `std::errc` that the stub returns. -/
inductive Errc where
  | invalidArgument
  | badMessage
  | noSuchFileOrDirectory
  | timedOut
  | ioError
deriving DecidableEq

/-- An error code of `Client::call`, or one that the stub makes. -/
inductive StubError where
  | client (err : ErrorCode)
  | errc (value : Errc)
deriving DecidableEq

namespace ClientStub

def statusToErrc : StatusCode → Errc
  | .notFound => .noSuchFileOrDirectory
  | .invalidArgument => .invalidArgument
  | .timeout => .timedOut
  | _ => .ioError

/-- `call`, where `clientCall` is what `Client::call` returns for a payload. -/
def call {Req Resp : Type} (reqType : MessageType Req) (respType : MessageType Resp)
    (clientCall : List UInt8 → Except ErrorCode Envelope) (request : Req) :
    Except StubError Resp :=
  match reqType.serialize request with
  | none => .error (.errc .invalidArgument)
  | some payload =>
      match clientCall payload with
      | .error err => .error (.client err)
      | .ok env =>
          if env.status ≠ .ok then .error (.errc (statusToErrc env.status))
          else
            match respType.parse env.payload with
            | none => .error (.errc .badMessage)
            | some resp => .ok resp

/-- `call` behind a response. -/
theorem call_of_response {Req Resp : Type} {reqType : MessageType Req} (respType : MessageType Resp)
    {request : Req} {payload : List UInt8} (hserialize : reqType.serialize request = some payload)
    (response : Envelope) :
    call reqType respType (fun _ => .ok response) request =
      if response.status ≠ .ok then .error (.errc (statusToErrc response.status))
      else
        match respType.parse response.payload with
        | none => .error (.errc .badMessage)
        | some resp => .ok resp := by
  rw [call, hserialize]

end ClientStub

/-! ## What a call sends -/

/-- The arguments of the call are as they were, and so is its request, or it is new and
names them. -/
structure Call.Continues (before after : Call) : Prop where
  service_eq : after.service = before.service
  method_eq : after.method = before.method
  payload_eq : after.payload = before.payload
  request : after.request = before.request ∨
    ∃ id, after.request = some (Client.requestOf before id)

theorem Call.Continues.refl (call : Call) : call.Continues call := ⟨rfl, rfl, rfl, .inl rfl⟩

theorem Call.Continues.trans {first second third : Call} (hfirst : first.Continues second)
    (hsecond : second.Continues third) : first.Continues third := by
  have hsame : ∀ id, Client.requestOf second id = Client.requestOf first id := by
    intro id
    rw [Client.requestOf, Client.requestOf, hfirst.service_eq, hfirst.method_eq, hfirst.payload_eq]
  refine ⟨hsecond.service_eq.trans hfirst.service_eq, hsecond.method_eq.trans hfirst.method_eq,
    hsecond.payload_eq.trans hfirst.payload_eq, ?_⟩
  rcases hsecond.request with hkept | ⟨id, hnew⟩
  · rw [hkept]
    exact hfirst.request
  · exact .inr ⟨id, by rw [hnew, hsame]⟩

namespace Client

/-- All calls go on as they are. -/
def Continues (before after : Client) : Prop :=
  ∀ i, (before.calls i).Continues (after.calls i)

theorem Continues.of_calls {before after : Client} (hcalls : after.calls = before.calls) :
    before.Continues after := fun i => by
  rw [hcalls]
  exact .refl _

theorem Continues.trans {first second third : Client} (hfirst : first.Continues second)
    (hsecond : second.Continues third) : first.Continues third :=
  fun i => (hfirst i).trans (hsecond i)

theorem setCall_continues (client : Client) {i : Nat} {call : Call}
    (hcall : (client.calls i).Continues call) : client.Continues (client.setCall i call) := by
  intro j
  rw [setCall_calls]
  split
  next hj => rwa [hj]
  next => exact .refl _

theorem setPhase_continues (client : Client) (i : Nat) (phase : CallPhase) :
    client.Continues (client.setPhase i phase) :=
  client.setCall_continues ⟨rfl, rfl, rfl, .inl rfl⟩

theorem closeFramed_calls (client : Client) : client.closeFramed.calls = client.calls := by
  unfold closeFramed
  split <;> rfl

theorem handleDisconnect_continues (client : Client) (i : Nat) (after : AfterDisconnect) :
    client.Continues (client.handleDisconnect i after) :=
  Continues.trans (.of_calls client.closeFramed_calls)
    (setPhase_continues { client.closeFramed with framed := none, codec := none, transport := false }
      i (.notifying after))

theorem attemptReconnect_continues (client : Client) (i attempt : Nat)
    (resend : Option ErrorCode) : client.Continues (client.attemptReconnect i attempt resend) := by
  unfold attemptReconnect
  split
  · exact .of_calls rfl
  · split <;> exact client.setPhase_continues _ _

variable {format : EnvelopeFormat} {client next : Client}

theorem receive_continues {i c : Nat} {request : Envelope}
    (hreceive : client.receive format i c request = some next) : client.Continues next := by
  unfold receive at hreceive
  split at hreceive
  · cases hreceive
  next result conn _ =>
    have hreached : client.Continues ((client.setLink c { client.links c with conn := conn }).setCall i
        { client.calls i with reachedRecv := true }) :=
      (Continues.of_calls rfl).trans
        ((client.setLink c _).setCall_continues ⟨rfl, rfl, rfl, .inl rfl⟩)
    dsimp only at hreceive
    split at hreceive
    · cases hreceive
      exact hreached.trans (handleDisconnect_continues _ _ _)
    · split at hreceive
      · cases hreceive
        exact hreached.trans (setPhase_continues _ _ _)
      · cases hreceive
        exact hreached.trans (setPhase_continues _ _ _)

theorem exchange_continues {i c : Nat} {request : Envelope} {after : ErrorCode → AfterDisconnect}
    (hexchange : client.exchange format i c request after = some next) : client.Continues next := by
  have hsent : ∀ {error sent}, client.transmit format i c request = some (error, sent) →
      client.Continues sent := by
    intro error sent htransmit
    unfold transmit at htransmit
    split at htransmit
    · cases htransmit
    · cases htransmit
      exact .of_calls rfl
  unfold exchange at hexchange
  split at hexchange
  · cases hexchange
  next htransmit =>
    cases hexchange
    exact (hsent htransmit).trans (handleDisconnect_continues _ _ _)
  next htransmit => exact (hsent htransmit).trans (receive_continues hexchange)

/-- The request that a call takes an id for names its arguments. -/
theorem start_continues {i c : Nat} {traffic : Traffic}
    (hstart : client.start format i c traffic = some next) : client.Continues next := by
  unfold start at hstart
  refine Continues.trans ?_ (exchange_continues hstart)
  refine Continues.trans ?_ (.of_calls rfl)
  exact (Continues.of_calls rfl).trans
    (setCall_continues { client with
      nextRequestId := client.nextRequestId + 1, taken := client.taken + 1 }
      ⟨rfl, rfl, rfl, .inr ⟨_, rfl⟩⟩)

theorem enter_continues {i : Nat} {traffic : Traffic}
    (henter : client.enter format i traffic = some next) : client.Continues next := by
  unfold enter at henter
  split at henter
  · exact start_continues henter
  · cases henter
    exact client.attemptReconnect_continues _ _ _
  · cases henter
    exact client.setPhase_continues _ _

theorem wake_continues {i attempt : Nat} {resend : Option ErrorCode} {outcome : ConnectOutcome}
    {traffic : Traffic} (hwake : client.wake format i attempt resend outcome traffic = some next) :
    client.Continues next := by
  have hconnected : client.Continues (client.connectLocked outcome).2 :=
    .of_calls (client.connectLocked_calls outcome)
  unfold wake at hwake
  split at hwake
  next hconnect =>
    rw [hconnect] at hconnected
    cases hwake
    exact hconnected.trans (attemptReconnect_continues _ _ _ _)
  next connected hconnect =>
    rw [hconnect] at hconnected
    have hrestored : ∀ restored : Client, restored.calls = connected.calls →
        client.Continues restored := fun restored hcalls => hconnected.trans (.of_calls hcalls)
    dsimp only at hwake
    split at hwake
    · exact (hrestored _ (by split <;> rfl)).trans (start_continues hwake)
    · refine (hrestored _ ?_).trans (exchange_continues hwake)
      simp only [offer, setLink]
      split <;> rfl
    · cases hwake

theorem resume_continues (client : Client) (i : Nat) (after : AfterDisconnect) :
    client.Continues (client.resume i after) := by
  cases after with
  | send err =>
      unfold resume
      dsimp only
      split
      · exact client.attemptReconnect_continues _ _ _
      · exact client.setPhase_continues _ _
  | resend err => exact client.setPhase_continues _ _
  | recv err => exact client.setPhase_continues _ _

/-- The request of a call names its arguments. -/
def Addressed (client : Client) : Prop :=
  ∀ i request, (client.calls i).request = some request →
    request = requestOf (client.calls i) request.requestId

theorem Addressed.continues (haddressed : client.Addressed) (hcontinues : client.Continues next) :
    next.Addressed := by
  intro i request hrequest
  obtain ⟨hservice, hmethod, hpayload, hkept | ⟨id, hnew⟩⟩ := hcontinues i
  · rw [requestOf, hservice, hmethod, hpayload]
    exact haddressed i request (hkept ▸ hrequest)
  · rw [requestOf, hservice, hmethod, hpayload]
    cases hnew.symm.trans hrequest
    rfl

theorem Addressed.step {event : ClientEvent} (haddressed : client.Addressed)
    (hspends : Spends client) (hstep : client.step format event = some next) : next.Addressed := by
  cases event with
  | connect outcome =>
      cases hstep
      exact haddressed.continues (.of_calls (client.connectLocked_calls outcome))
  | disconnect =>
      cases hstep
      exact haddressed.continues (.of_calls client.closeFramed_calls)
  | call i service method payload traffic =>
      simp only [Client.step] at hstep
      split at hstep
      next hidle =>
        refine Addressed.continues ?_ (enter_continues hstep)
        intro j request hrequest
        rw [setCall_calls] at hrequest ⊢
        split at hrequest
        next hj =>
          -- a call that has not begun has no request
          rw [hspends.unnamed i (by rw [hidle]; trivial)] at hrequest
          cases hrequest
        next hj =>
          rw [if_neg hj]
          exact haddressed j request hrequest
      · cases hstep
  | wake i outcome traffic =>
      simp only [Client.step] at hstep
      split at hstep
      · exact haddressed.continues (wake_continues hstep)
      · cases hstep
  | notified i =>
      simp only [Client.step] at hstep
      split at hstep
      · cases hstep
        exact haddressed.continues (client.resume_continues i _)
      · cases hstep

theorem addressed_of_run {config : ClientConfig} {events : List ClientEvent}
    (hrun : run (step format) (init config) events = some client) : client.Addressed := by
  refine (run_invariant (fun client => AtMostOnce format client ∧ Numbered client ∧ Spends client ∧
    client.Addressed) ?_ ⟨atMostOnce_init config, numbered_init config, spends_init config,
      fun i request hrequest => (by cases hrequest)⟩ hrun).2.2.2
  rintro client event next ⟨honce, hnumbered, hspends, haddressed⟩ hstep
  exact ⟨honce.step hstep, hnumbered.step honce hstep, hspends.step hnumbered hstep,
    haddressed.step hspends hstep⟩

end Client

end Ibridger.Cpp
