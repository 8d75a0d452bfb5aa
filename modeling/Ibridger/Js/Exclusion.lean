import Ibridger.Js.SameConnection
import Ibridger.Js.Sequence

/-! # One call at a time

The check of `callInFlight`, the taking of an id and the call of `codec.send` are
one stretch of code, whichever way a call gets there; and all ways out of the `try`
pass through its `finally`.
-/

namespace Ibridger.Js

open Transition Wire

namespace Client

variable {Value : Type} {client next : Client Value}

/-- The flag says whether a call is between its send and its end, and there is at
most one. -/
structure Exclusive (client : Client Value) : Prop where
  flag_iff : client.callInFlight = true ↔ ∃ i, (client.calls i).phase.InFlight
  single : ∀ i j, (client.calls i).phase.InFlight → (client.calls j).phase.InFlight → i = j

/-- The call ends with this step, and it has not got to its send. -/
def Refuses (client next : Client Value) (i : Nat) : Prop :=
  (client.calls i).phase.Early ∧ ∃ result, (next.calls i).phase = .settled result

/-- A step that sends nothing, takes no id and leaves the flag alone. -/
structure Unsent (client next : Client Value) (i : Nat) : Prop where
  conns_eq : next.conns = client.conns
  nextRequestId_eq : next.nextRequestId = client.nextRequestId
  callInFlight_eq : next.callInFlight = client.callInFlight
  envelope_eq : (next.calls i).envelope = none

/-- The envelope that a step hands to `codec.send`: a call hands over the one that
it creates. -/
def handed (client next : Client Value) : ClientEvent → List Envelope
  | .call i _ _ _ _ | .resume i =>
      if (client.calls i).envelope.isNone then (next.calls i).envelope.toList else []
  | _ => []

/-- The envelopes that a run hands to `codec.send`, in order. -/
def handedOver (format : EnvelopeFormat) (decode : Nat → List UInt8 → Except String Value) :
    Client Value → List ClientEvent → List Envelope
  | _, [] => []
  | client, event :: rest =>
      match client.step format decode event with
      | none => []
      | some next => handed client next event ++ handedOver format decode next rest

/-! ## The flag -/

theorem init_exclusive (config : ClientConfig) : Exclusive (init config : Client Value) := by
  refine ⟨?_, fun _ _ hflying => hflying.elim⟩
  constructor
  · intro htrue
    cases htrue
  · rintro ⟨i, hflying⟩
    exact hflying.elim

theorem Exclusive.free (hexclusive : Exclusive client) (hfree : client.callInFlight = false)
    (i : Nat) : ¬ (client.calls i).phase.InFlight := by
  intro hflying
  rw [hexclusive.flag_iff.mpr ⟨i, hflying⟩] at hfree
  cases hfree

section Update

variable {i : Nat} {call : Call Value}

theorem update_inFlight (hcalls : next.calls = Function.update client.calls i call) (j : Nat) :
    (next.calls j).phase.InFlight ↔
      j = i ∧ call.phase.InFlight ∨ j ≠ i ∧ (client.calls j).phase.InFlight := by
  rw [hcalls, Function.update_apply]
  split
  next hsame => simp [hsame]
  next hother => simp [hother]

/-- A call goes on without beginning to send or ending. -/
theorem Exclusive.goesOn (hexclusive : Exclusive client)
    (hcalls : next.calls = Function.update client.calls i call)
    (hflag : next.callInFlight = client.callInFlight)
    (hphase : call.phase.InFlight ↔ (client.calls i).phase.InFlight) : Exclusive next := by
  have hsame : ∀ j, (next.calls j).phase.InFlight ↔ (client.calls j).phase.InFlight := by
    intro j
    rw [update_inFlight hcalls, hphase]
    by_cases hj : j = i
    · simp [hj]
    · simp [hj]
  refine ⟨?_, ?_⟩
  · rw [hflag, hexclusive.flag_iff]
    exact exists_congr fun j => (hsame j).symm
  · intro j k hj hk
    exact hexclusive.single j k ((hsame j).mp hj) ((hsame k).mp hk)

/-- A call takes the flag that nobody has. -/
theorem Exclusive.takes (hexclusive : Exclusive client)
    (hcalls : next.calls = Function.update client.calls i call)
    (hfree : client.callInFlight = false) (hflag : next.callInFlight = true)
    (hphase : call.phase.InFlight) : Exclusive next := by
  have honly : ∀ j, (next.calls j).phase.InFlight ↔ j = i := by
    intro j
    rw [update_inFlight hcalls]
    have hnone := hexclusive.free hfree j
    constructor
    · rintro (⟨hj, -⟩ | ⟨-, hflying⟩)
      · exact hj
      · exact absurd hflying hnone
    · intro hj
      exact .inl ⟨hj, hphase⟩
  refine ⟨?_, ?_⟩
  · rw [hflag]
    exact iff_of_true rfl ⟨i, (honly i).mpr rfl⟩
  · intro j k hj hk
    rw [(honly j).mp hj, (honly k).mp hk]

/-- The call that has the flag ends. -/
theorem Exclusive.ends (hexclusive : Exclusive client)
    (hcalls : next.calls = Function.update client.calls i call)
    (hflying : (client.calls i).phase.InFlight) (hflag : next.callInFlight = false)
    (hphase : ¬ call.phase.InFlight) : Exclusive next := by
  have hnone : ∀ j, ¬ (next.calls j).phase.InFlight := by
    intro j hj
    rcases (update_inFlight hcalls j).mp hj with ⟨-, hcall⟩ | ⟨hne, hother⟩
    · exact hphase hcall
    · exact hne (hexclusive.single j i hother hflying)
  refine ⟨?_, fun j _ hj => absurd hj (hnone j)⟩
  rw [hflag]
  constructor
  · intro htrue
    cases htrue
  · rintro ⟨j, hj⟩
    exact absurd hj (hnone j)

end Update

variable {format : EnvelopeFormat} {decode : Nat → List UInt8 → Except String Value}

theorem Exclusive.start (hexclusive : Exclusive client) {i : Nat}
    (hearly : ¬ (client.calls i).phase.InFlight) : Exclusive (client.start format i) := by
  have hstarts := client.start_cases format i
  generalize client.start format i = next at hstarts ⊢
  cases hstarts with
  | rejected error => exact hexclusive.goesOn rfl rfl (iff_of_false id hearly)
  | unserializable c payload _ hfree _ _ =>
      exact hexclusive.takes (begun_setPhase_calls client i c payload _) hfree rfl trivial
  | sending c payload bytes _ hfree _ _ =>
      exact hexclusive.takes (begun_setPhase_calls client i c payload _) hfree rfl trivial

theorem Exclusive.finish (hexclusive : Exclusive client) {i : Nat}
    (hflying : (client.calls i).phase.InFlight) (result : Except CallError Value) :
    Exclusive (client.finish i result) :=
  hexclusive.ends rfl hflying rfl id

theorem Exclusive.resume (hexclusive : Exclusive client) {i : Nat}
    (hresume : client.resume format decode i = some next) : Exclusive next := by
  cases resume_cases hresume with
  | starting hphase => exact hexclusive.start (by rw [hphase]; exact id)
  | receiving c id timeoutMs hphase =>
      unfold receive
      split
      · exact hexclusive.finish (by rw [hphase]; trivial) _
      · refine hexclusive.goesOn rfl rfl ?_
        rw [hphase]
        exact iff_of_true trivial trivial
  | unsent c id timeoutMs error hphase => exact hexclusive.finish (by rw [hphase]; trivial) _
  | sending c id timeoutMs send result hphase _ =>
      obtain ⟨send', conn⟩ := result
      refine hexclusive.goesOn rfl rfl ?_
      rw [hphase]
      exact iff_of_true trivial trivial
  | received r id timeoutMs read result hphase _ _ =>
      exact hexclusive.finish (by rw [hphase]; trivial) _
  | failing error hphase => exact hexclusive.finish (by rw [hphase]; trivial) _

theorem Exclusive.step {event : ClientEvent} (hexclusive : Exclusive client)
    (hstep : client.step format decode event = some next) : Exclusive next := by
  by_cases hcall : ¬ event.OfCall
  · have hkept := step_callsKept hcall hstep
    refine ⟨?_, ?_⟩
    · rw [hkept.callInFlight_eq, hkept.calls_eq]
      exact hexclusive.flag_iff
    · rw [hkept.calls_eq]
      exact hexclusive.single
  cases event with
  | call i service method encoded options =>
      obtain ⟨hphase, hnext⟩ := call_cases hstep
      have hidle : ¬ (client.calls i).phase.InFlight := by
        rw [hphase]
        exact id
      have hcalled : Exclusive (client.called i service method encoded options) :=
        hexclusive.goesOn rfl rfl (iff_of_false id hidle)
      have hstarting : ¬ ((client.called i service method encoded options).calls i).phase.InFlight := by
        simp [called, setCall, CallPhase.InFlight]
      rcases hnext with ⟨-, rfl⟩ | rfl
      · exact hcalled.goesOn rfl rfl (iff_of_false id hstarting)
      · exact hcalled.start hstarting
  | poll i =>
      obtain ⟨hphase, hnext⟩ := poll_cases hstep
      have hwaiting : ¬ (client.calls i).phase.InFlight := by
        rw [hphase]
        exact id
      rcases hnext with rfl | rfl | rfl
      · exact hexclusive.goesOn rfl rfl (iff_of_false id hwaiting)
      · exact hexclusive
      · exact hexclusive.goesOn rfl rfl (iff_of_false id hwaiting)
  | timeout i =>
      obtain ⟨r, id, timeoutMs, hphase, rfl⟩ := timeout_cases hstep
      refine hexclusive.goesOn rfl rfl ?_
      rw [hphase]
      exact iff_of_true trivial trivial
  | resume i => exact hexclusive.resume hstep
  | connect | disconnect | connected | connectFailed | data | close | error | written | sleepOver
  | read => exact absurd id hcall

/-! ## The ids -/

/-- A call has no envelope before it takes an id. -/
def Blank (client : Client Value) : Prop :=
  ∀ i, (client.calls i).phase.Early → (client.calls i).envelope = none

theorem Blank.update (hblank : Blank client) {i : Nat} {call : Call Value}
    (hcalls : next.calls = Function.update client.calls i call)
    (hcall : call.phase.Early → call.envelope = none) : Blank next := by
  intro j hearly
  rw [hcalls, Function.update_apply] at hearly ⊢
  split at hearly
  next hj =>
    rw [if_pos hj]
    exact hcall hearly
  next hj =>
    rw [if_neg hj]
    exact hblank j hearly

/-- What a step does to the ids: it takes none, or the next one for an envelope. -/
inductive Takes (client next : Client Value) : List Envelope → Prop where
  | nothing (hid : next.nextRequestId = client.nextRequestId) : Takes client next []
  | envelope (envelope : Envelope)
      (hrequest : envelope.requestId = UInt64.ofNat client.nextRequestId)
      (hid : next.nextRequestId = increment client.nextRequestId) : Takes client next [envelope]

theorem Takes.congr {before : Client Value} {envelopes : List Envelope}
    (hid : before.nextRequestId = client.nextRequestId) (htakes : Takes before next envelopes) :
    Takes client next envelopes := by
  cases htakes with
  | nothing hsame => exact .nothing (hsame.trans hid)
  | envelope envelope hrequest hnext =>
      rw [hid] at hrequest hnext
      exact .envelope envelope hrequest hnext

/-- The envelope with which a call that had none starts. -/
theorem start_takes {i : Nat} (hnone : (client.calls i).envelope = none) :
    Takes client (client.start format i) ((client.start format i).calls i).envelope.toList := by
  have hstarts := client.start_cases format i
  generalize client.start format i = next at hstarts ⊢
  cases hstarts with
  | rejected error =>
      have henvelope : ((client.settle i (.error error)).calls i).envelope = none := by
        rw [settle, setPhase, setCall]
        dsimp only
        rw [Function.update_self]
        exact hnone
      rw [henvelope]
      exact .nothing rfl
  | unserializable c payload _ _ _ _ =>
      rw [begun_setPhase_calls, Function.update_self]
      exact .envelope _ rfl rfl
  | sending c payload bytes _ _ _ _ =>
      have hcalls : ((client.begun i c payload).sending i c client.nextRequestId
          (client.timeoutMs (client.calls i)) (sendFrame (client.conns c) bytes)).calls =
            Function.update client.calls i _ := begun_setPhase_calls client i c payload _
      rw [hcalls, Function.update_self]
      exact .envelope _ rfl rfl

theorem Blank.start (hblank : Blank client) (i : Nat) : Blank (client.start format i) := by
  have hstarts := client.start_cases format i
  generalize client.start format i = next at hstarts ⊢
  cases hstarts with
  | rejected error => exact hblank.update rfl fun hearly => hearly.elim
  | unserializable c payload _ _ _ _ =>
      exact hblank.update (begun_setPhase_calls client i c payload _) fun hearly => hearly.elim
  | sending c payload bytes _ _ _ _ =>
      exact hblank.update (begun_setPhase_calls client i c payload _) fun hearly => hearly.elim

/-- A call that keeps its envelope hands nothing over. -/
theorem handed_resume {i : Nat} (hsame : (next.calls i).envelope = (client.calls i).envelope) :
    handed client next (.resume i) = [] := by
  unfold handed
  dsimp only
  rw [hsame]
  cases (client.calls i).envelope with
  | none => rfl
  | some envelope => rfl

theorem update_envelope {i : Nat} {phase : CallPhase Value}
    (hcalls : next.calls =
      Function.update client.calls i { client.calls i with phase := phase }) :
    (next.calls i).envelope = (client.calls i).envelope := by
  rw [hcalls, Function.update_self]

theorem resume_takes {i : Nat} (hblank : Blank client)
    (hresume : client.resume format decode i = some next) :
    Blank next ∧ Takes client next (handed client next (.resume i)) := by
  have hends : ∀ result, Blank (client.finish i result) ∧
      Takes client (client.finish i result) (handed client (client.finish i result) (.resume i)) := by
    intro result
    rw [handed_resume (update_envelope rfl)]
    exact ⟨hblank.update rfl fun hearly => hearly.elim, .nothing rfl⟩
  cases resume_cases hresume with
  | starting hphase =>
      have hnone : (client.calls i).envelope = none := hblank i (by rw [hphase]; trivial)
      refine ⟨hblank.start i, ?_⟩
      unfold handed
      dsimp only
      rw [hnone, if_pos (by rfl)]
      exact start_takes hnone
  | receiving c id timeoutMs hphase =>
      unfold receive
      split
      · exact hends _
      · rw [handed_resume (update_envelope rfl)]
        exact ⟨hblank.update rfl fun hearly => hearly.elim, .nothing rfl⟩
  | unsent c id timeoutMs error hphase => exact hends _
  | sending c id timeoutMs send result hphase _ =>
      obtain ⟨send', conn⟩ := result
      rw [handed_resume (update_envelope rfl)]
      exact ⟨hblank.update rfl fun hearly => hearly.elim, .nothing rfl⟩
  | received r id timeoutMs read result hphase _ _ => exact hends _
  | failing error hphase => exact hends _

theorem called_blank (client : Client Value) (i : Nat) (service method : String)
    (encoded : Except String (List UInt8)) (options : CallOptions) :
    ((client.called i service method encoded options).calls i).envelope = none := by
  rw [called, setCall]
  dsimp only
  rw [Function.update_self]

theorem step_takes {event : ClientEvent} (hblank : Blank client)
    (hstep : client.step format decode event = some next) :
    Blank next ∧ Takes client next (handed client next event) := by
  by_cases hcall : ¬ event.OfCall
  · have hkept := step_callsKept hcall hstep
    refine ⟨?_, ?_⟩
    · unfold Blank
      rw [hkept.calls_eq]
      exact hblank
    · have hnothing : handed client next event = [] := by
        cases event with
        | call | resume => exact absurd trivial hcall
        | connect | disconnect | connected | connectFailed | data | close | error | written
        | sleepOver | poll | timeout | read => rfl
      rw [hnothing]
      exact .nothing hkept.nextRequestId_eq
  cases event with
  | call i service method encoded options =>
      obtain ⟨hphase, hnext⟩ := call_cases hstep
      have hnone : (client.calls i).envelope = none := hblank i (by rw [hphase]; trivial)
      have hcalled := client.called_blank i service method encoded options
      have hcalledBlank : Blank (client.called i service method encoded options) :=
        hblank.update rfl fun _ => rfl
      unfold handed
      dsimp only
      rw [hnone, if_pos (by rfl)]
      rcases hnext with ⟨-, rfl⟩ | rfl
      · rw [update_envelope rfl, hcalled]
        exact ⟨hcalledBlank.update rfl fun _ => hcalled, .nothing rfl⟩
      · exact ⟨hcalledBlank.start i, (start_takes hcalled).congr (by rfl)⟩
  | poll i =>
      obtain ⟨hphase, hnext⟩ := poll_cases hstep
      have hnone : (client.calls i).envelope = none := hblank i (by rw [hphase]; trivial)
      rcases hnext with rfl | rfl | rfl
      · exact ⟨hblank.update rfl fun _ => hnone, .nothing rfl⟩
      · exact ⟨hblank, .nothing rfl⟩
      · exact ⟨hblank.update rfl fun hearly => hearly.elim, .nothing rfl⟩
  | timeout i =>
      obtain ⟨r, id, timeoutMs, hphase, rfl⟩ := timeout_cases hstep
      exact ⟨hblank.update rfl fun hearly => hearly.elim, .nothing rfl⟩
  | resume i => exact resume_takes hblank hstep
  | connect | disconnect | connected | connectFailed | data | close | error | written | sleepOver
  | read => exact absurd id hcall

/-- The envelopes of a run carry the ids from the next one on. -/
theorem handedOver_ids {events : List ClientEvent} (hblank : Blank client) {k : Nat}
    {envelope : Envelope} (hk : (handedOver format decode client events)[k]? = some envelope)
    (hsmall : client.nextRequestId + k ≤ 2 ^ 53) :
    envelope.requestId.toNat = client.nextRequestId + k := by
  induction events generalizing client k with
  | nil => cases hk
  | cons event rest ih =>
      unfold handedOver at hk
      split at hk
      · cases hk
      next next hstep =>
        obtain ⟨hnext, htakes⟩ := step_takes hblank hstep
        generalize handed client next event = taken at hk htakes
        cases htakes with
        | nothing hid =>
            rw [← hid] at hsmall ⊢
            exact ih hnext hk hsmall
        | envelope first hrequest hid =>
            cases k with
            | zero =>
                cases hk
                rw [hrequest, UInt64.toNat_ofNat', Nat.mod_eq_of_lt (by omega)]
                rfl
            | succ k =>
                have hnextId : next.nextRequestId = client.nextRequestId + 1 :=
                  hid.trans (increment_of_lt (by omega))
                have htail : (handedOver format decode next rest)[k]? = some envelope := hk
                have hvalue := ih hnext htail (by omega)
                omega

/-! ## Calls that are refused -/

/-- A call that ends as it starts has done nothing else. -/
theorem start_unsent {i : Nat} (hnone : (client.calls i).envelope = none)
    {result : Except CallError Value}
    (hsettled : ((client.start format i).calls i).phase = .settled result) :
    Unsent client (client.start format i) i := by
  have hstarts := client.start_cases format i
  generalize client.start format i = next at hstarts hsettled ⊢
  cases hstarts with
  | rejected error =>
      refine ⟨rfl, rfl, rfl, ?_⟩
      rw [update_envelope rfl]
      exact hnone
  | unserializable c payload _ _ _ _ =>
      rw [begun_setPhase_calls, Function.update_self] at hsettled
      cases hsettled
  | sending c payload bytes _ _ _ _ =>
      have hcalls : ((client.begun i c payload).sending i c client.nextRequestId
          (client.timeoutMs (client.calls i)) (sendFrame (client.conns c) bytes)).calls =
            Function.update client.calls i _ := begun_setPhase_calls client i c payload _
      rw [hcalls, Function.update_self] at hsettled
      cases hsettled

/-- The other calls stay where they are. -/
theorem start_calls {i j : Nat} (hother : j ≠ i) :
    (client.start format i).calls j = client.calls j := by
  have hstarts := client.start_cases format i
  generalize client.start format i = next at hstarts ⊢
  cases hstarts with
  | rejected error => exact Function.update_of_ne hother _ _
  | unserializable c payload _ _ _ _ =>
      rw [begun_setPhase_calls, Function.update_of_ne hother]
  | sending c payload bytes _ _ _ _ =>
      have hcalls : ((client.begun i c payload).sending i c client.nextRequestId
          (client.timeoutMs (client.calls i)) (sendFrame (client.conns c) bytes)).calls =
            Function.update client.calls i _ := begun_setPhase_calls client i c payload _
      rw [hcalls, Function.update_of_ne hother]

/-- A call that a step leaves alone is not refused by it. -/
theorem not_refuses_of_same {i : Nat} (hsame : next.calls i = client.calls i) :
    ¬ Refuses client next i := by
  rintro ⟨hearly, result, hsettled⟩
  rw [hsame] at hsettled
  rw [hsettled] at hearly
  exact hearly

/-- A call goes on from where it is already in flight. -/
theorem not_refuses_of_update {i j : Nat} {call : Call Value}
    (hflying : (client.calls j).phase.InFlight)
    (hcalls : next.calls = Function.update client.calls j call) : ¬ Refuses client next i := by
  by_cases hij : i = j
  · subst hij
    rintro ⟨hearly, -⟩
    cases hphase : (client.calls i).phase with
    | idle | waiting | starting | settled =>
        rw [hphase] at hflying
        exact hflying
    | sending | receiving | failing =>
        rw [hphase] at hearly
        exact hearly
  · apply not_refuses_of_same
    rw [hcalls, Function.update_of_ne hij]

theorem resume_refuses {i j : Nat} (hblank : Blank client)
    (hresume : client.resume format decode j = some next) (hrefuses : Refuses client next i) :
    Unsent client next i := by
  cases resume_cases hresume with
  | starting hphase =>
      by_cases hij : i = j
      · subst hij
        obtain ⟨hearly, result, hsettled⟩ := hrefuses
        exact start_unsent (hblank i hearly) hsettled
      · exact absurd hrefuses (not_refuses_of_same (start_calls hij))
  | receiving c id timeoutMs hphase =>
      have hflying : (client.calls j).phase.InFlight := by
        rw [hphase]
        trivial
      unfold receive at hrefuses
      split at hrefuses
      · exact absurd hrefuses (not_refuses_of_update hflying rfl)
      · exact absurd hrefuses (not_refuses_of_update hflying rfl)
  | unsent c id timeoutMs error hphase =>
      exact absurd hrefuses (not_refuses_of_update (by rw [hphase]; trivial) rfl)
  | sending c id timeoutMs send result hphase _ =>
      obtain ⟨send', conn⟩ := result
      exact absurd hrefuses (not_refuses_of_update (by rw [hphase]; trivial) rfl)
  | received r id timeoutMs read result hphase _ _ =>
      exact absurd hrefuses (not_refuses_of_update (by rw [hphase]; trivial) rfl)
  | failing error hphase =>
      exact absurd hrefuses (not_refuses_of_update (by rw [hphase]; trivial) rfl)

theorem step_refuses {event : ClientEvent} {i : Nat} (hblank : Blank client)
    (hstep : client.step format decode event = some next) (hrefuses : Refuses client next i) :
    Unsent client next i := by
  by_cases hcall : ¬ event.OfCall
  · have hkept := step_callsKept hcall hstep
    exact absurd hrefuses (not_refuses_of_same (by rw [hkept.calls_eq]))
  cases event with
  | call j service method encoded options =>
      obtain ⟨hphase, hnext⟩ := call_cases hstep
      by_cases hij : i = j
      · subst hij
        have hcalled := client.called_blank i service method encoded options
        rcases hnext with ⟨-, rfl⟩ | rfl
        · obtain ⟨-, result, hsettled⟩ := hrefuses
          rw [setPhase, setCall] at hsettled
          dsimp only at hsettled
          rw [Function.update_self] at hsettled
          cases hsettled
        · obtain ⟨-, result, hsettled⟩ := hrefuses
          obtain ⟨hconns, hid, hflag, henvelope⟩ := start_unsent hcalled hsettled
          exact ⟨hconns, hid, hflag, henvelope⟩
      · have hsame : (client.called j service method encoded options).calls i = client.calls i :=
          Function.update_of_ne hij _ _
        rcases hnext with ⟨-, rfl⟩ | rfl
        · apply absurd hrefuses
          apply not_refuses_of_same
          rw [setPhase, setCall]
          dsimp only
          rw [Function.update_of_ne hij, hsame]
        · exact absurd hrefuses (not_refuses_of_same ((start_calls hij).trans hsame))
  | poll j =>
      obtain ⟨hphase, hnext⟩ := poll_cases hstep
      by_cases hij : i = j
      · subst hij
        have hnone : (client.calls i).envelope = none := hblank i (by rw [hphase]; trivial)
        rcases hnext with rfl | rfl | rfl
        · exact ⟨rfl, rfl, rfl, (update_envelope rfl).trans hnone⟩
        · exact ⟨rfl, rfl, rfl, hnone⟩
        · exact ⟨rfl, rfl, rfl, (update_envelope rfl).trans hnone⟩
      · rcases hnext with rfl | rfl | rfl
        · exact absurd hrefuses (not_refuses_of_same (Function.update_of_ne hij _ _))
        · exact absurd hrefuses (not_refuses_of_same rfl)
        · exact absurd hrefuses (not_refuses_of_same (Function.update_of_ne hij _ _))
  | timeout j =>
      obtain ⟨r, id, timeoutMs, hphase, rfl⟩ := timeout_cases hstep
      exact absurd hrefuses (not_refuses_of_update (by rw [hphase]; trivial) rfl)
  | resume j => exact resume_refuses hblank hstep hrefuses
  | connect | disconnect | connected | connectFailed | data | close | error | written | sleepOver
  | read => exact absurd id hcall

/-- In every state of every run the flag tells whether a call is in flight, and at
most one is; a call that is refused does nothing; and the envelopes that the client
hands over carry the ids 1, 2, 3, and so on. -/
theorem calls_exclude (config : ClientConfig) {events : List ClientEvent}
    (hrun : run (step format decode) (init config) events = some client) :
    Exclusive client ∧
      (∀ event next i, client.step format decode event = some next → Refuses client next i →
        Unsent client next i) ∧
      ∀ (k : Nat) envelope, (handedOver format decode (init config) events)[k]? = some envelope →
        k + 1 ≤ 2 ^ 53 → envelope.requestId.toNat = k + 1 := by
  have hfirst : Blank (init config : Client Value) := fun _ _ => rfl
  obtain ⟨hexclusive, hblank⟩ : Exclusive client ∧ Blank client := by
    refine run_invariant (fun state => Exclusive state ∧ Blank state) ?_
      ⟨init_exclusive config, hfirst⟩ hrun
    rintro state event next ⟨hstate, hstateBlank⟩ hstep
    exact ⟨hstate.step hstep, (step_takes hstateBlank hstep).1⟩
  refine ⟨hexclusive, ?_, ?_⟩
  · intro event next i hstep hrefuses
    exact step_refuses hblank hstep hrefuses
  · intro k envelope hk hsmall
    have hroom : (init config : Client Value).nextRequestId + k ≤ 2 ^ 53 := by
      rw [Nat.add_comm]
      exact hsmall
    rw [handedOver_ids hfirst hk hroom]
    exact Nat.add_comm 1 k

/-- Of two calls that overlap, the second is refused. -/
theorem calls_exclude_overlapping :
    ∃ client : Client (List UInt8),
      run (step (.knowing firstRequest) fun _ => .ok) (init {})
        [.connect, .connected 0 false, .call 0 "" "" (.ok []) {}, .call 1 "" "" (.ok []) {}] =
          some client ∧
      (client.calls 1).phase = .settled (.error (alreadyInFlight "")) ∧ Exclusive client := by
  have hserialize : (EnvelopeFormat.knowing firstRequest).serialize namelessRequest =
      some [8, 0, 16, 1, 26, 0, 34, 0, 42, 0] :=
    EnvelopeFormat.knowing_serialize (by decide) (by decide)
  have hrun : run (step (.knowing firstRequest) fun _ => .ok) (init {})
      [.connect, .connected 0 false, .call 0 "" "" (.ok []) {}, .call 1 "" "" (.ok []) {}] =
        some _ :=
    run_cons_eq_some.mpr ⟨_, rfl, run_cons_eq_some.mpr ⟨_, rfl, run_cons_eq_some.mpr
      ⟨_, call_eq_some rfl rfl rfl rfl hserialize, rfl⟩⟩⟩
  exact ⟨_, hrun, rfl, (calls_exclude {} hrun).1⟩

end Client

end Ibridger.Js
