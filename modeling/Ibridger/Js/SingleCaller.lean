import Ibridger.Js.Deadlines
import Ibridger.Js.Exclusion
import Ibridger.Js.Outage
import Ibridger.Rpc.Replies

/-! # One caller and lost connections, in JS

As long as a loss is noticed while no request is on its way, a call that finds the client
disconnected waits, and no call learns from the connection that its request was lost.
-/

namespace Ibridger.Js

open Transition UnixSocketConnection Wire

/-- The call is about to put its request on the connection, or is at it. -/
def CallPhase.Undelivered {Value : Type} : CallPhase Value → Prop
  | .starting => True
  | .sending _ _ _ send => send ≠ .settled (.ok ())
  | .idle | .waiting | .receiving _ _ _ | .failing _ | .settled _ => False

/-- The frame of the request has gone out completely. -/
def CallPhase.Delivered {Value : Type} : CallPhase Value → Prop
  | .sending _ _ _ send => send = .settled (.ok ())
  | .receiving _ _ _ => True
  | .failing error => error ≠ .unserializable
  | .idle | .waiting | .starting | .settled _ => False

/-- The request cannot be encoded, or its envelope does not fit into a frame. -/
def Call.Unsendable {Value : Type} (format : EnvelopeFormat) (call : Call Value) : Prop :=
  (∃ message, call.encoded = .error message) ∨
    ∃ request, call.envelope = some request ∧ ¬ Rpc.Sendable format request

theorem CallPhase.InFlight.underWay {Value : Type} {phase : CallPhase Value} (hflying : phase.InFlight) :
    phase.UnderWay := by
  cases phase with
  | sending | receiving | failing => trivial
  | idle | waiting | starting | settled => exact hflying.elim

namespace Client

variable {Value : Type} (format : EnvelopeFormat) (options : ReconnectOptions)

/-- No connection is lost while a request is on its way, and no write on the current
connection fails. -/
def LosesBetween (client : Client Value) : ClientEvent → Prop
  | .close _ | .error _ _ _ => ∀ i, ¬ (client.calls i).phase.Undelivered
  | .written c _ failure => client.codec = some c → failure = none
  | .connect | .disconnect | .call _ _ _ _ _ | .connected _ _ | .connectFailed _ _ | .data _ _
  | .sleepOver _ | .poll _ | .timeout _ | .resume _ | .read _ => True

/-- A call that ends has delivered its request before, or its request cannot be sent. -/
def EndsDelivered (client : Client Value) (_ : ClientEvent) (next : Client Value) : Prop :=
  ∀ i result, (next.calls i).phase = .settled result →
    (client.calls i).phase = .settled result ∨ (client.calls i).phase.Delivered ∨
      (next.calls i).Unsendable format

/-- What the phase of a call has to do with the connection. A request that is on its way
is written to the current one. -/
inductive Faring (client : Client Value) : CallPhase Value → Option Envelope → Prop where
  | idle (envelope : Option Envelope) : Faring client .idle envelope
  | waiting (envelope : Option Envelope) (hopened : 0 < client.opened) :
      Faring client .waiting envelope
  | starting (c : Nat) (envelope : Option Envelope) (hcodec : client.codec = some c) :
      Faring client .starting envelope
  | sending (c id timeoutMs : Nat) (send : FrameSend) (request : Envelope)
      (bytes before : List UInt8) (hcodec : client.codec = some c)
      (hserialize : format.serialize request = some bytes)
      (hputs : Puts (client.conns c) before bytes send) :
      Faring client (.sending c id timeoutMs send) (some request)
  | sent (c id timeoutMs : Nat) (envelope : Option Envelope) :
      Faring client (.sending c id timeoutMs (.settled (.ok ()))) envelope
  | receiving (r id timeoutMs : Nat) (envelope : Option Envelope) :
      Faring client (.receiving r id timeoutMs) envelope
  | failing (error : CallError) (envelope : Option Envelope) (herror : error ≠ .unserializable) :
      Faring client (.failing error) envelope
  | unserializable (request : Envelope) (hserialize : format.serialize request = none) :
      Faring client (.failing .unserializable) (some request)
  | settled (result : Except CallError Value) (envelope : Option Envelope) :
      Faring client (.settled result) envelope

/-- A client with `reconnect` that has lost connections only between the requests. -/
structure Tended (client : Client Value) : Prop where
  config_eq : client.config.reconnect = some options
  connectivity : client.Connectivity options
  grounded : Grounded client
  exclusive : Exclusive client
  blank : Blank client
  id_le : client.nextRequestId ≤ 2 ^ 53
  pristine : ∀ c, client.opened ≤ c → client.conns c = .fromSocket
  accepted : ∀ c, client.codec = some c → Accepted (client.conns c)
  single : ∀ i j, (client.calls i).phase.UnderWay → (client.calls j).phase.UnderWay → i = j
  faring : ∀ i, Faring format client (client.calls i).phase (client.calls i).envelope

variable {format} {options} {decode : Nat → List UInt8 → Except String Value}
  {client next : Client Value} {event : ClientEvent}

theorem init_tended {config : ClientConfig} (hoptions : config.reconnect = some options) :
    (init config : Client Value).Tended format options where
  config_eq := hoptions
  connectivity := init_connectivity config
  grounded := init_grounded config
  exclusive := init_exclusive config
  blank _ _ := rfl
  id_le := Nat.one_le_two_pow
  pristine _ _ := rfl
  accepted _ hcodec := by cases hcodec
  single _ _ hi := hi.elim
  faring _ := .idle none

/-- The current connection is kept for the requests that are on their way. -/
theorem Faring.congr {phase : CallPhase Value} {envelope : Option Envelope}
    (hfaring : Faring format client phase envelope) (hopened : client.opened ≤ next.opened)
    (hkept : ∀ c, client.codec = some c → phase.Undelivered → next.codec = some c ∧
      (next.conns c).sends.length = (client.conns c).sends.length ∧
        (next.conns c).output = (client.conns c).output) : Faring format next phase envelope := by
  cases hfaring with
  | idle envelope => exact .idle envelope
  | waiting envelope hpositive => exact .waiting envelope (Nat.lt_of_lt_of_le hpositive hopened)
  | starting c envelope hcodec => exact .starting c envelope (hkept c hcodec trivial).1
  | sending c id timeoutMs send request bytes before hcodec hserialize hputs =>
      by_cases hsent : send = .settled (.ok ())
      · subst hsent
        exact .sent c id timeoutMs _
      · obtain ⟨hsame, hsends, houtput⟩ := hkept c hcodec hsent
        exact .sending c id timeoutMs send request bytes before hsame hserialize
          (hputs.congr hsends houtput)
  | sent c id timeoutMs envelope => exact .sent c id timeoutMs envelope
  | receiving r id timeoutMs envelope => exact .receiving r id timeoutMs envelope
  | failing error envelope herror => exact .failing error envelope herror
  | unserializable request hserialize => exact .unserializable request hserialize
  | settled result envelope => exact .settled result envelope

/-! ## Connecting -/

/-- A client that is connected does nothing to connect. -/
theorem Connectivity.codec_none (hconnectivity : client.Connectivity options)
    (hforeseen : client.Foreseen options event) (hevent : event.Lifecycle)
    (hkept : event.lost = none) (hstep : client.step format decode event = some next) :
    client.codec = none := by
  cases event with
  | connect =>
      cases hconnectivity with
      | unopened hcodec => exact hcodec
      | up c hcodec hopened => exact absurd (hopened.symm.trans hforeseen.1) (Nat.succ_ne_zero c)
      | down l hcodec => exact hcodec
  | disconnect => exact hforeseen.elim
  | connected k throws =>
      obtain ⟨⟨loop, hk⟩, -⟩ := connected_eq hstep
      exact (hconnectivity.pending hk).1
  | connectFailed k message =>
      obtain ⟨⟨loop, hk⟩, -⟩ := connectFailed_eq hstep
      exact (hconnectivity.pending hk).1
  | sleepOver l =>
      obtain ⟨⟨attempt, delay, hloop⟩, -⟩ := sleepOver_eq hstep
      exact (hconnectivity.asleep hloop).1
  | close | error => cases hkept
  | call | data | written | poll | timeout | resume | read => cases hevent

theorem Tended.connected (htended : client.Tended format options) {c : Nat}
    (hcodec : client.codec = some c) : (client.conns c).connected = true := by
  by_contra hclosed
  exact htended.grounded.not_codec (Bool.eq_false_iff.mpr hclosed) hcodec

/-- The codec has the last connection that was opened. -/
theorem Tended.opened_eq (htended : client.Tended format options) {c : Nat}
    (hcodec : client.codec = some c) : client.opened = c + 1 := by
  cases htended.connectivity with
  | unopened hnone =>
      rw [hnone] at hcodec
      cases hcodec
  | up current hsome hopened =>
      rw [hsome] at hcodec
      cases hcodec
      exact hopened
  | down l hnone =>
      rw [hnone] at hcodec
      cases hcodec

/-- A step after which the calls and the connections are as they should be. -/
theorem Tended.after (htended : client.Tended format options)
    (hstep : client.step format decode event = some next)
    (hconnectivity : next.Connectivity options)
    (hpristine : ∀ c, next.opened ≤ c → next.conns c = .fromSocket)
    (haccepted : ∀ c, next.codec = some c → Accepted (next.conns c))
    (hsingle : ∀ i j, (next.calls i).phase.UnderWay → (next.calls j).phase.UnderWay → i = j)
    (hfaring : ∀ i, Faring format next (next.calls i).phase (next.calls i).envelope) :
    next.Tended format options where
  config_eq := by
    rw [step_config hstep]
    exact htended.config_eq
  connectivity := hconnectivity
  grounded := htended.grounded.step hstep
  exclusive := htended.exclusive.step hstep
  blank := (step_takes htended.blank hstep).1
  id_le := by
    have htakes := (step_takes htended.blank hstep).2
    generalize handed client next event = taken at htakes
    cases htakes with
    | nothing hid =>
        rw [hid]
        exact htended.id_le
    | envelope envelope hrequest hid =>
        rw [hid]
        exact increment_le htended.id_le
  pristine := hpristine
  accepted := haccepted
  single := hsingle
  faring := hfaring

theorem Tended.connecting (htended : client.Tended format options)
    (hforeseen : client.Foreseen options event) (hevent : event.Lifecycle)
    (hkept : event.lost = none) (hstep : client.step format decode event = some next) :
    next.Tended format options := by
  have hnone := htended.connectivity.codec_none hforeseen hevent hkept hstep
  have hconnectivity := htended.connectivity.step htended.config_eq hforeseen hstep
  obtain ⟨hopened, hcodec⟩ := step_codec hstep
  obtain ⟨-, hnext⟩ := connecting_eq hevent hkept hstep
  have hconns : next.conns = client.conns := by rw [hnext]
  have hcalls : next.calls = client.calls := by rw [hnext]
  refine htended.after hstep hconnectivity ?_ ?_ ?_ ?_
  · intro c hc
    rw [hconns]
    exact htended.pristine c (Nat.le_trans hopened hc)
  · intro c hc
    rw [hconns]
    rcases hcodec c hc with hold | rfl
    · exact htended.accepted c hold
    · rw [htended.pristine client.opened (Nat.le_refl _)]
      exact fun _ hmem => (by cases hmem)
  · rw [hcalls]
    exact htended.single
  · intro i
    rw [hcalls]
    apply (htended.faring i).congr hopened
    intro c hsome
    rw [hnone] at hsome
    cases hsome

theorem Tended.lost {c : Nat} (htended : client.Tended format options)
    (hforeseen : client.Foreseen options event) (hlost : event.lost = some c)
    (hbetween : ∀ i, ¬ (client.calls i).phase.Undelivered)
    (hstep : client.step format decode event = some next) : next.Tended format options := by
  have hconnectivity := htended.connectivity.step htended.config_eq hforeseen hstep
  obtain ⟨hc, conn, -, -, hnext⟩ := lost_eq hlost hstep
  rw [onDisconnect_eq] at hnext
  have hcalls : next.calls = client.calls := by rw [hnext]; rfl
  have hopened : next.opened = client.opened := by rw [hnext]; rfl
  refine htended.after hstep hconnectivity ?_ ?_ ?_ ?_
  · intro d hd
    rw [hopened] at hd
    have hconns : next.conns = Function.update client.conns c conn := by rw [hnext]; rfl
    rw [hconns, Function.update_of_ne (by omega)]
    exact htended.pristine d hd
  · intro d hd
    rw [hnext] at hd
    cases hd
  · rw [hcalls]
    exact htended.single
  · intro i
    rw [hcalls]
    apply (htended.faring i).congr (Nat.le_of_eq hopened.symm)
    exact fun d _ hundelivered => absurd hundelivered (hbetween i)

/-! ## The connections -/

/-- A connection goes on, and the calls stay where they are. -/
theorem Tended.stream {c : Nat} {conn : UnixSocketConnection}
    (htended : client.Tended format options) (hcall : ¬ event.OfCall) (hcalm : ¬ event.Lifecycle)
    (hstep : client.step format decode event = some next) (hc : c < client.opened)
    (hconns : next.conns = Function.update client.conns c conn)
    (hlength : conn.sends.length = (client.conns c).sends.length)
    (houtput : conn.output = (client.conns c).output)
    (haccepted : client.codec = some c → Accepted (client.conns c) → Accepted conn) :
    next.Tended format options := by
  have hsame := step_calm hcalm hstep
  have hkept := step_callsKept hcall hstep
  refine htended.after hstep ?_ ?_ ?_ ?_ ?_
  · exact htended.connectivity.congr hsame.codec_eq hsame.opened_eq hsame.reconnecting_eq
      hsame.loops_eq hsame.connects_eq
  · intro d hd
    rw [hsame.opened_eq] at hd
    rw [hconns, Function.update_of_ne (by omega)]
    exact htended.pristine d hd
  · intro d hd
    rw [hsame.codec_eq] at hd
    rw [hconns]
    by_cases hdc : d = c
    · subst hdc
      rw [Function.update_self]
      exact haccepted hd (htended.accepted d hd)
    · rw [Function.update_of_ne hdc]
      exact htended.accepted d hd
  · rw [hkept.calls_eq]
    exact htended.single
  · intro i
    rw [hkept.calls_eq]
    apply (htended.faring i).congr (Nat.le_of_eq hsame.opened_eq.symm)
    intro d hcodec _
    refine ⟨hsame.codec_eq.trans hcodec, ?_⟩
    rw [hconns]
    by_cases hdc : d = c
    · subst hdc
      rw [Function.update_self]
      exact ⟨hlength, houtput⟩
    · rw [Function.update_of_ne hdc]
      exact ⟨rfl, rfl⟩

theorem Tended.socket (htended : client.Tended format options) (hcall : ¬ event.OfCall)
    (hcalm : ¬ event.Lifecycle) (hbetween : client.LosesBetween event)
    (hstep : client.step format decode event = some next) : next.Tended format options := by
  cases event with
  | call | poll | timeout | resume => exact absurd trivial hcall
  | connect | disconnect | connected | connectFailed | close | error | sleepOver =>
      exact absurd trivial hcalm
  | data c chunk =>
      have hnext := hstep
      simp only [step] at hnext
      split at hnext
      next hopen =>
        cases hnext
        refine htended.stream hcall hcalm hstep hopen.1 rfl ?_ ?_ ?_
        · rw [onData_eq]
        · rw [onData_eq]
        · intro _ haccepted
          rw [onData_eq]
          exact haccepted
      · cases hnext
  | written c send failure =>
      have hnext := hstep
      simp only [step] at hnext
      split at hnext
      next hopen =>
        cases hnext
        refine htended.stream hcall hcalm hstep hopen.1 rfl ?_ ?_ ?_
        · unfold onWritten
          split <;> simp
        · unfold onWritten
          split <;> rfl
        · intro hcodec haccepted
          rw [hbetween hcodec]
          exact haccepted.onWritten hopen.2
      · cases hnext
  | read r =>
      obtain ⟨read, frame, conn, hread, hresume, hnext⟩ := read_eq hstep
      have hconn := FrameRead.resume_eq hresume
      refine @Tended.stream _ _ _ _ _ _ _ read.conn conn htended hcall hcalm hstep ?_ ?_ ?_ ?_ ?_
      · exact htended.grounded.opened read (List.mem_of_getElem? hread)
      · rw [hnext]
        rfl
      · rw [hconn]
      · rw [hconn]
      · intro _ haccepted
        rw [hconn]
        exact haccepted

/-! ## The calls -/

theorem Faring.of_not_underWay {phase : CallPhase Value} (hnot : ¬ phase.UnderWay)
    (envelope : Option Envelope) : Faring format client phase envelope := by
  cases phase with
  | idle => exact .idle envelope
  | settled result => exact .settled result envelope
  | waiting | starting | sending | receiving | failing => exact absurd trivial hnot

/-- A call that is under way is the only one. -/
theorem Tended.alone (htended : client.Tended format options) {i : Nat}
    (hi : (client.calls i).phase.UnderWay) (j : Nat) (hj : j ≠ i) :
    ¬ (client.calls j).phase.UnderWay :=
  fun hother => hj (htended.single j i hother hi)

/-- While no call has got to its request, the flag is down. -/
theorem Tended.free (htended : client.Tended format options)
    (hnone : ∀ i, ¬ (client.calls i).phase.InFlight) : client.callInFlight = false := by
  by_contra hflag
  obtain ⟨i, hflying⟩ := htended.exclusive.flag_iff.mp (Bool.eq_true_of_not_eq_false hflag)
  exact hnone i hflying

/-- A call moves on, and no other is under way. -/
theorem Tended.onCall {i : Nat} (htended : client.Tended format options)
    (hstep : client.step format decode event = some next) (hcall : event.OfCall)
    (hothers : ∀ j, j ≠ i → next.calls j = client.calls j)
    (halone : ∀ j, j ≠ i → ¬ (client.calls j).phase.UnderWay)
    (hconns : ∀ c, client.codec ≠ some c → next.conns c = client.conns c)
    (haccepted : ∀ c, client.codec = some c → Accepted (next.conns c))
    (hfaring : Faring format next (next.calls i).phase (next.calls i).envelope) :
    next.Tended format options := by
  have hcalm : ¬ event.Lifecycle := by
    cases event with
    | call | poll | timeout | resume => exact id
    | connect | disconnect | connected | connectFailed | data | close | error | written
    | sleepOver | read => cases hcall
  have hsame := step_calm hcalm hstep
  have hidle : ∀ j, j ≠ i → ¬ (next.calls j).phase.UnderWay := by
    intro j hj
    rw [hothers j hj]
    exact halone j hj
  refine htended.after hstep ?_ ?_ ?_ ?_ ?_
  · exact htended.connectivity.congr hsame.codec_eq hsame.opened_eq hsame.reconnecting_eq
      hsame.loops_eq hsame.connects_eq
  · intro c hc
    rw [hsame.opened_eq] at hc
    rw [hconns c]
    · exact htended.pristine c hc
    · intro hcodec
      have hopened := htended.opened_eq hcodec
      omega
  · intro c hc
    rw [hsame.codec_eq] at hc
    exact haccepted c hc
  · intro j k hj hk
    by_contra hne
    by_cases hji : j = i
    · exact hidle k (fun hki => hne (hji.trans hki.symm)) hk
    · exact hidle j hji hj
  · intro j
    by_cases hj : j = i
    · rwa [hj]
    · exact .of_not_underWay (hidle j hj) _

/-- A call starts on the current connection. -/
theorem Tended.start {ready : Client Value} {i c : Nat} (htended : client.Tended format options)
    (hstep : client.step format decode event = some (ready.start format i)) (hcall : event.OfCall)
    (hcodec : client.codec = some c) (hready : ready.codec = some c)
    (hfree : ready.callInFlight = false) (hsame : ready.conns = client.conns)
    (hothers : ∀ j, j ≠ i → ready.calls j = client.calls j)
    (halone : ∀ j, j ≠ i → ¬ (client.calls j).phase.UnderWay) :
    (ready.start format i).Tended format options ∧
      ∀ result, ((ready.start format i).calls i).phase = .settled result →
        ((ready.start format i).calls i).Unsendable format := by
  have hkept : ∀ j, j ≠ i → (ready.start format i).calls j = client.calls j :=
    fun j hj => (start_calls hj).trans (hothers j hj)
  have hconnected := htended.connected hcodec
  have hstarts := ready.start_cases format i
  generalize ready.start format i = next at hstep hkept hstarts ⊢
  cases hstarts with
  | rejected error hbarred =>
      have hself : (ready.settle i (.error error)).calls i =
          { ready.calls i with phase := .settled (.error error) } := Function.update_self _ _ _
      refine ⟨htended.onCall hstep hcall hkept halone ?_ ?_ ?_, ?_⟩
      · exact fun d _ => congrFun hsame d
      · intro d hd
        have hconn : (ready.settle i (.error error)).conns d = client.conns d := congrFun hsame d
        rw [hconn]
        exact htended.accepted d hd
      · rw [hself]
        exact .settled _ _
      · intro result _
        rw [hself]
        rcases hbarred with hdown | hbusy | hencoded
        · rw [hready] at hdown
          cases hdown
        · rw [hfree] at hbusy
          cases hbusy
        · exact .inl hencoded
  | unserializable d payload hopen _ _ hserialize =>
      have hself := (congrFun (begun_setPhase_calls ready i d payload
        (.failing .unserializable)) i).trans (Function.update_self _ _ _)
      refine ⟨htended.onCall hstep hcall hkept halone ?_ ?_ ?_, ?_⟩
      · exact fun d _ => congrFun hsame d
      · intro e he
        have hconn : ((ready.begun i d payload).setPhase i (.failing .unserializable)).conns e =
            client.conns e := congrFun hsame e
        rw [hconn]
        exact htended.accepted e he
      · rw [hself]
        exact .unserializable _ hserialize
      · intro result hsettled
        rw [hself] at hsettled
        cases hsettled
  | sending d payload bytes hopen _ _ hserialize =>
      cases hready.symm.trans hopen
      have hself := (congrFun (begun_setPhase_calls ready i c payload
        (.sending c ready.nextRequestId (ready.timeoutMs (ready.calls i))
          (sendFrame (ready.conns c) bytes).1)) i).trans (Function.update_self _ _ _)
      have hconns : ((ready.begun i c payload).sending i c ready.nextRequestId
          (ready.timeoutMs (ready.calls i)) (sendFrame (ready.conns c) bytes)).conns =
            Function.update client.conns c (sendFrame (ready.conns c) bytes).2 := by
        rw [← hsame]
        rfl
      have hcurrent : ((ready.begun i c payload).sending i c ready.nextRequestId
          (ready.timeoutMs (ready.calls i)) (sendFrame (ready.conns c) bytes)).codec = some c :=
        hready
      have hphase : ((ready.begun i c payload).sending i c ready.nextRequestId
          (ready.timeoutMs (ready.calls i)) (sendFrame (ready.conns c) bytes)).calls i = _ := hself
      generalize (ready.begun i c payload).sending i c ready.nextRequestId
        (ready.timeoutMs (ready.calls i)) (sendFrame (ready.conns c) bytes) = next at *
      refine ⟨htended.onCall hstep hcall hkept halone ?_ ?_ ?_, ?_⟩
      · intro d hd
        rw [hconns, Function.update_of_ne]
        rintro rfl
        exact hd hcodec
      · intro d hd
        rw [hcodec] at hd
        cases hd
        rw [hconns, Function.update_self, hsame]
        exact sendFrame_accepted (htended.accepted c hcodec) hconnected bytes
      · rw [hphase]
        refine .sending c _ _ _ _ bytes (ready.conns c).output hcurrent hserialize ?_
        rw [hconns, Function.update_self]
        apply Puts.sendFrame
        rw [hsame]
        exact hconnected
      · intro result hsettled
        rw [hphase] at hsettled
        cases hsettled

theorem setPhase_self (client : Client Value) (i : Nat) (phase : CallPhase Value) :
    (client.setPhase i phase).calls i = { client.calls i with phase := phase } :=
  Function.update_self _ _ _

/-- Only the call that moves on can end. -/
theorem endsDelivered_of {i : Nat} (hothers : ∀ j, j ≠ i → next.calls j = client.calls j)
    (hends : ∀ result, (next.calls i).phase = .settled result →
      (client.calls i).phase = .settled result ∨ (client.calls i).phase.Delivered ∨
        (next.calls i).Unsendable format) : client.EndsDelivered format event next := by
  intro j result hsettled
  by_cases hj : j = i
  · subst hj
    exact hends result hsettled
  · rw [hothers j hj] at hsettled
    exact .inl hsettled

/-- A call moves on, and the connections stay where they are. -/
theorem Tended.moveOn {i : Nat} {phase : CallPhase Value}
    (htended : client.Tended format options)
    (hstep : client.step format decode event = some next) (hcall : event.OfCall)
    (hcalls : next.calls = Function.update client.calls i { client.calls i with phase := phase })
    (hconns : next.conns = client.conns)
    (halone : ∀ j, j ≠ i → ¬ (client.calls j).phase.UnderWay)
    (hfaring : Faring format next phase (client.calls i).envelope) :
    next.Tended format options := by
  refine htended.onCall hstep hcall ?_ halone ?_ ?_ ?_
  · intro j hj
    rw [hcalls, Function.update_of_ne hj]
  · exact fun c _ => congrFun hconns c
  · intro c hc
    rw [hconns]
    exact htended.accepted c hc
  · rw [hcalls, Function.update_self]
    exact hfaring

theorem Tended.sending {i c id timeoutMs : Nat} {send : FrameSend}
    {result : FrameSend × UnixSocketConnection} (htended : client.Tended format options)
    (hphase : (client.calls i).phase = .sending c id timeoutMs send)
    (hresume : send.resume (client.conns c) = some result)
    (hstep : client.step format decode (.resume i) =
      some (client.sending i c id timeoutMs result)) :
    (client.sending i c id timeoutMs result).Tended format options := by
  have hfaring := htended.faring i
  have halone := htended.alone (by rw [hphase]; trivial : (client.calls i).phase.UnderWay)
  obtain ⟨send', conn⟩ := result
  have hconns : (client.sending i c id timeoutMs (send', conn)).conns =
      Function.update client.conns c conn := rfl
  rw [hphase] at hfaring
  generalize henvelope : (client.calls i).envelope = envelope at hfaring
  cases hfaring with
  | sent => cases hresume
  | sending _ _ _ _ request bytes before hcodec hserialize hputs =>
      obtain ⟨hputs', haccepted⟩ :=
        hputs.resume (htended.accepted c hcodec) (htended.connected hcodec) hresume
      refine htended.onCall hstep trivial ?_ halone ?_ ?_ ?_
      · exact fun j hj => Function.update_of_ne hj _ _
      · intro d hd
        rw [hconns, Function.update_of_ne]
        rintro rfl
        exact hd hcodec
      · intro d hd
        rw [hcodec] at hd
        cases hd
        rw [hconns, Function.update_self]
        exact haccepted
      · have hself : (client.sending i c id timeoutMs (send', conn)).calls i =
            { client.calls i with phase := .sending c id timeoutMs send' } :=
          (client.setConn c conn).setPhase_self i _
        rw [hself]
        dsimp only
        rw [henvelope]
        refine .sending c id timeoutMs send' request bytes before hcodec hserialize ?_
        rw [hconns, Function.update_self]
        exact hputs'

theorem Tended.receive {i c id timeoutMs : Nat} (htended : client.Tended format options)
    (hphase : (client.calls i).phase = .sending c id timeoutMs (.settled (.ok ())))
    (hstep : client.step format decode (.resume i) = some (client.receive i id timeoutMs)) :
    (client.receive i id timeoutMs).Tended format options := by
  have halone := htended.alone (by rw [hphase]; trivial : (client.calls i).phase.UnderWay)
  unfold Client.receive at hstep ⊢
  split at hstep
  · exact htended.moveOn hstep trivial rfl rfl halone (.settled _ _)
  next current hcodec =>
    refine @Tended.onCall _ _ _ _ _ _ _ i htended hstep trivial ?_ halone ?_ ?_ ?_
    · exact fun j hj => Function.update_of_ne hj _ _
    · intro d hd
      apply Function.update_of_ne
      rintro rfl
      exact hd hcodec
    · intro d hd
      rw [hcodec] at hd
      cases hd
      dsimp only [Client.setPhase, setCall, setConn]
      rw [Function.update_self, recvFrame_eq]
      exact htended.accepted current hcodec
    · dsimp only
      rw [setPhase_self]
      exact .receiving _ _ _ _

theorem Tended.resume {i : Nat} (htended : client.Tended format options)
    (hstep : client.step format decode (.resume i) = some next) :
    next.Tended format options ∧ client.EndsDelivered format (.resume i) next := by
  have hfaring := htended.faring i
  cases resume_cases hstep with
  | starting hphase =>
      have halone := htended.alone (by rw [hphase]; trivial : (client.calls i).phase.UnderWay)
      have hfree : client.callInFlight = false := by
        apply htended.free
        intro j hflying
        by_cases hj : j = i
        · rw [hj, hphase] at hflying
          exact hflying
        · exact halone j hj (CallPhase.InFlight.underWay hflying)
      rw [hphase] at hfaring
      cases hfaring with
      | starting c envelope hcodec =>
          obtain ⟨hnext, hends⟩ := htended.start hstep trivial hcodec hcodec hfree rfl
            (fun _ _ => rfl) halone
          refine ⟨hnext, endsDelivered_of (fun j hj => start_calls hj) ?_⟩
          exact fun result hsettled => .inr (.inr (hends result hsettled))
  | receiving c id timeoutMs hphase =>
      refine ⟨htended.receive hphase hstep, @endsDelivered_of _ _ _ _ _ i ?_ ?_⟩
      · intro j hj
        unfold Client.receive
        split
        · exact Function.update_of_ne hj _ _
        · exact Function.update_of_ne hj _ _
      · rw [hphase]
        exact fun _ _ => .inr (.inl rfl)
  | unsent c id timeoutMs error hphase =>
      have halone := htended.alone (by rw [hphase]; trivial : (client.calls i).phase.UnderWay)
      refine ⟨htended.moveOn hstep trivial rfl rfl halone (.settled _ _),
        endsDelivered_of (fun j hj => Function.update_of_ne hj _ _) ?_⟩
      have hself : (client.finish i (.error (.transport error))).calls i =
          { client.calls i with phase := .settled (.error (.transport error)) } :=
        client.setPhase_self i _
      -- on a connection that is kept, only a request that is too large is not sent
      rw [hphase] at hfaring
      generalize henvelope : (client.calls i).envelope = envelope at hfaring
      cases hfaring with
      | sending _ _ _ _ request bytes before hcodec hserialize hputs =>
          cases hputs with
          | writing send hfits hwriting => cases hwriting
          | refused hlarge houtput =>
              intro result _
              rw [hself]
              refine .inr (.inr (.inr ⟨request, henvelope, ?_⟩))
              intro hsendable
              exact Nat.not_le_of_lt hlarge (hsendable.length_le hserialize)
  | sending c id timeoutMs send result hphase hresume =>
      refine ⟨htended.sending hphase hresume hstep,
        endsDelivered_of (fun j hj => Function.update_of_ne hj _ _) ?_⟩
      intro other hsettled
      obtain ⟨send', conn⟩ := result
      rw [Client.sending, setPhase_self] at hsettled
      cases hsettled
  | received r id timeoutMs read result hphase hread hsettled =>
      have halone := htended.alone (by rw [hphase]; trivial : (client.calls i).phase.UnderWay)
      refine ⟨htended.moveOn hstep trivial rfl rfl halone (.settled _ _),
        endsDelivered_of (fun j hj => Function.update_of_ne hj _ _) ?_⟩
      rw [hphase]
      exact fun _ _ => .inr (.inl trivial)
  | failing error hphase =>
      have halone := htended.alone (by rw [hphase]; trivial : (client.calls i).phase.UnderWay)
      refine ⟨htended.moveOn hstep trivial rfl rfl halone (.settled _ _),
        endsDelivered_of (fun j hj => Function.update_of_ne hj _ _) ?_⟩
      have hself : (client.finish i (.error error)).calls i =
          { client.calls i with phase := .settled (.error error) } := client.setPhase_self i _
      rw [hphase] at hfaring ⊢
      generalize henvelope : (client.calls i).envelope = envelope at hfaring
      cases hfaring with
      | failing _ _ herror => exact fun _ _ => .inr (.inl herror)
      | unserializable request hserialize =>
          intro result _
          rw [hself]
          exact .inr (.inr (.inr ⟨request, henvelope, Rpc.not_sendable_of_none hserialize⟩))

theorem Tended.poll {i : Nat} (htended : client.Tended format options)
    (hstep : client.step format decode (.poll i) = some next) :
    next.Tended format options ∧ client.EndsDelivered format (.poll i) next := by
  obtain ⟨hphase, -⟩ := poll_cases hstep
  have halone := htended.alone (by rw [hphase]; trivial : (client.calls i).phase.UnderWay)
  have hpoll := hstep
  simp only [step, Client.poll, hphase] at hpoll
  split at hpoll
  next hconnected =>
    cases hpoll
    obtain ⟨c, hcodec⟩ := Option.isSome_iff_exists.mp hconnected
    refine ⟨htended.moveOn hstep trivial rfl rfl halone (.starting c _ hcodec),
      endsDelivered_of (fun j hj => Function.update_of_ne hj _ _) ?_⟩
    intro result hsettled
    rw [setPhase_self] at hsettled
    cases hsettled
  next hdisconnected =>
    split at hpoll
    · cases hpoll
      exact ⟨htended, fun j result hsettled => .inl hsettled⟩
    next hidle =>
      -- while the client is disconnected, the loop is at work
      have hfaring := htended.faring i
      rw [hphase] at hfaring
      cases hfaring with
      | waiting envelope hopened =>
          cases htended.connectivity with
          | unopened _ hzero => omega
          | up c hcodec => exact absurd (by rw [hcodec]; rfl) hdisconnected
          | down l _ _ hreconnecting => exact absurd hreconnecting hidle

theorem Tended.timeout {i : Nat} (htended : client.Tended format options)
    (hstep : client.step format decode (.timeout i) = some next) :
    next.Tended format options ∧ client.EndsDelivered format (.timeout i) next := by
  obtain ⟨r, id, timeoutMs, hphase, rfl⟩ := timeout_cases hstep
  have halone := htended.alone (by rw [hphase]; trivial : (client.calls i).phase.UnderWay)
  refine ⟨htended.moveOn hstep trivial rfl rfl halone (.failing _ _ fun h => (by cases h)),
    endsDelivered_of (fun j hj => Function.update_of_ne hj _ _) ?_⟩
  rw [hphase]
  exact fun _ _ => .inr (.inl trivial)

theorem Tended.call {i : Nat} {service method : String} {encoded : Except String (List UInt8)}
    {callOptions : CallOptions} (htended : client.Tended format options)
    (hforeseen : client.Foreseen options (.call i service method encoded callOptions))
    (hstep : client.step format decode (.call i service method encoded callOptions) = some next) :
    next.Tended format options ∧
      client.EndsDelivered format (.call i service method encoded callOptions) next := by
  obtain ⟨hopened, hnone⟩ := hforeseen
  have halone : ∀ j, j ≠ i → ¬ (client.calls j).phase.UnderWay := fun j _ => hnone j
  have hcalled : ∀ j, j ≠ i →
      (client.called i service method encoded callOptions).calls j = client.calls j :=
    fun j hj => Function.update_of_ne hj _ _
  obtain ⟨hphase, hnext⟩ := call_cases hstep
  cases hcodec : client.codec with
  | none =>
      have hwaits : next = (client.called i service method encoded callOptions).setPhase i
          .waiting := by
        simp only [step, Client.call, hphase] at hstep
        rw [if_pos (by simp [hcodec, htended.config_eq])] at hstep
        exact (Option.some_inj.mp hstep).symm
      subst hwaits
      have hothers : ∀ j, j ≠ i → ((client.called i service method encoded callOptions).setPhase i
          .waiting).calls j = client.calls j :=
        fun j hj => (Function.update_of_ne hj _ _).trans (hcalled j hj)
      refine ⟨htended.onCall hstep trivial hothers halone (fun _ _ => rfl) ?_ ?_,
        endsDelivered_of hothers ?_⟩
      · intro c hc
        rw [hcodec] at hc
        cases hc
      · rw [setPhase_self]
        exact .waiting _ hopened
      · intro result hsettled
        rw [setPhase_self] at hsettled
        cases hsettled
  | some c =>
      rcases hnext with ⟨hnone, -⟩ | rfl
      · rw [hcodec] at hnone
        cases hnone
      · have hfree : client.callInFlight = false :=
          htended.free fun j hflying => hnone j (CallPhase.InFlight.underWay hflying)
        obtain ⟨hnext, hends⟩ := htended.start hstep trivial hcodec hcodec hfree rfl
          hcalled halone
        refine ⟨hnext, @endsDelivered_of _ _ _ _ _ i ?_ ?_⟩
        · exact fun j hj => (start_calls hj).trans (hcalled j hj)
        · exact fun result hsettled => .inr (.inr (hends result hsettled))

/-- A step of a client that has lost connections only between the requests. -/
theorem Tended.step (htended : client.Tended format options)
    (hforeseen : client.Foreseen options event) (hbetween : client.LosesBetween event)
    (hstep : client.step format decode event = some next) :
    next.Tended format options ∧ client.EndsDelivered format event next := by
  have hkept : ¬ event.OfCall → client.EndsDelivered format event next := by
    intro hcall i result hsettled
    rw [(step_callsKept hcall hstep).calls_eq] at hsettled
    exact .inl hsettled
  cases event with
  | call i service method encoded callOptions => exact htended.call hforeseen hstep
  | poll i => exact htended.poll hstep
  | timeout i => exact htended.timeout hstep
  | resume i => exact htended.resume hstep
  | close c => exact ⟨htended.lost hforeseen rfl hbetween hstep, hkept id⟩
  | error c message code => exact ⟨htended.lost hforeseen rfl hbetween hstep, hkept id⟩
  | connect | disconnect | connected | connectFailed | sleepOver =>
      exact ⟨htended.connecting hforeseen trivial rfl hstep, hkept id⟩
  | data | written | read => exact ⟨htended.socket id id hbetween hstep, hkept id⟩

end Client

end Ibridger.Js
