import Ibridger.Foundation.Progress
import Ibridger.Js.SingleCaller
import Ibridger.Js.Steady

/-! # Calls that outlast a lost connection, in JS

A call that waits for the reconnect loop is bound to get its response, if the peer becomes
reachable within the attempts of the loop and stays up: it takes what is written, and it
answers every request that it has got.
-/

namespace Ibridger.Js

open LengthPrefix Transition UnixSocketConnection Wire

/-- How many turns of a loop there are before the attempt `n`. -/
def ReconnectLoop.turns (n : Nat) : ReconnectLoop → Nat
  | .sleeping attempt _ => 2 * (n - attempt) + 1
  | .connecting attempt => 2 * (n - attempt)
  | .ended => 0

namespace Client

variable {Value : Type} (format : EnvelopeFormat)
  (decode : Nat → List UInt8 → Except String Value) (reply : Envelope → Envelope) (n : Nat)

/-- What the client does by itself while a call waits, and a peer that can be reached from
the attempt `n` on: it lets no connection end, lets no write fail, and answers the requests
that it has got with `reply`. -/
def Own (client : Client Value) : ClientEvent → Prop
  | .connected _ throws => throws = false
  | .connectFailed k _ => ∀ l attempt, client.Connecting k l →
      client.loops[l]? = some (.connecting attempt) → attempt < n
  | .data c chunk => client.codec = some c ∧ chunk ≠ [] ∧
      ∃ rest, format.Emitted ((client.conns c).received ++ chunk ++ rest)
        ((format.envelopes (client.conns c).output).map reply)
  | .written c _ failure => client.codec = some c ∧ failure = none
  | .poll _ => client.isConnected = true
  | .sleepOver _ | .resume _ | .read _ => True
  | .connect | .disconnect | .call _ _ _ _ _ | .close _ | .error _ _ _ | .timeout _ => False

/-- The call has sent the request on the connection, and it has ended with what it makes of
the response. -/
structure Answered (client : Client Value) (i c : Nat) (request : Envelope) : Prop where
  settled : (client.calls i).phase =
    .settled (respond request.requestId.toNat (decode i) (reply request))
  envelope_eq : (client.calls i).envelope = some request
  conn_eq : (client.calls i).conn = some c
  sent : request ∈ format.envelopes (client.conns c).output

/-- The call has yet to take up its request, and the connection is untouched. -/
structure Awaiting (client : Client Value) (i c : Nat) (request : Envelope) : Prop where
  pristine : client.conns c = .fromSocket
  unread : ∀ read ∈ client.reads, read.conn ≠ c
  request_eq : ∃ payload, (client.calls i).encoded = .ok payload ∧
    requestEnvelope (client.calls i) client.nextRequestId payload = request

/-- The call has handed its request to the codec of the connection. -/
structure Engaged (client : Client Value) (i c id : Nat) (request : Envelope) : Prop where
  codec_eq : client.codec = some c
  envelope_eq : (client.calls i).envelope = some request
  conn_eq : (client.calls i).conn = some c
  id_eq : request.requestId.toNat = id

/-- How far a call has got on the way to its response: it waits until the connection `c` is
there, starts, sends, receives, and has ended. -/
inductive Course (client : Client Value) (i c : Nat) (request : Envelope) (bytes : List UInt8) :
    Prop where
  | waiting (hphase : (client.calls i).phase = .waiting)
      (hawaiting : client.Awaiting i c request)
      (hcodec : client.codec = none ∧ client.opened = c ∨ client.codec = some c) :
      Course client i c request bytes
  | starting (hphase : (client.calls i).phase = .starting)
      (hawaiting : client.Awaiting i c request) (hcodec : client.codec = some c) :
      Course client i c request bytes
  | sending (id timeoutMs : Nat) (send : FrameSend)
      (hphase : (client.calls i).phase = .sending c id timeoutMs send)
      (hengaged : client.Engaged i c id request) (hputs : Puts (client.conns c) [] bytes send)
      (hwaiters : (client.conns c).waiters = [])
      (hbuffer : (client.conns c).buffer = (client.conns c).received)
      (hunread : ∀ read ∈ client.reads, read.conn ≠ c)
      (hcame : ∃ rest, format.Emitted ((client.conns c).received ++ rest)
        ((format.envelopes (client.conns c).output).map reply)) :
      Course client i c request bytes
  | receiving (r id timeoutMs : Nat) (frame : FrameRead)
      (hphase : (client.calls i).phase = .receiving r id timeoutMs)
      (hengaged : client.Engaged i c id request)
      (hread : client.reads[r]? = some ⟨i, c, frame⟩)
      (honly : ∀ (q : Nat) read, client.reads[q]? = some read → read.conn = c → q = r)
      (houtput : (client.conns c).output = frameHeader.frame bytes)
      (hcame : ∃ rest, format.Emitted ((client.conns c).received ++ rest) [reply request])
      (hframe : Js.Reading (client.conns c) (client.conns c).received frame ∨
        ∃ payload, frame = .settled (.ok payload) ∧ format.parse payload = .ok (reply request)) :
      Course client i c request bytes
  | ended (hanswered : client.Answered format decode reply i c request) :
      Course client i c request bytes

/-- The turns of the loop and of the call that are left. -/
def turnsLeft (client : Client Value) (i : Nat) : Nat :=
  match (client.calls i).phase with
  | .waiting =>
      if client.isConnected then 7 else 8 + (client.loops.map (ReconnectLoop.turns n)).sum
  | .starting => 6
  | .sending _ _ _ send => send.turns + 2
  | .receiving _ _ _ => 1
  | .idle | .failing _ | .settled _ => 0

/-- The writes that have yet to complete, the turns of the reads, and the bytes that may
come. -/
def workLeft (client : Client Value) (c : Nat) : Nat :=
  pendings (client.conns c) + (client.reads.map fun read => read.frame.turns).sum +
    (4 + MAX_FRAME_SIZE - (client.conns c).received.length)

def remaining (i c : Nat) (client : Client Value) : ℕ ×ₗ ℕ :=
  toLex (client.turnsLeft n i, client.workLeft c)

/-- Every call that waits while the connection is down is bound to get its response on the
next one, from a peer that can be reached from some allowed attempt on. -/
def Restores (options : ReconnectOptions) (client : Client Value) : Prop :=
  ∀ (reply : Envelope → Envelope) (n i : Nat) (payload : List UInt8) (request : Envelope),
    options.allows n = true → (client.calls i).phase = .waiting → client.codec = none →
    (client.calls i).encoded = .ok payload →
    requestEnvelope (client.calls i) client.nextRequestId payload = request →
    Rpc.Sendable format request → Rpc.Sendable format (reply request) →
    Inevitable (step format decode) (Own format reply n)
      (fun last => last.Answered format decode reply i client.opened request) client

variable {format} {decode} {reply} {n} {client next : Client Value} {event : ClientEvent}
  {options : ReconnectOptions} {i c : Nat} {request : Envelope} {bytes : List UInt8}

/-! ## Own steps are allowed -/

theorem allows_of_le {m : Nat} (hallows : options.allows n = true) (hm : m ≤ n) :
    options.allows m = true := by
  unfold ReconnectOptions.allows at hallows ⊢
  cases hlimit : options.maxAttempts with
  | none => rfl
  | some limit =>
      rw [hlimit, Option.all_some, decide_eq_true_eq] at hallows
      rw [Option.all_some, decide_eq_true_eq]
      omega

theorem Own.foreseen (hown : client.Own format reply n event)
    (hallows : options.allows n = true) : client.Foreseen options event := by
  cases event with
  | connected k throws =>
      intro hthrows
      rw [show throws = false from hown] at hthrows
      cases hthrows
  | connectFailed k message =>
      intro l attempt hk hloop
      exact allows_of_le hallows (hown l attempt hk hloop)
  | data | written | sleepOver | poll | resume | read => trivial
  | connect | disconnect | call | close | error | timeout => cases hown

theorem Own.losesBetween (hown : client.Own format reply n event) :
    client.LosesBetween event := by
  cases event with
  | written c send failure => exact fun _ => hown.2
  | connected | connectFailed | data | sleepOver | poll | resume | read => trivial
  | connect | disconnect | call | close | error | timeout => cases hown

/-! ## Steps that do not concern the call -/

/-- Nothing happens to the call, and on its connection nothing does either. -/
theorem Course.congr (hcourse : client.Course format decode reply i c request bytes)
    (hcalls : next.calls = client.calls) (hconn : next.conns c = client.conns c)
    (hid : next.nextRequestId = client.nextRequestId)
    (howners : next.reads.map Read.owner = client.reads.map Read.owner)
    (hframes : ∀ (r : Nat) (read : Read), read.conn = c → client.reads[r]? = some read →
      next.reads[r]? = some read)
    (hcodec : next.codec = some c ∨ next.codec = client.codec ∧ next.opened = client.opened) :
    next.Course format decode reply i c request bytes := by
  have hconns : ∀ (q : Nat) read, next.reads[q]? = some read →
      ∃ before, client.reads[q]? = some before ∧ before.conn = read.conn := by
    intro q read hread
    have howner := congrArg (·[q]?) howners
    simp only [List.getElem?_map, hread, Option.map_some] at howner
    obtain ⟨before, hbefore, hsame⟩ := Option.map_eq_some_iff.mp howner.symm
    exact ⟨before, hbefore, congrArg Prod.snd hsame⟩
  have hunread : (∀ read ∈ client.reads, read.conn ≠ c) → ∀ read ∈ next.reads, read.conn ≠ c := by
    intro hnone read hmem
    obtain ⟨q, hq⟩ := List.mem_iff_getElem?.mp hmem
    obtain ⟨before, hbefore, hsame⟩ := hconns q read hq
    rw [← hsame]
    exact hnone before (List.mem_of_getElem? hbefore)
  have hawaiting : client.Awaiting i c request → next.Awaiting i c request := by
    intro hold
    refine ⟨hconn.trans hold.pristine, hunread hold.unread, ?_⟩
    rw [hcalls, hid]
    exact hold.request_eq
  have hcurrent : client.codec = some c → next.codec = some c := by
    rcases hcodec with hnew | ⟨hsame, -⟩
    · exact fun _ => hnew
    · exact fun hold => hsame.trans hold
  have hengaged : ∀ {id}, client.Engaged i c id request → next.Engaged i c id request := by
    rintro id ⟨hold, henvelope, hconn, hid⟩
    refine ⟨hcurrent hold, ?_, ?_, hid⟩
    · rwa [hcalls]
    · rwa [hcalls]
  cases hcourse with
  | waiting hphase hold hwhere =>
      refine .waiting (by rwa [hcalls]) (hawaiting hold) ?_
      rcases hcodec with hnew | ⟨hsame, hopened⟩
      · exact .inr hnew
      · rwa [hsame, hopened]
  | starting hphase hold hsome =>
      exact .starting (by rwa [hcalls]) (hawaiting hold) (hcurrent hsome)
  | sending id timeoutMs send hphase hold hputs hwaiters hbuffer hnone hcame =>
      refine .sending id timeoutMs send (by rwa [hcalls]) (hengaged hold) ?_ ?_ ?_
        (hunread hnone) ?_
      all_goals rwa [hconn]
  | receiving r id timeoutMs frame hphase hold hread honly houtput hcame hframe =>
      refine .receiving r id timeoutMs frame (by rwa [hcalls]) (hengaged hold)
        (hframes r ⟨i, c, frame⟩ rfl hread) ?_ ?_ ?_ ?_
      · intro q read hq hreadConn
        obtain ⟨before, hbefore, hsame⟩ := hconns q read hq
        exact honly q before hbefore (hsame.trans hreadConn)
      all_goals rwa [hconn]
  | ended hanswered =>
      refine .ended ⟨?_, ?_, ?_, ?_⟩
      · rw [hcalls]
        exact hanswered.settled
      · rw [hcalls]
        exact hanswered.envelope_eq
      · rw [hcalls]
        exact hanswered.conn_eq
      · rw [hconn]
        exact hanswered.sent

theorem remaining_lt_of_turns (hturns : next.turnsLeft n i < client.turnsLeft n i) :
    remaining n i c next < remaining n i c client :=
  Prod.Lex.toLex_lt_toLex.mpr (.inl hturns)

theorem remaining_lt_of_work (hcalls : next.calls = client.calls)
    (hcodec : next.codec = client.codec) (hloops : next.loops = client.loops)
    (hwork : next.workLeft c < client.workLeft c) :
    remaining n i c next < remaining n i c client := by
  refine Prod.Lex.toLex_lt_toLex.mpr (.inr ⟨?_, hwork⟩)
  rw [turnsLeft, isConnected, hcalls, hcodec, hloops, turnsLeft, isConnected]

/-- A `recvFrame` on another connection goes on. -/
theorem Course.readElsewhere {r : Nat} {read : Read} {frame : FrameRead}
    {conn : UnixSocketConnection}
    (hcourse : client.Course format decode reply i c request bytes)
    (hread : client.reads[r]? = some read)
    (hresume : read.frame.resume (client.conns read.conn) = some (frame, conn))
    (hother : read.conn ≠ c) (hnext : next = { client.setConn read.conn conn with
      reads := client.reads.set r { read with frame := frame } }) :
    next.Course format decode reply i c request bytes ∧
      remaining n i c next < remaining n i c client := by
  have hconn : next.conns c = client.conns c := by
    rw [hnext]
    exact Function.update_of_ne hother.symm _ _
  have hreads : next.reads = client.reads.set r { read with frame := frame } := by rw [hnext]
  have hcalls : next.calls = client.calls := by rw [hnext]; rfl
  have hcodec : next.codec = client.codec := by rw [hnext]; rfl
  have hopened : next.opened = client.opened := by rw [hnext]; rfl
  have hid : next.nextRequestId = client.nextRequestId := by rw [hnext]; rfl
  have hloops : next.loops = client.loops := by rw [hnext]; rfl
  refine ⟨hcourse.congr hcalls hconn hid ?_ ?_ (.inr ⟨hcodec, hopened⟩), ?_⟩
  · rw [hreads]
    exact set_owner hread frame
  · intro q other hconnection hq
    rw [hreads, List.getElem?_set_ne]
    · exact hq
    · rintro rfl
      rw [hread] at hq
      cases hq
      exact hother hconnection
  · apply remaining_lt_of_work hcalls hcodec hloops
    have hturns := sum_turns_lt hread hresume
    unfold workLeft
    rw [hconn, hreads]
    omega

/-! ## Until the connection is there -/

theorem Course.underWay (hcourse : client.Course format decode reply i c request bytes)
    (hunanswered : ¬ client.Answered format decode reply i c request) :
    (client.calls i).phase.UnderWay := by
  cases hcourse with
  | waiting hphase | starting hphase | sending _ _ _ hphase | receiving _ _ _ _ hphase =>
      rw [hphase]
      trivial
  | ended hanswered => exact absurd hanswered hunanswered

/-- While the client is disconnected, the call waits for the next connection. -/
theorem Course.down (hcourse : client.Course format decode reply i c request bytes)
    (hunanswered : ¬ client.Answered format decode reply i c request)
    (hnone : client.codec = none) :
    (client.calls i).phase = .waiting ∧ client.opened = c := by
  have hnot : client.codec ≠ some c := by
    rw [hnone]
    exact fun h => (by cases h)
  cases hcourse with
  | waiting hphase hawaiting hcodec => exact ⟨hphase, (hcodec.resolve_right hnot).2⟩
  | starting hphase hawaiting hcodec => exact absurd hcodec hnot
  | sending id timeoutMs send hphase hengaged => exact absurd hengaged.codec_eq hnot
  | receiving r id timeoutMs frame hphase hengaged => exact absurd hengaged.codec_eq hnot
  | ended hanswered => exact absurd hanswered hunanswered

/-- While the client is connected, the connection is the one that the call is about. -/
theorem Course.up (hcourse : client.Course format decode reply i c request bytes)
    (hunanswered : ¬ client.Answered format decode reply i c request) {current : Nat}
    (hcodec : client.codec = some current) : current = c := by
  have hsome : client.codec = some c := by
    cases hcourse with
    | waiting hphase hawaiting hwhere =>
        rcases hwhere with ⟨hnone, -⟩ | hsome
        · rw [hnone] at hcodec
          cases hcodec
        · exact hsome
    | starting hphase hawaiting hsome => exact hsome
    | sending id timeoutMs send hphase hengaged => exact hengaged.codec_eq
    | receiving r id timeoutMs frame hphase hengaged => exact hengaged.codec_eq
    | ended hanswered => exact absurd hanswered hunanswered
  rw [hsome] at hcodec
  cases hcodec
  rfl

/-- A turn of the reconnect loop. -/
theorem Course.connecting (hcourse : client.Course format decode reply i c request bytes)
    (htended : client.Tended format options) (hallows : options.allows n = true)
    (hunanswered : ¬ client.Answered format decode reply i c request)
    (hown : client.Own format reply n event) (hevent : event.Lifecycle)
    (hstep : client.step format decode event = some next) :
    next.Course format decode reply i c request bytes ∧
      remaining n i c next < remaining n i c client := by
  have hforeseen := hown.foreseen hallows
  have hkept : event.lost = none := by
    cases event with
    | close | error => exact hown.elim
    | connect | disconnect | call | connected | connectFailed | data | written | sleepOver | poll
    | timeout | resume | read => rfl
  have hnone := htended.connectivity.codec_none hforeseen hevent hkept hstep
  obtain ⟨hphase, hopened⟩ := hcourse.down hunanswered hnone
  obtain ⟨-, hnext⟩ := connecting_eq hevent hkept hstep
  have hcongr : next.codec = some c ∨ next.codec = client.codec ∧ next.opened = client.opened →
      next.Course format decode reply i c request bytes := by
    apply hcourse.congr
    all_goals rw [hnext]
    exact fun _ _ _ hread => hread
  have hturns : client.turnsLeft n i = 8 + (client.loops.map (ReconnectLoop.turns n)).sum := by
    simp [turnsLeft, hphase, isConnected, hnone]
  have hphase' : (next.calls i).phase = .waiting := by
    rw [hnext]
    exact hphase
  have hlooping : next.codec = none → (next.loops.map (ReconnectLoop.turns n)).sum <
      (client.loops.map (ReconnectLoop.turns n)).sum →
        remaining n i c next < remaining n i c client := by
    intro hnone' hfalls
    apply remaining_lt_of_turns
    rw [hturns, turnsLeft, hphase', isConnected, hnone']
    simpa using hfalls
  cases event with
  | connect | disconnect | close | error => cases hown
  | call | data | written | poll | timeout | resume | read => cases hevent
  | sleepOver l =>
      obtain ⟨⟨attempt, delay, hloop⟩, -⟩ := sleepOver_eq hstep
      simp only [step, sleepOver_of_sleeping hnone hloop] at hstep
      cases hstep
      refine ⟨hcongr (.inr ⟨rfl, rfl⟩), hlooping hnone ?_⟩
      exact sum_map_set_lt _ hloop (Nat.lt_succ_self _)
  | connected k throws =>
      obtain ⟨-, hconnected⟩ := connected_eq hstep
      have hcodec : next.codec = some c := by rw [hconnected, hopened]
      refine ⟨hcongr (.inl hcodec), remaining_lt_of_turns ?_⟩
      rw [hturns, turnsLeft, hphase', isConnected, hcodec]
      simp only [Option.isSome_some, if_true]
      omega
  | connectFailed k message =>
      obtain ⟨⟨loop, hk⟩, -⟩ := connectFailed_eq hstep
      obtain ⟨-, -, ⟨-, hzero, -⟩ | ⟨l, attempt, rfl, hloop, -⟩⟩ := htended.connectivity.pending hk
      · have hfaring := htended.faring i
        rw [hphase] at hfaring
        cases hfaring with
        | waiting envelope hpositive => omega
      · have hlt := hown l attempt hk hloop
        have hfailed := connectFailed_of_connecting hk htended.config_eq hloop hstep
        rw [Client.attempt, if_pos (hforeseen l attempt hk hloop)] at hfailed
        subst hfailed
        refine ⟨hcongr (.inr ⟨rfl, rfl⟩), hlooping hnone ?_⟩
        apply sum_map_set_lt _ hloop
        simp only [ReconnectLoop.turns]
        omega

/-! ## The request -/

/-- The call notices that the client is connected again. -/
theorem Course.poll {j : Nat} (hcourse : client.Course format decode reply i c request bytes)
    (htended : client.Tended format options)
    (hunanswered : ¬ client.Answered format decode reply i c request)
    (hown : client.Own format reply n (.poll j))
    (hstep : client.step format decode (.poll j) = some next) :
    next.Course format decode reply i c request bytes ∧
      remaining n i c next < remaining n i c client := by
  obtain ⟨hpolled, -⟩ := poll_cases hstep
  obtain rfl : j = i := htended.single j i (by rw [hpolled]; trivial) (hcourse.underWay hunanswered)
  obtain ⟨current, hcodec⟩ := Option.isSome_iff_exists.mp hown
  obtain rfl := hcourse.up hunanswered hcodec
  have hnext : next = client.setPhase j .starting := by
    simp only [step, Client.poll, hpolled] at hstep
    rw [if_pos (by rw [hcodec]; rfl)] at hstep
    exact (Option.some_inj.mp hstep).symm
  subst hnext
  cases hcourse with
  | starting hphase | sending _ _ _ hphase | receiving _ _ _ _ hphase =>
      rw [hpolled] at hphase
      cases hphase
  | ended hanswered => exact absurd hanswered hunanswered
  | waiting hphase hawaiting hwhere =>
      refine ⟨.starting ?_ ⟨hawaiting.pristine, hawaiting.unread, ?_⟩ hcodec, ?_⟩
      · rw [setPhase_self]
      · rw [setPhase_self]
        exact hawaiting.request_eq
      · apply remaining_lt_of_turns
        simp [turnsLeft, setPhase_self, hphase, isConnected, hcodec]

/-- What has come is a beginning of what the peer answers, also when more of the request is
written. -/
theorem came_of_puts {conn next : UnixSocketConnection} {send : FrameSend}
    (hinverse : format.Inverse) (hreply : Rpc.Sendable format (reply request))
    (hparse : format.parse bytes = .ok request) (hputs : Puts next [] bytes send)
    (hgrows : conn.output <+: next.output) (hreceived : next.received = conn.received)
    (hcame : ∃ rest, format.Emitted (conn.received ++ rest)
      ((format.envelopes conn.output).map reply)) :
    ∃ rest, format.Emitted (next.received ++ rest) ((format.envelopes next.output).map reply) := by
  obtain ⟨rest, hemitted⟩ := hcame
  have hbefore := @EnvelopeFormat.envelopes_mono format _ _ hgrows
  have hafter : format.envelopes next.output <+: [request] :=
    envelopes_of_puts hputs .nil fun _ => hparse
  rw [hreceived]
  by_cases hsame : (format.envelopes conn.output).length = (format.envelopes next.output).length
  · rw [← hbefore.eq_of_length hsame]
    exact ⟨rest, hemitted⟩
  · -- the request is complete now, and nothing has come before it was
    have hle := hbefore.length_le
    have hone := hafter.length_le
    rw [List.length_singleton] at hone
    have hnone : format.envelopes conn.output = [] := List.eq_nil_of_length_eq_zero (by omega)
    have hwhole : format.envelopes next.output = [request] := by
      apply hafter.eq_of_length
      rw [List.length_singleton]
      omega
    rw [hnone] at hemitted
    have hlength := hemitted.length_le
    have hempty : conn.received = [] := by
      apply List.eq_nil_of_length_eq_zero
      simp only [List.map_nil, List.length_nil, List.length_append] at hlength
      omega
    obtain ⟨answer, -, hsize, hparsed⟩ := hreply.parses hinverse
    refine ⟨frameHeader.frame answer, ?_⟩
    rw [hempty, hwhole]
    exact EnvelopeFormat.Emitted.nil.append hsize hparsed

/-- The call starts, and begins to send its request. -/
theorem Course.start (hawaiting : client.Awaiting i c request)
    (htended : client.Tended format options) (hinverse : format.Inverse)
    (hserialize : format.serialize request = some bytes)
    (hparse : format.parse bytes = .ok request) (hreply : Rpc.Sendable format (reply request))
    (hphase : (client.calls i).phase = .starting) (hcodec : client.codec = some c) :
    (client.start format i).Course format decode reply i c request bytes ∧
      remaining n i c (client.start format i) < remaining n i c client := by
  obtain ⟨payload, hencoded, hrequest⟩ := hawaiting.request_eq
  have hfree : client.callInFlight = false := by
    apply htended.free
    intro j hflying
    obtain rfl : j = i := htended.single j i (CallPhase.InFlight.underWay hflying)
      (by rw [hphase]; trivial)
    rw [hphase] at hflying
    exact hflying
  have hstarts := client.start_cases format i
  generalize client.start format i = next at hstarts ⊢
  cases hstarts with
  | rejected error hbarred =>
      rcases hbarred with hdown | hbusy | ⟨message, herror⟩
      · rw [hcodec] at hdown
        cases hdown
      · rw [hfree] at hbusy
        cases hbusy
      · rw [hencoded] at herror
        cases herror
  | unserializable d payload' _ _ hencoded' hnone =>
      cases hencoded.symm.trans hencoded'
      rw [hrequest, hserialize] at hnone
      cases hnone
  | sending d payload' bytes' hopen _ hencoded' hserialize' =>
      cases hcodec.symm.trans hopen
      cases hencoded.symm.trans hencoded'
      rw [hrequest, hserialize] at hserialize'
      cases hserialize'
      have hcalls := begun_setPhase_calls client i c payload
        (.sending c client.nextRequestId (client.timeoutMs (client.calls i))
          (sendFrame .fromSocket bytes).1)
      have hself := (congrFun hcalls i).trans (Function.update_self _ _ _)
      rw [hawaiting.pristine]
      have hphase' : (((client.begun i c payload).sending i c client.nextRequestId
          (client.timeoutMs (client.calls i)) (sendFrame .fromSocket bytes)).calls i) = _ := hself
      have hconn : ((client.begun i c payload).sending i c client.nextRequestId
          (client.timeoutMs (client.calls i)) (sendFrame .fromSocket bytes)).conns c =
            (sendFrame .fromSocket bytes).2 := by
        rw [sending_conns]
      have hreads : ((client.begun i c payload).sending i c client.nextRequestId
          (client.timeoutMs (client.calls i)) (sendFrame .fromSocket bytes)).reads =
            client.reads := rfl
      have hcurrent : ((client.begun i c payload).sending i c client.nextRequestId
          (client.timeoutMs (client.calls i)) (sendFrame .fromSocket bytes)).codec = some c := hcodec
      generalize (client.begun i c payload).sending i c client.nextRequestId
        (client.timeoutMs (client.calls i)) (sendFrame .fromSocket bytes) = next at *
      have hsent := sendFrame_eq .fromSocket bytes
      refine ⟨.sending client.nextRequestId (client.timeoutMs (client.calls i))
        (sendFrame .fromSocket bytes).1 ?_ ⟨hcurrent, ?_, ?_, ?_⟩ ?_ ?_ ?_ ?_ ?_, ?_⟩
      · rw [hphase']
      · rw [hphase', hrequest]
      · rw [hphase']
      · rw [← hrequest]
        exact requestId_toNat htended.id_le payload
      · rw [hconn]
        exact .sendFrame rfl bytes
      · rw [hconn, hsent]
        rfl
      · rw [hconn, hsent]
        rfl
      · rw [hreads]
        exact hawaiting.unread
      · rw [hconn]
        refine came_of_puts hinverse hreply hparse (.sendFrame rfl bytes)
          (sendFrame_output_grows .fromSocket bytes) (by rw [hsent]) ⟨[], ?_⟩
        rw [fromSocket, EnvelopeFormat.Emitted.nil.envelopes_eq]
        exact .nil
      · apply remaining_lt_of_turns
        have hturns := sendFrame_turns_le .fromSocket bytes
        simp only [turnsLeft, hphase', hphase]
        omega

/-- The call whose request is written begins to receive. -/
theorem Course.receives {id timeoutMs : Nat} (hparse : format.parse bytes = .ok request)
    (hfits : bytes.length ≤ MAX_FRAME_SIZE) (hengaged : client.Engaged i c id request)
    (hphase : (client.calls i).phase = .sending c id timeoutMs (.settled (.ok ())))
    (houtput : (client.conns c).output = frameHeader.frame bytes)
    (hwaiters : (client.conns c).waiters = [])
    (hbuffer : (client.conns c).buffer = (client.conns c).received)
    (hunread : ∀ read ∈ client.reads, read.conn ≠ c)
    (hcame : ∃ rest, format.Emitted ((client.conns c).received ++ rest)
      ((format.envelopes (client.conns c).output).map reply)) :
    (client.receive i id timeoutMs).Course format decode reply i c request bytes ∧
      remaining n i c (client.receive i id timeoutMs) < remaining n i c client := by
  have henvelopes : format.envelopes (client.conns c).output = [request] := by
    rw [houtput]
    exact (EnvelopeFormat.Emitted.nil.append hfits hparse).envelopes_eq
  rw [henvelopes] at hcame
  have hconn := recvFrame_eq (client.conns c)
  have hreading := recvFrame_reading hwaiters
  rw [hbuffer] at hreading
  have hself : (client.receive i id timeoutMs).calls i =
      { client.calls i with phase := .receiving client.reads.length id timeoutMs } := by
    rw [receive_calls hengaged.codec_eq, Function.update_self]
  have hconns := receive_conns hengaged.codec_eq i id timeoutMs
  have hreads := receive_reads hengaged.codec_eq i id timeoutMs
  have hcodec : (client.receive i id timeoutMs).codec = some c :=
    (Calm.receive client i id timeoutMs).codec_eq.trans hengaged.codec_eq
  generalize client.receive i id timeoutMs = next at *
  refine ⟨.receiving client.reads.length id timeoutMs (recvFrame (client.conns c)).1 ?_
    ⟨hcodec, ?_, ?_, hengaged.id_eq⟩ ?_ ?_ ?_ ?_ ?_, ?_⟩
  · rw [hself]
  · rw [hself]
    exact hengaged.envelope_eq
  · rw [hself]
    exact hengaged.conn_eq
  · rw [hreads]
    exact List.getElem?_concat_length
  · -- no `recvFrame` was made on this connection before
    intro q read hread hconnection
    rw [hreads] at hread
    by_cases hq : q < client.reads.length
    · rw [List.getElem?_append_left hq] at hread
      exact absurd hconnection (hunread read (List.mem_of_getElem? hread))
    · have hlt := (List.getElem?_eq_some_iff.mp hread).1
      rw [List.length_append, List.length_singleton] at hlt
      omega
  · rw [hconns, hconn]
    exact houtput
  · rw [hconns, hconn]
    exact hcame
  · rw [hconns]
    have hreceived : (recvFrame (client.conns c)).2.received = (client.conns c).received := by
      rw [hconn]
    rw [hreceived]
    exact .inl hreading
  · apply remaining_lt_of_turns
    simp only [turnsLeft, hself, hphase]
    omega

/-- The call goes on sending, or begins to receive. -/
theorem Course.send {id timeoutMs : Nat} {send : FrameSend} (hinverse : format.Inverse)
    (hparse : format.parse bytes = .ok request) (hreply : Rpc.Sendable format (reply request))
    (hfits : bytes.length ≤ MAX_FRAME_SIZE) (htended : client.Tended format options)
    (hphase : (client.calls i).phase = .sending c id timeoutMs send)
    (hengaged : client.Engaged i c id request) (hputs : Puts (client.conns c) [] bytes send)
    (hwaiters : (client.conns c).waiters = [])
    (hbuffer : (client.conns c).buffer = (client.conns c).received)
    (hunread : ∀ read ∈ client.reads, read.conn ≠ c)
    (hcame : ∃ rest, format.Emitted ((client.conns c).received ++ rest)
      ((format.envelopes (client.conns c).output).map reply))
    (hstep : client.step format decode (.resume i) = some next) :
    next.Course format decode reply i c request bytes ∧
      remaining n i c next < remaining n i c client := by
  have hconnected := htended.connected hengaged.codec_eq
  cases resume_cases hstep with
  | starting hother | received _ _ _ _ _ hother | failing _ hother =>
      rw [hphase] at hother
      cases hother
  | unsent _ _ _ error hother =>
      rw [hphase] at hother
      cases hother
      cases hputs with
      | writing send _ hwriting => cases hwriting
      | refused hlarge => exact absurd hfits (Nat.not_le_of_lt hlarge)
  | sending _ _ _ _ result hother hresume =>
      rw [hphase] at hother
      cases hother
      obtain ⟨send', conn⟩ := result
      obtain ⟨hputs', -⟩ :=
        hputs.resume (htended.accepted c hengaged.codec_eq) hconnected hresume
      have hsame := FrameSend.resume_eq hresume
      have hgrows := resume_output_grows hresume
      have hself : (client.sending i c id timeoutMs (send', conn)).calls i =
          { client.calls i with phase := .sending c id timeoutMs send' } :=
        (client.setConn c conn).setPhase_self i _
      have hconn := client.sending_conns i c id timeoutMs (send', conn)
      refine ⟨.sending id timeoutMs send' ?_ ⟨hengaged.codec_eq, ?_, ?_, hengaged.id_eq⟩ ?_ ?_ ?_
        hunread ?_, ?_⟩
      · rw [hself]
      · rw [hself]
        exact hengaged.envelope_eq
      · rw [hself]
        exact hengaged.conn_eq
      · rw [hconn]
        exact hputs'
      · rw [hconn, hsame]
        exact hwaiters
      · rw [hconn, hsame]
        exact hbuffer
      · rw [hconn]
        exact came_of_puts hinverse hreply hparse hputs' hgrows (by rw [hsame]) hcame
      · apply remaining_lt_of_turns
        have hturns := FrameSend.turns_lt_of_resume hresume
        simp only [turnsLeft, hself, hphase]
        omega
  | receiving _ _ _ hother =>
      rw [hphase] at hother
      cases hother
      cases hputs with
      | writing send _ hwriting => cases hwriting
      | written _ houtput =>
          exact Course.receives hparse hfits hengaged hphase houtput hwaiters hbuffer hunread hcame

/-! ## The response -/

/-- The peer answers one request at most, with one frame. -/
theorem Course.response_length (hcourse : client.Course format decode reply i c request bytes)
    (hfits : bytes.length ≤ MAX_FRAME_SIZE) (hparse : format.parse bytes = .ok request)
    (hunanswered : ¬ client.Answered format decode reply i c request) {stream : List UInt8}
    (hemitted : format.Emitted stream ((format.envelopes (client.conns c).output).map reply)) :
    stream.length ≤ 4 + MAX_FRAME_SIZE := by
  have hone : (format.envelopes (client.conns c).output).length ≤ 1 := by
    have huntouched : client.Awaiting i c request →
        (format.envelopes (client.conns c).output).length ≤ 1 := by
      intro hawaiting
      rw [hawaiting.pristine, fromSocket, EnvelopeFormat.Emitted.nil.envelopes_eq]
      exact Nat.zero_le 1
    cases hcourse with
    | waiting hphase hawaiting | starting hphase hawaiting => exact huntouched hawaiting
    | sending id timeoutMs send hphase hengaged hputs =>
        exact (envelopes_of_puts hputs .nil fun _ => hparse).length_le
    | receiving r id timeoutMs frame hphase hengaged hread honly houtput =>
        have hemits := EnvelopeFormat.Emitted.nil.append hfits hparse
        rw [List.nil_append] at hemits
        rw [houtput, hemits.envelopes_eq]
        exact Nat.le_refl 1
    | ended hanswered => exact absurd hanswered hunanswered
  have hlength := hemitted.length_le
  rw [List.length_map] at hlength
  exact hlength.trans ((Nat.mul_le_mul_left _ hone).trans (Nat.le_of_eq (Nat.mul_one _)))

theorem Engaged.setConn {i c d id : Nat} {request : Envelope} {conn : UnixSocketConnection}
    (hengaged : client.Engaged i c id request) : (client.setConn d conn).Engaged i c id request :=
  ⟨hengaged.codec_eq, hengaged.envelope_eq, hengaged.conn_eq, hengaged.id_eq⟩

theorem Course.data {d : Nat} {chunk : List UInt8}
    (hcourse : client.Course format decode reply i c request bytes)
    (htended : client.Tended format options) (hfits : bytes.length ≤ MAX_FRAME_SIZE)
    (hparse : format.parse bytes = .ok request)
    (hunanswered : ¬ client.Answered format decode reply i c request)
    (hown : client.Own format reply n (.data d chunk))
    (hstep : client.step format decode (.data d chunk) = some next) :
    next.Course format decode reply i c request bytes ∧
      remaining n i c next < remaining n i c client := by
  obtain ⟨hcodec, hchunk, rest, hemitted⟩ := hown
  obtain rfl := hcourse.up hunanswered hcodec
  have hnext : next = client.setConn d ((client.conns d).onData chunk) := by
    simp only [step] at hstep
    split at hstep
    · exact (Option.some_inj.mp hstep).symm
    · cases hstep
  have hconn : next.conns d = (client.conns d).onData chunk := by
    rw [hnext]
    exact client.setConn_conns d _
  have hsame := onData_eq (client.conns d) chunk
  have houtput : (next.conns d).output = (client.conns d).output := by rw [hconn, hsame]
  have hreceived : (next.conns d).received = (client.conns d).received ++ chunk := by
    rw [hconn, hsame]
  have hsends : (next.conns d).sends = (client.conns d).sends := by rw [hconn, hsame]
  have hcame : ∃ rest, format.Emitted ((next.conns d).received ++ rest)
      ((format.envelopes (next.conns d).output).map reply) := by
    rw [houtput, hreceived]
    exact ⟨rest, hemitted⟩
  have hengages : ∀ {id}, client.Engaged i d id request → next.Engaged i d id request := by
    rw [hnext]
    exact Engaged.setConn
  have hreads : next.reads = client.reads := by rw [hnext]; rfl
  have hcalls : next.calls = client.calls := by rw [hnext]; rfl
  refine ⟨?_, ?_⟩
  · -- nothing comes before the request has been written
    have huntouched : ¬ client.Awaiting i d request := by
      intro hawaiting
      rw [hawaiting.pristine, fromSocket, EnvelopeFormat.Emitted.nil.envelopes_eq] at hemitted
      have hlength := hemitted.length_le
      simp only [List.map_nil, List.length_nil, List.length_append] at hlength
      exact hchunk (List.eq_nil_of_length_eq_zero (by omega))
    cases hcourse with
    | waiting hphase hawaiting | starting hphase hawaiting => exact absurd hawaiting huntouched
    | ended hanswered => exact absurd hanswered hunanswered
    | sending id timeoutMs send hphase hengaged hputs hwaiters hbuffer hunread _ =>
        have hfree := onData_of_no_waiters hwaiters chunk
        refine .sending id timeoutMs send (by rwa [hcalls]) (hengages hengaged) ?_ ?_ ?_
          (by rwa [hreads]) hcame
        · exact hputs.congr (congrArg List.length hsends) houtput
        · rw [hconn, hfree]
          exact hwaiters
        · rw [hconn, hfree]
          dsimp only
          rw [hbuffer]
    | receiving r id timeoutMs frame hphase hengaged hread honly hwritten _ hframe =>
        have hemits := EnvelopeFormat.Emitted.nil.append hfits hparse
        rw [List.nil_append] at hemits
        rw [hwritten, hemits.envelopes_eq] at hemitted
        refine .receiving r id timeoutMs frame (by rwa [hcalls]) (hengages hengaged)
          (by rwa [hreads]) (by rwa [hreads]) (houtput.trans hwritten) ⟨rest, by rwa [hreceived]⟩ ?_
        rcases hframe with hreading | hsettled
        · left
          rw [hreceived, hconn]
          exact hreading.onData (htended.connected hcodec) chunk
        · exact .inr hsettled
  · apply remaining_lt_of_work hcalls
    · rw [hnext]
      rfl
    · rw [hnext]
      rfl
    · have hroom := hcourse.response_length hfits hparse hunanswered hemitted
      have hpositive := List.length_pos_of_ne_nil hchunk
      have hpendings : pendings (next.conns d) = pendings (client.conns d) := by
        rw [pendings, hsends, pendings]
      unfold workLeft
      rw [hpendings, hreads, hreceived]
      rw [List.length_append, List.length_append] at hroom
      rw [List.length_append]
      omega

theorem Course.written {d send : Nat} {failure : Option (String × Option String)}
    (hcourse : client.Course format decode reply i c request bytes)
    (hunanswered : ¬ client.Answered format decode reply i c request)
    (hown : client.Own format reply n (.written d send failure))
    (hstep : client.step format decode (.written d send failure) = some next) :
    next.Course format decode reply i c request bytes ∧
      remaining n i c next < remaining n i c client := by
  obtain ⟨hcodec, rfl⟩ := hown
  obtain rfl := hcourse.up hunanswered hcodec
  have hnext : (client.conns d).sends[send]? = some .pending ∧
      next = client.setConn d ((client.conns d).onWritten send none) := by
    simp only [step] at hstep
    split at hstep
    next hopen => exact ⟨hopen.2, (Option.some_inj.mp hstep).symm⟩
    · cases hstep
  obtain ⟨hpending, hnext⟩ := hnext
  have hconn : next.conns d = { client.conns d with sends := (next.conns d).sends } := by
    rw [hnext, setConn_conns]
    rfl
  have hlength : (next.conns d).sends.length = (client.conns d).sends.length := by
    rw [hnext, setConn_conns]
    exact List.length_modify _ _ _
  have hengages : ∀ {id}, client.Engaged i d id request → next.Engaged i d id request := by
    rw [hnext]
    exact Engaged.setConn
  have hreads : next.reads = client.reads := by rw [hnext]; rfl
  have hcalls : next.calls = client.calls := by rw [hnext]; rfl
  refine ⟨?_, ?_⟩
  · have huntouched : ¬ client.Awaiting i d request := by
      intro hawaiting
      rw [hawaiting.pristine] at hpending
      cases hpending
    cases hcourse with
    | waiting hphase hawaiting | starting hphase hawaiting => exact absurd hawaiting huntouched
    | ended hanswered => exact absurd hanswered hunanswered
    | sending id timeoutMs send hphase hengaged hputs hwaiters hbuffer hunread hcame =>
        refine .sending id timeoutMs send (by rwa [hcalls]) (hengages hengaged)
          (hputs.congr hlength (by rw [hconn])) ?_ ?_ (by rwa [hreads]) ?_
        all_goals rwa [hconn]
    | receiving r id timeoutMs frame hphase hengaged hread honly houtput hcame hframe =>
        refine .receiving r id timeoutMs frame (by rwa [hcalls]) (hengages hengaged)
          (by rwa [hreads]) (by rwa [hreads]) (by rwa [hconn]) (by rwa [hconn]) ?_
        rcases hframe with hreading | hsettled
        · left
          rw [hconn]
          exact hreading.congr rfl rfl rfl rfl
        · exact .inr hsettled
  · apply remaining_lt_of_work hcalls
    · rw [hnext]
      rfl
    · rw [hnext]
      rfl
    · have hfalls := pendings_onWritten hpending
      have hreceived : (next.conns d).received = (client.conns d).received := by rw [hconn]
      unfold workLeft
      rw [hreceived, hreads, hnext, setConn_conns]
      omega

/-- The call's own `recvFrame` goes on, or one on another connection. -/
theorem Course.read {r : Nat} (hcourse : client.Course format decode reply i c request bytes)
    (htended : client.Tended format options)
    (hunanswered : ¬ client.Answered format decode reply i c request)
    (hstep : client.step format decode (.read r) = some next) :
    next.Course format decode reply i c request bytes ∧
      remaining n i c next < remaining n i c client := by
  obtain ⟨read, frame, conn, hread, hresume, hnext⟩ := read_eq hstep
  by_cases hother : read.conn ≠ c
  · exact hcourse.readElsewhere hread hresume hother hnext
  · rw [not_not] at hother
    subst hother
    have hnone : (∀ other ∈ client.reads, other.conn ≠ read.conn) → False :=
      fun hunread => hunread read (List.mem_of_getElem? hread) rfl
    cases hcourse with
    | waiting hphase hawaiting | starting hphase hawaiting => exact (hnone hawaiting.unread).elim
    | sending _ _ _ _ _ _ _ _ hunread => exact (hnone hunread).elim
    | ended hanswered => exact absurd hanswered hunanswered
    | receiving own id timeoutMs old hphase hengaged hown honly houtput hcame hframe =>
        obtain rfl := honly r read hread rfl
        rw [hread] at hown
        obtain ⟨reader, d, before⟩ := read
        cases hown
        dsimp only at *
        rcases hframe with hreading | ⟨payload, rfl, -⟩
        · obtain ⟨hresumed, hsame⟩ := hreading.resume hresume
          have hconn : next.conns d = conn := by
            rw [hnext]
            exact client.setConn_conns d conn
          have hreads : next.reads = client.reads.set r ⟨i, d, frame⟩ := by rw [hnext]
          have hcalls : next.calls = client.calls := by rw [hnext]; rfl
          have hcodec : next.codec = client.codec := by rw [hnext]; rfl
          have hloops : next.loops = client.loops := by rw [hnext]; rfl
          have hreceived : conn.received = (client.conns d).received := by rw [hsame]
          refine ⟨.receiving r id timeoutMs frame (by rwa [hcalls])
            ⟨hcodec.trans hengaged.codec_eq, ?_, ?_, hengaged.id_eq⟩ ?_ ?_ ?_ ?_ ?_, ?_⟩
          · rw [hcalls]
            exact hengaged.envelope_eq
          · rw [hcalls]
            exact hengaged.conn_eq
          · rw [hreads]
            exact List.getElem?_set_self (List.getElem?_eq_some_iff.mp hread).1
          · intro q other hq hconnection
            by_contra hne
            rw [hreads, List.getElem?_set_ne fun h => hne h.symm] at hq
            exact hne (honly q other hq hconnection)
          · rw [hconn, hsame]
            exact houtput
          · rw [hconn, hreceived]
            exact hcame
          · rw [hconn, hreceived]
            obtain ⟨rest, hemitted⟩ := hcame
            cases hresumed with
            | reading recv hbody => exact .inl hbody
            | frame payload hwaiters hscan =>
                obtain ⟨hfront, hfits⟩ := frameHeader.eq_of_scan_frame hscan
                rw [hfront, List.append_assoc] at hemitted
                exact .inr ⟨payload, rfl, (hemitted.single hfits).1⟩
            | refused error hwaiters hrefused =>
                cases hrefused with
                | oversized hscan =>
                    apply absurd _ hemitted.not_oversized
                    rw [frameHeader.parse_of_stuck hscan]
                | closed hscan hclosed =>
                    have hconnected := htended.connected hengaged.codec_eq
                    rw [hsame] at hclosed
                    rw [hclosed] at hconnected
                    cases hconnected
          · apply remaining_lt_of_work hcalls hcodec hloops
            have hturns := sum_turns_lt hread hresume
            dsimp only at hturns
            have hpendings : pendings conn = pendings (client.conns d) := by
              rw [hsame, pendings, pendings]
            unfold workLeft
            rw [hconn, hpendings, hreceived, hreads]
            omega
        · cases hresume

/-- The call goes on from what it awaits. -/
theorem Course.resume {j : Nat} (hcourse : client.Course format decode reply i c request bytes)
    (htended : client.Tended format options) (hinverse : format.Inverse)
    (hserialize : format.serialize request = some bytes)
    (hparse : format.parse bytes = .ok request) (hfits : bytes.length ≤ MAX_FRAME_SIZE)
    (hreply : Rpc.Sendable format (reply request))
    (hunanswered : ¬ client.Answered format decode reply i c request)
    (hstep : client.step format decode (.resume j) = some next) :
    next.Course format decode reply i c request bytes ∧
      remaining n i c next < remaining n i c client := by
  have hresumed : (client.calls j).phase.UnderWay := by
    cases resume_cases hstep with
    | starting hphase | receiving _ _ _ hphase | unsent _ _ _ _ hphase | sending _ _ _ _ _ hphase
    | received _ _ _ _ _ hphase | failing _ hphase =>
        rw [hphase]
        trivial
  obtain rfl : j = i := htended.single j i hresumed (hcourse.underWay hunanswered)
  cases hcourse with
  | ended hanswered => exact absurd hanswered hunanswered
  | waiting hphase =>
      simp only [step, Client.resume, hphase] at hstep
      cases hstep
  | starting hphase hawaiting hcodec =>
      simp only [step, Client.resume, hphase] at hstep
      cases hstep
      exact Course.start hawaiting htended hinverse hserialize hparse hreply hphase hcodec
  | sending id timeoutMs send hphase hengaged hputs hwaiters hbuffer hunread hcame =>
      exact Course.send hinverse hparse hreply hfits htended hphase hengaged hputs hwaiters hbuffer
        hunread hcame hstep
  | receiving r id timeoutMs frame hphase hengaged hread honly houtput hcame hframe =>
      cases resume_cases hstep with
      | starting hother | receiving _ _ _ hother | unsent _ _ _ _ hother
      | sending _ _ _ _ _ hother | failing _ hother =>
          rw [hphase] at hother
          cases hother
      | received _ _ _ other result hother hread' hsettled =>
          rw [hphase] at hother
          cases hother
          rw [hread] at hread'
          cases hread'
          dsimp only at hsettled
          rcases hframe with hreading | ⟨payload, hpayload, hanswer⟩
          · rw [hsettled] at hreading
            cases hreading
          · rw [hsettled] at hpayload
            cases hpayload
            have hself : (client.finish j (received format decode j id (.ok payload))).calls j =
                { client.calls j with
                  phase := .settled (received format decode j id (.ok payload)) } :=
              client.setPhase_self j _
            have hresult : received format decode j id (.ok payload) =
                respond id (decode j) (reply request) := by
              unfold received
              dsimp only
              rw [hanswer]
            have hemits := EnvelopeFormat.Emitted.nil.append hfits hparse
            rw [List.nil_append] at hemits
            refine ⟨.ended ⟨?_, ?_, ?_, ?_⟩, remaining_lt_of_turns ?_⟩
            · rw [hself, hresult, hengaged.id_eq]
            · rw [hself]
              exact hengaged.envelope_eq
            · rw [hself]
              exact hengaged.conn_eq
            · change request ∈ format.envelopes (client.conns c).output
              rw [houtput, hemits.envelopes_eq]
              exact List.mem_singleton_self request
            · simp only [turnsLeft, hself, hphase]
              exact Nat.zero_lt_one

/-- Whatever the client or the peer does next, the call gets closer to its response. -/
theorem Course.step (hcourse : client.Course format decode reply i c request bytes)
    (htended : client.Tended format options) (hinverse : format.Inverse)
    (hallows : options.allows n = true) (hserialize : format.serialize request = some bytes)
    (hparse : format.parse bytes = .ok request) (hfits : bytes.length ≤ MAX_FRAME_SIZE)
    (hreply : Rpc.Sendable format (reply request))
    (hunanswered : ¬ client.Answered format decode reply i c request)
    (hown : client.Own format reply n event)
    (hstep : client.step format decode event = some next) :
    next.Course format decode reply i c request bytes ∧
      remaining n i c next < remaining n i c client := by
  cases event with
  | connected | connectFailed | sleepOver =>
      exact hcourse.connecting htended hallows hunanswered hown trivial hstep
  | data d chunk => exact hcourse.data htended hfits hparse hunanswered hown hstep
  | written d send failure => exact hcourse.written hunanswered hown hstep
  | poll j => exact hcourse.poll htended hunanswered hown hstep
  | resume j =>
      exact hcourse.resume htended hinverse hserialize hparse hfits hreply hunanswered hstep
  | read r => exact hcourse.read htended hunanswered hstep
  | connect | disconnect | call | close | error | timeout => cases hown

/-! ## Progress -/

/-- As long as the call has no response, the client or the peer can do something. -/
theorem Course.goes_on (hcourse : client.Course format decode reply i c request bytes)
    (htended : client.Tended format options) (hfits : bytes.length ≤ MAX_FRAME_SIZE)
    (hparse : format.parse bytes = .ok request)
    (hunanswered : ¬ client.Answered format decode reply i c request) :
    ∃ event next, client.Own format reply n event ∧
      client.step format decode event = some next := by
  cases hcourse with
  | ended hanswered => exact absurd hanswered hunanswered
  | starting hphase hawaiting hcodec =>
      refine ⟨.resume i, client.start format i, trivial, ?_⟩
      simp only [Client.step, Client.resume, hphase]
  | waiting hphase hawaiting hwhere =>
      rcases hwhere with ⟨hnone, -⟩ | hsome
      · have hfaring := htended.faring i
        rw [hphase] at hfaring
        cases hfaring with
        | waiting envelope hopened =>
            cases htended.connectivity with
            | unopened _ hzero => omega
            | up current hcodec =>
                rw [hnone] at hcodec
                cases hcodec
            | down l _ _ _ _ hrecovering =>
                cases hrecovering with
                | sleeping attempt delay hloop =>
                    exact ⟨.sleepOver l, _, trivial, sleepOver_of_sleeping hnone hloop⟩
                | connecting attempt k hloop _ hk =>
                    have hconnects : ∃ next, client.connected k false = some next := by
                      unfold Client.connected
                      rw [hk]
                      exact ⟨_, rfl⟩
                    obtain ⟨next, hnext⟩ := hconnects
                    exact ⟨.connected k false, next, rfl, hnext⟩
      · have hconnected : client.isConnected = true := by
          rw [isConnected, hsome]
          rfl
        refine ⟨.poll i, client.setPhase i .starting, hconnected, ?_⟩
        simp only [Client.step, Client.poll, hphase]
        exact if_pos hconnected
  | sending id timeoutMs send hphase hengaged hputs hwaiters hbuffer hunread hcame =>
      cases hputs with
      | refused hlarge => exact absurd hfits (Nat.not_le_of_lt hlarge)
      | written _ houtput =>
          refine ⟨.resume i, client.receive i id timeoutMs, trivial, ?_⟩
          simp only [Client.step, Client.resume, hphase]
      | writing send _ hwriting =>
          cases hresume : send.resume (client.conns c) with
          | some result =>
              refine ⟨.resume i, client.sending i c id timeoutMs result, trivial, ?_⟩
              cases hwriting <;> simp [Client.step, Client.resume, hphase, hresume]
          | none =>
              obtain ⟨ticket, hpending⟩ :=
                hwriting.of_resume_eq_none (htended.accepted c hengaged.codec_eq) hresume
              have hopened := (htended.grounded.live.codec c hengaged.codec_eq).1
              exact ⟨.written c ticket none, _, ⟨hengaged.codec_eq, rfl⟩,
                if_pos ⟨hopened, hpending⟩⟩
  | receiving r id timeoutMs frame hphase hengaged hread honly houtput hcame hframe =>
      rcases hframe with hreading | ⟨payload, rfl, -⟩
      · cases hresume : frame.resume (client.conns c) with
        | some result =>
            have hreads : (client.read r).isSome = true := by
              simp only [Client.read, hread, hresume, Option.map_some, Option.isSome_some]
            obtain ⟨next, hnext⟩ := Option.isSome_iff_exists.mp hreads
            exact ⟨.read r, next, trivial, hnext⟩
        | none =>
            -- the frame is not complete, so some of the response has yet to come
            obtain ⟨-, hscan⟩ := hreading.of_resume_eq_none hresume
            obtain ⟨rest, hemitted⟩ := hcame
            have hrest : rest ≠ [] := by
              rintro rfl
              rw [List.append_nil] at hemitted
              have hcount := @EnvelopeFormat.Emitted.length_eq_of_stuck format [] _
                (client.conns c).received _ frameHeader.fits_nil hscan hemitted
              cases hcount
            have hemits := EnvelopeFormat.Emitted.nil.append hfits hparse
            rw [List.nil_append] at hemits
            have hanswers : format.Emitted ((client.conns c).received ++ rest ++ [])
                ((format.envelopes (client.conns c).output).map reply) := by
              rw [List.append_nil, houtput, hemits.envelopes_eq]
              exact hemitted
            exact ⟨.data c rest, _, ⟨hengaged.codec_eq, hrest, [], hanswers⟩,
              if_pos (htended.grounded.live.codec c hengaged.codec_eq)⟩
      · exact ⟨.resume i, _, trivial, step_received hphase hread⟩

/-- A call that waits while the connection is down gets its response on the next one. -/
theorem Tended.inevitable {payload : List UInt8} (htended : client.Tended format options)
    (hinverse : format.Inverse) (hallows : options.allows n = true)
    (hphase : (client.calls i).phase = .waiting) (hdown : client.codec = none)
    (hencoded : (client.calls i).encoded = .ok payload)
    (hrequest : requestEnvelope (client.calls i) client.nextRequestId payload = request)
    (hsendable : Rpc.Sendable format request) (hreply : Rpc.Sendable format (reply request)) :
    Inevitable (Client.step format decode) (Own format reply n)
      (fun last => last.Answered format decode reply i client.opened request) client := by
  obtain ⟨bytes, hserialize, hfits, hparse⟩ := hsendable.parses hinverse
  have hcourse : client.Course format decode reply i client.opened request bytes := by
    refine .waiting hphase ⟨?_, ?_, payload, hencoded, hrequest⟩ (.inl ⟨hdown, rfl⟩)
    · exact htended.pristine client.opened (Nat.le_refl _)
    · exact fun read hmem => Nat.ne_of_lt (htended.grounded.opened read hmem)
  refine inevitable_of_rank (fun state : Client Value => state.Tended format options ∧
    state.Course format decode reply i client.opened request bytes)
    (remaining n i client.opened) ?_ ?_ ⟨htended, hcourse⟩
  · rintro state event next ⟨htended, hcourse⟩ hunanswered hown hstep
    obtain ⟨hnext, hfalls⟩ := hcourse.step htended hinverse hallows hserialize hparse hfits hreply
      hunanswered hown hstep
    have hkept := htended.step (hown.foreseen hallows) hown.losesBetween hstep
    exact ⟨⟨hkept.1, hnext⟩, hfalls⟩
  · rintro state ⟨htended, hcourse⟩ hunanswered
    exact hcourse.goes_on htended hfits hparse hunanswered

theorem Tended.restores (htended : client.Tended format options) (hinverse : format.Inverse) :
    client.Restores format decode options := by
  intro reply n i payload request hallows hphase hdown hencoded hrequest hsendable hreply
  exact htended.inevitable hinverse hallows hphase hdown hencoded hrequest hsendable hreply

end Client

end Ibridger.Js
