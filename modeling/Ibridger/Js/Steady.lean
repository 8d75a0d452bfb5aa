import Ibridger.Foundation.Progress
import Ibridger.Js.EmptyFrames

/-! # Calls that wait for their responses

A client on one connection whose calls are made one by one and never run out of
time. A call that has got its response leaves no `recvFrame` behind, so every
call joins in order.
-/

namespace Ibridger.Js

open LengthPrefix Transition UnixSocketConnection Wire

/-- The call has its place on the connection, and no timer has ended it. -/
def CallPhase.Smooth {Value : Type} : CallPhase Value → Prop
  | .idle | .sending _ _ _ _ | .receiving _ _ _ => True
  | .waiting | .starting | .failing _ => False
  | .settled result => ∀ timeoutMs, result ≠ .error (timedOut timeoutMs)

def FrameRead.IsSettled (read : FrameRead) : Prop :=
  ∃ result, read = .settled result

namespace Client

variable {Value : Type} (format : EnvelopeFormat)
  (decode : Nat → List UInt8 → Except String Value) (fine : Nat → Envelope → Prop)

/-- A call is made when none is in flight, with a request that is fine, and
nothing disturbs the calls. -/
def OneByOne (client : Client Value) : ClientEvent → Prop
  | .call i service method encoded options => client.callInFlight = false ∧
      ∃ payload, encoded = .ok payload ∧
        fine i (requestEnvelope ((client.called i service method encoded options).calls i)
          client.nextRequestId payload)
  | .timeout _ => False
  | event => event.Undisturbed

/-- The calls have got to where they are without a timer, each with a request
that is fine. Only the call in flight reads, and only their requests are written. -/
structure Steady (client : Client Value) : Prop where
  smooth : ∀ i, (client.calls i).phase.Smooth
  fine : ∀ i, (client.calls i).phase ≠ .idle →
    ∃ request, (client.calls i).envelope = some request ∧ fine i request
  reads : ∀ (r : Nat) read, client.reads[r]? = some read → read.frame.IsSettled ∨
    ∃ i id timeoutMs, (client.calls i).phase = .receiving r id timeoutMs
  sent : ∀ request ∈ format.envelopes (client.conns 0).output,
    ∃ i, (client.calls i).envelope = some request

variable {format decode fine} {client next : Client Value} {frames : List (List UInt8)}
  {front : List UInt8} {requests : List Envelope}

/-- What is being written carries no more than the request behind the others. -/
theorem envelopes_of_puts {conn : UnixSocketConnection} {before bytes : List UInt8}
    {send : FrameSend} {request : Envelope} (hputs : Puts conn before bytes send)
    (hbefore : format.Emitted before requests)
    (hparse : bytes.length ≤ MAX_FRAME_SIZE → format.parse bytes = .ok request) :
    format.envelopes conn.output <+: requests ++ [request] := by
  have hframe : bytes.length ≤ MAX_FRAME_SIZE →
      format.envelopes (before ++ frameHeader.frame bytes) = requests ++ [request] :=
    fun hfits => (hbefore.append hfits (hparse hfits)).envelopes_eq
  cases hputs with
  | refused hlarge houtput =>
      rw [houtput, hbefore.envelopes_eq]
      exact List.prefix_append _ _
  | written hfits houtput =>
      rw [houtput]
      exact hframe hfits ▸ List.prefix_refl _
  | writing send hfits hwriting =>
      cases hwriting with
      | body ticket hsend houtput =>
          rw [houtput]
          exact hframe hfits ▸ List.prefix_refl _
      | header ticket hsend houtput =>
          rw [houtput, ← hframe hfits, frameHeader_frame, ← List.append_assoc]
          exact EnvelopeFormat.envelopes_prefix _ _

theorem OneByOne.undisturbed {event : ClientEvent} (hone : client.OneByOne fine event) :
    event.Undisturbed := by
  cases event with
  | timeout => cases hone
  | call | data | poll | resume | read => trivial
  | connect | disconnect | connected | connectFailed | close | error | written | sleepOver =>
      exact hone

namespace Steady

/-- The calls stay where they are. -/
theorem congr (hsteady : client.Steady format fine) (hcalls : next.calls = client.calls)
    (hreads : ∀ (r : Nat) read, next.reads[r]? = some read → read.frame.IsSettled ∨
      ∃ before, client.reads[r]? = some before ∧ ¬ before.frame.IsSettled)
    (houtput : (next.conns 0).output = (client.conns 0).output) : next.Steady format fine := by
  refine ⟨?_, ?_, ?_, ?_⟩
  · rw [hcalls]
    exact hsteady.smooth
  · rw [hcalls]
    exact hsteady.fine
  · rw [hcalls]
    intro r read hread
    rcases hreads r read hread with hsettled | ⟨before, hbefore, hunsettled⟩
    · exact .inl hsettled
    · exact .inr ((hsteady.reads r before hbefore).resolve_left hunsettled)
  · rw [hcalls, houtput]
    exact hsteady.sent

/-- A call moves on. -/
theorem update {i : Nat} {call : Call Value} {request : Envelope}
    (hsteady : client.Steady format fine)
    (hcalls : next.calls = Function.update client.calls i call) (hsmooth : call.phase.Smooth)
    (henvelope : call.envelope = some request) (hfine : fine i request)
    (hkept : ∀ other, (client.calls i).envelope = some other → other = request)
    (hreads : ∀ (r : Nat) read, next.reads[r]? = some read → read.frame.IsSettled ∨
      ∃ id timeoutMs, call.phase = .receiving r id timeoutMs)
    (hsent : ∀ other ∈ format.envelopes (next.conns 0).output,
      other ∈ format.envelopes (client.conns 0).output ∨ other = request) :
    next.Steady format fine := by
  have hself : next.calls i = call := (congrFun hcalls i).trans (Function.update_self _ _ _)
  have hothers : ∀ j, j ≠ i → next.calls j = client.calls j :=
    fun j hj => (congrFun hcalls j).trans (Function.update_of_ne hj _ _)
  refine ⟨?_, ?_, ?_, ?_⟩
  · intro j
    by_cases hj : j = i
    · rwa [hj, hself]
    · rw [hothers j hj]
      exact hsteady.smooth j
  · intro j hbusy
    by_cases hj : j = i
    · subst hj
      rw [hself]
      exact ⟨request, henvelope, hfine⟩
    · rw [hothers j hj] at hbusy ⊢
      exact hsteady.fine j hbusy
  · intro r read hread
    rcases hreads r read hread with hsettled | ⟨id, timeoutMs, hphase⟩
    · exact .inl hsettled
    · exact .inr ⟨i, id, timeoutMs, by rw [hself, hphase]⟩
  · intro other hother
    rcases hsent other hother with hold | rfl
    · obtain ⟨j, hj⟩ := hsteady.sent other hold
      by_cases hsame : j = i
      · subst hsame
        rw [hkept other hj]
        exact ⟨j, by rw [hself, henvelope]⟩
      · exact ⟨j, by rw [hothers j hsame, hj]⟩
    · exact ⟨i, by rw [hself, henvelope]⟩

/-- While no call receives, nothing is being read. -/
theorem reads_settled (hsteady : client.Steady format fine)
    (hnone : ∀ i r id timeoutMs, (client.calls i).phase ≠ .receiving r id timeoutMs) {r : Nat}
    {read : Read} (hread : client.reads[r]? = some read) : read.frame.IsSettled := by
  rcases hsteady.reads r read hread with hsettled | ⟨i, id, timeoutMs, hphase⟩
  · exact hsettled
  · exact absurd hphase (hnone i r id timeoutMs)

theorem not_receiving_of_idle (hidle : ∀ i, ¬ (client.calls i).phase.InFlight) (i r id timeoutMs : Nat) :
    (client.calls i).phase ≠ .receiving r id timeoutMs := by
  intro hphase
  apply hidle i
  rw [hphase]
  trivial

/-- The call in flight that sends is not the one that receives. -/
theorem not_receiving_of_sending {i c id timeoutMs : Nat} {send : FrameSend}
    (hbusy : client.Busy i) (hphase : (client.calls i).phase = .sending c id timeoutMs send)
    (j r id' timeoutMs' : Nat) : (client.calls j).phase ≠ .receiving r id' timeoutMs' := by
  intro hother
  obtain rfl : j = i := by
    apply hbusy.eq
    rw [hother]
    trivial
  rw [hphase] at hother
  cases hother

end Steady

/-- When everything is read, nobody waits for bytes. -/
theorem Sequenced.waiters_nil (hseq : client.Sequenced format decode frames front requests)
    (hsettled : ∀ (r : Nat) read, client.reads[r]? = some read → read.frame.IsSettled) :
    (client.conns 0).waiters = [] ∧ client.reads.length = frames.length := by
  have hlacking := hseq.line.lined.lacking
  have hlength := hseq.line.lined.length_le
  rw [List.length_map] at hlength
  by_cases hlacks : frames.length < client.reads.length
  · obtain ⟨result, hresult⟩ := hsettled _ _ (List.getElem?_eq_getElem hlacks)
    refine absurd ?_ (hlacking.not_settled result)
    rw [← List.map_drop, ← hresult]
    apply List.mem_map_of_mem
    rw [List.drop_eq_getElem_cons hlacks]
    exact List.mem_cons_self
  · have hall := Nat.le_antisymm (Nat.le_of_not_lt hlacks) hlength
    rw [List.drop_of_length_le (by rw [List.length_map, hall])] at hlacking
    cases hlacking with
    | idle hwaiters hfront => exact ⟨hwaiters, hall⟩

/-- Every request that is written is one of a call, and fine. -/
theorem Steady.fine_of_mem (hsteady : client.Steady format fine)
    (hseq : client.Sequenced format decode frames front requests) {request : Envelope}
    (hmem : request ∈ format.envelopes (client.conns 0).output) : ∃ i, fine i request := by
  obtain ⟨i, henvelope⟩ := hsteady.sent request hmem
  have hmade : (client.calls i).phase ≠ .idle := by
    intro hidle
    rw [hseq.early i (by rw [hidle]; trivial)] at henvelope
    cases henvelope
  obtain ⟨other, hother, hfine⟩ := hsteady.fine i hmade
  rw [henvelope] at hother
  cases hother
  exact ⟨i, hfine⟩

theorem Steady.joinsInOrder {event : ClientEvent} (hsteady : client.Steady format fine)
    (hseq : client.Sequenced format decode frames front requests) : client.JoinsInOrder event := by
  cases event with
  | resume i =>
      intro c id timeoutMs hphase
      obtain ⟨rfl, hbusy, -⟩ := hseq.of_sending hphase
      have hsettled : ∀ (r : Nat) read, client.reads[r]? = some read → read.frame.IsSettled :=
        fun r read => hsteady.reads_settled (not_receiving_of_sending hbusy hphase)
      refine ⟨?_, .inl (hseq.waiters_nil hsettled).1⟩
      intro recv hmem
      obtain ⟨read, hread, hheader⟩ := List.mem_map.mp hmem
      obtain ⟨r, hr⟩ := List.mem_iff_getElem?.mp hread
      obtain ⟨result, hresult⟩ := hsettled r read hr
      rw [hresult] at hheader
      cases hheader
  | connect | disconnect | call | connected | connectFailed | data | close | error | written
  | sleepOver | poll | timeout | read => trivial

/-! ## Steps -/

variable (format decode fine) in
/-- What a step of a steady client does. -/
inductive Proceeds (client : Client Value) : ClientEvent → Client Value → Prop where
  | called (i : Nat) (service method : String) (payload bytes : List UInt8) (options : CallOptions)
      (request : Envelope) (hphase : (client.calls i).phase = .idle)
      (hfree : client.callInFlight = false)
      (hrequest : requestEnvelope ((client.called i service method (.ok payload) options).calls i)
        client.nextRequestId payload = request)
      (hfine : fine i request) (hparse : format.parse bytes = .ok request) :
      Proceeds client (.call i service method (.ok payload) options)
        (((client.called i service method (.ok payload) options).begun i 0 payload).sending i 0
          client.nextRequestId
          (client.timeoutMs ((client.called i service method (.ok payload) options).calls i))
          (sendFrame (client.conns 0) bytes))
  | data (chunk : List UInt8) :
      Proceeds client (.data 0 chunk) (client.setConn 0 ((client.conns 0).onData chunk))
  | written (send : Nat) (hpending : (client.conns 0).sends[send]? = some .pending) :
      Proceeds client (.written 0 send none)
        (client.setConn 0 ((client.conns 0).onWritten send none))
  | read (r : Nat) (read : Read) (frame : FrameRead) (conn : UnixSocketConnection)
      (hread : client.reads[r]? = some read)
      (hresume : read.frame.resume (client.conns 0) = some (frame, conn)) :
      Proceeds client (.read r)
        { client.setConn 0 conn with reads := client.reads.set r { read with frame := frame } }
  | sending (i id timeoutMs : Nat) (send send' : FrameSend) (conn : UnixSocketConnection)
      (hphase : (client.calls i).phase = .sending 0 id timeoutMs send)
      (hresume : send.resume (client.conns 0) = some (send', conn)) :
      Proceeds client (.resume i) (client.sending i 0 id timeoutMs (send', conn))
  | receiving (i id timeoutMs : Nat)
      (hphase : (client.calls i).phase = .sending 0 id timeoutMs (.settled (.ok ()))) :
      Proceeds client (.resume i)
        { (client.setConn 0 (recvFrame (client.conns 0)).2).setPhase i
            (.receiving client.reads.length id timeoutMs) with
          reads := client.reads ++ [⟨i, 0, (recvFrame (client.conns 0)).1⟩] }
  | received (i r id timeoutMs : Nat) (read : Read) (result : Except TransportError (List UInt8))
      (hphase : (client.calls i).phase = .receiving r id timeoutMs)
      (hread : client.reads[r]? = some read) (hsettled : read.frame = .settled result) :
      Proceeds client (.resume i) (client.finish i (received format decode i id result))

theorem Steady.resume_cases {i : Nat}
    (hsendable : ∀ i request, fine i request → Rpc.Sendable format request)
    (hseq : client.Sequenced format decode frames front requests)
    (hsteady : client.Steady format fine)
    (hstep : client.step format decode (.resume i) = some next) :
    client.Proceeds format decode fine (.resume i) next := by
  have hsmooth := hsteady.smooth i
  cases Client.resume_cases hstep with
  | starting hphase =>
      rw [hphase] at hsmooth
      cases hsmooth
  | failing error hphase =>
      rw [hphase] at hsmooth
      cases hsmooth
  | receiving c id timeoutMs hphase =>
      obtain ⟨rfl, -⟩ := hseq.of_sending hphase
      rw [receive_eq hseq.codec_eq]
      exact .receiving i id timeoutMs hphase
  | sending c id timeoutMs send result hphase hresume =>
      obtain ⟨rfl, -⟩ := hseq.of_sending hphase
      exact .sending i id timeoutMs send result.1 result.2 hphase hresume
  | received r id timeoutMs read result hphase hread hsettled =>
      exact .received i r id timeoutMs read result hphase hread hsettled
  | unsent c id timeoutMs error hphase =>
      -- only a request that is too large is not sent
      obtain ⟨-, -, request, bytes, before, henvelope, -, -, hserialize, -, hputs⟩ :=
        hseq.of_sending hphase
      obtain ⟨request', henvelope', hfine⟩ :=
        hsteady.fine i (by rw [hphase]; exact fun h => (by cases h))
      rw [henvelope] at henvelope'
      cases henvelope'
      cases hputs with
      | writing send hfits hwriting => cases hwriting
      | refused hlarge houtput =>
          exact absurd ((hsendable i request hfine).length_le hserialize)
            (Nat.not_le_of_lt hlarge)

theorem Steady.step_cases {event : ClientEvent} (hinverse : format.Inverse)
    (hsendable : ∀ i request, fine i request → Rpc.Sendable format request)
    (hseq : client.Sequenced format decode frames front requests)
    (hsteady : client.Steady format fine) (hone : client.OneByOne fine event)
    (hstep : client.step format decode event = some next) :
    client.Proceeds format decode fine event next := by
  cases event with
  | connect | disconnect | connected | connectFailed | close | error | sleepOver | timeout =>
      cases hone
  | resume i => exact hsteady.resume_cases hsendable hseq hstep
  | poll i =>
      obtain ⟨hphase, -⟩ := poll_cases hstep
      have hsmooth := hsteady.smooth i
      rw [hphase] at hsmooth
      cases hsmooth
  | call i service method encoded options =>
      obtain ⟨hfree, payload, rfl, hfine⟩ := hone
      obtain ⟨hphase, -⟩ := call_cases hstep
      obtain ⟨bytes, hserialize, -, hparse⟩ := (hsendable i _ hfine).parses hinverse
      rw [call_eq_some hphase hseq.codec_eq hfree rfl hserialize] at hstep
      cases hstep
      exact .called i service method payload bytes options _ hphase hfree rfl hfine hparse
  | data c chunk =>
      simp only [step] at hstep
      split at hstep
      next hopen =>
        cases hstep
        rw [hseq.opened_eq, Nat.lt_one_iff] at hopen
        obtain ⟨rfl, -⟩ := hopen
        exact .data chunk
      · cases hstep
  | written c send failure =>
      cases hone
      simp only [step] at hstep
      split at hstep
      next hopen =>
        cases hstep
        rw [hseq.opened_eq, Nat.lt_one_iff] at hopen
        obtain ⟨rfl, hpending⟩ := hopen
        exact .written send hpending
      · cases hstep
  | read r =>
      obtain ⟨read, frame, conn, hread, hresume, rfl⟩ := read_eq hstep
      have hzero := hseq.conns read (List.mem_of_getElem? hread)
      have hconn : client.setConn read.conn conn = client.setConn 0 conn := by rw [hzero]
      rw [hzero] at hresume
      rw [hconn]
      exact .read r read frame conn hread hresume

theorem received_ne_timedOut (i id : Nat) (result : Except TransportError (List UInt8))
    (timeoutMs : Nat) : received format decode i id result ≠ .error (timedOut timeoutMs) := by
  unfold received
  split
  · exact fun h => (by cases h)
  · split
    · exact fun h => (by cases h)
    · unfold respond
      split
      · exact fun h => (by cases h)
      · split
        · exact fun h => (by cases h)
        · split <;> exact fun h => (by cases h)

/-- The request of a call that has been made. -/
theorem Steady.request {i : Nat} (hsteady : client.Steady format fine)
    (hmade : (client.calls i).phase ≠ .idle) :
    ∃ request, (client.calls i).envelope = some request ∧ fine i request ∧
      ∀ other, (client.calls i).envelope = some other → other = request := by
  obtain ⟨request, henvelope, hfine⟩ := hsteady.fine i hmade
  refine ⟨request, henvelope, hfine, ?_⟩
  intro other hother
  rw [henvelope] at hother
  cases hother
  rfl

theorem Steady.step {event : ClientEvent} (hinverse : format.Inverse)
    (hseq : client.Sequenced format decode frames front requests)
    (hsteady : client.Steady format fine)
    (hproceeds : client.Proceeds format decode fine event next) : next.Steady format fine := by
  have hunchanged : ∀ (r : Nat) (read : Read), client.reads[r]? = some read →
      read.frame.IsSettled ∨ ∃ before, client.reads[r]? = some before ∧ ¬ before.frame.IsSettled :=
    fun r read hread => (em _).imp_right fun hunsettled => ⟨read, hread, hunsettled⟩
  cases hproceeds with
  | data chunk =>
      refine hsteady.congr rfl hunchanged ?_
      rw [setConn_conns, onData_eq]
  | written send hpending =>
      refine hsteady.congr rfl hunchanged ?_
      rw [setConn_conns]
      rfl
  | read r read frame conn hread hresume =>
      refine hsteady.congr rfl ?_ ?_
      · intro q other hother
        by_cases hsame : r = q
        · subst hsame
          refine .inr ⟨read, hread, ?_⟩
          rintro ⟨result, hsettled⟩
          rw [hsettled] at hresume
          cases hresume
        · rw [List.getElem?_set_ne hsame] at hother
          exact hunchanged q other hother
      · dsimp only
        rw [setConn_conns, FrameRead.resume_eq hresume]
  | called i service method payload bytes options request hphase hfree hrequest hfine hparse =>
      subst hrequest
      obtain ⟨hnone, houtput⟩ := Sequenced.Flight.of_free hseq.flight hfree
      have hcalls := begun_setPhase_calls (client.called i service method (.ok payload) options) i 0
        payload (.sending 0 client.nextRequestId
          (client.timeoutMs ((client.called i service method (.ok payload) options).calls i))
          (sendFrame (client.conns 0) bytes).1)
      have hbefore : (client.calls i).envelope = none := by
        apply hseq.early
        rw [hphase]
        trivial
      refine hsteady.update (hcalls.trans (Function.update_idem _ _ _)) trivial rfl hfine ?_ ?_ ?_
      · intro other hother
        rw [hbefore] at hother
        cases hother
      · exact fun r read hread => .inl (hsteady.reads_settled (not_receiving_of_idle hnone) hread)
      · intro other hother
        rw [sending_conns] at hother
        have hbefore := houtput.emitted hinverse
        have hput := envelopes_of_puts (.sendFrame hseq.line.connected bytes) hbefore fun _ => hparse
        rw [hbefore.envelopes_eq]
        rcases List.mem_append.mp (hput.subset hother) with hold | hnew
        · exact .inl hold
        · exact .inr (List.mem_singleton.mp hnew)
  | sending i id timeoutMs send send' conn hphase hresume =>
      obtain ⟨-, hbusy, request, bytes, before, henvelope, -, -, hserialize, hbefore, hputs⟩ :=
        hseq.of_sending hphase
      obtain ⟨request', henvelope', hfine, hkept⟩ :=
        hsteady.request (by rw [hphase]; exact fun h => (by cases h))
      rw [henvelope] at henvelope'
      cases henvelope'
      obtain ⟨hputs', -⟩ := hputs.resume hseq.line.accepted hseq.line.connected hresume
      refine hsteady.update rfl trivial henvelope hfine hkept ?_ ?_
      · exact fun r read hread =>
          .inl (hsteady.reads_settled (not_receiving_of_sending hbusy hphase) hread)
      · intro other hother
        rw [sending_conns] at hother
        have hput := envelopes_of_puts hputs' (hbefore.emitted hinverse) (hinverse _ _ hserialize)
        rcases List.mem_append.mp (hput.subset hother) with hold | hnew
        · exact .inl ((hseq.requests_prefix hinverse).subset hold)
        · exact .inr (List.mem_singleton.mp hnew)
  | receiving i id timeoutMs hphase =>
      obtain ⟨-, hbusy, -⟩ := hseq.of_sending hphase
      obtain ⟨request, henvelope, hfine, hkept⟩ :=
        hsteady.request (by rw [hphase]; exact fun h => (by cases h))
      have hcalls : ((client.setConn 0 (recvFrame (client.conns 0)).2).setPhase i
          (.receiving client.reads.length id timeoutMs)).calls = Function.update client.calls i
          { client.calls i with phase := .receiving client.reads.length id timeoutMs } := rfl
      refine hsteady.update hcalls trivial henvelope hfine hkept ?_ ?_
      · intro r read hread
        by_cases hr : r < client.reads.length
        · rw [List.getElem?_append_left hr] at hread
          exact .inl (hsteady.reads_settled (not_receiving_of_sending hbusy hphase) hread)
        · have hlast : r = client.reads.length := by
            have hlt := (List.getElem?_eq_some_iff.mp hread).1
            rw [List.length_append, List.length_singleton] at hlt
            exact Nat.le_antisymm (Nat.le_of_lt_succ hlt) (Nat.le_of_not_lt hr)
          rw [hlast]
          exact .inr ⟨id, timeoutMs, rfl⟩
      · intro other hother
        dsimp only [Client.setPhase, setCall] at hother
        rw [setConn_conns, recvFrame_eq] at hother
        exact .inl hother
  | received i r id timeoutMs read result hphase hread hsettled =>
      obtain ⟨hbusy, -⟩ := hseq.of_receiving hphase
      obtain ⟨request, henvelope, hfine, hkept⟩ :=
        hsteady.request (by rw [hphase]; exact fun h => (by cases h))
      refine hsteady.update rfl ?_ henvelope hfine hkept ?_ fun _ hother => .inl hother
      · exact received_ne_timedOut i id result
      · intro q other hother
        rcases hsteady.reads q other hother with hdone | ⟨j, id', timeoutMs', hreceiving⟩
        · exact .inl hdone
        · -- only the call in flight reads, and its `recvFrame` has settled
          obtain rfl : j = i := by
            apply hbusy.eq
            rw [hreceiving]
            trivial
          rw [hphase] at hreceiving
          cases hreceiving
          cases hread.symm.trans hother
          exact .inl ⟨result, hsettled⟩

theorem onConnection_steady (config : ClientConfig) :
    (onConnection config : Client Value).Steady format fine where
  smooth _ := trivial
  fine _ hbusy := absurd rfl hbusy
  reads _ _ hread := by cases hread
  sent request hmem := by
    change request ∈ format.envelopes [] at hmem
    rw [EnvelopeFormat.Emitted.nil.envelopes_eq] at hmem
    cases hmem

/-! ## Turns -/

/-- A call that has been made is never made again. -/
theorem Proceeds.made {event : ClientEvent} {i : Nat}
    (hproceeds : client.Proceeds format decode fine event next)
    (hmade : (client.calls i).phase ≠ .idle) : (next.calls i).phase ≠ .idle := by
  have hupdate : ∀ {j : Nat} {call : Call Value}, next.calls = Function.update client.calls j call →
      call.phase ≠ .idle → (next.calls i).phase ≠ .idle := by
    intro j call hcalls hcall
    rw [hcalls]
    by_cases hsame : i = j
    · rwa [hsame, Function.update_self]
    · rwa [Function.update_of_ne hsame]
  cases hproceeds with
  | data => exact hmade
  | written => exact hmade
  | read => exact hmade
  | called j service method payload bytes options request hphase hfree hrequest hfine hparse =>
      have hcalls := begun_setPhase_calls (client.called j service method (.ok payload) options) j 0
        payload (.sending 0 client.nextRequestId
          (client.timeoutMs ((client.called j service method (.ok payload) options).calls j))
          (sendFrame (client.conns 0) bytes).1)
      exact hupdate (hcalls.trans (Function.update_idem _ _ _)) fun h => (by cases h)
  | sending j id timeoutMs send send' conn hphase hresume =>
      exact @hupdate j { client.calls j with phase := .sending 0 id timeoutMs send' } rfl
        fun h => (by cases h)
  | receiving j id timeoutMs hphase =>
      exact @hupdate j
        { client.calls j with phase := .receiving client.reads.length id timeoutMs } rfl
        fun h => (by cases h)
  | received j r id timeoutMs read result hphase hread hsettled =>
      exact @hupdate j
        { client.calls j with phase := .settled (Client.received format decode j id result) } rfl
        fun h => (by cases h)

/-- What a step does to what has been written and to what has come. -/
theorem Proceeds.stream {event : ClientEvent}
    (hproceeds : client.Proceeds format decode fine event next) :
    (client.conns 0).output <+: (next.conns 0).output ∧
      ((∃ chunk, event = .data 0 chunk ∧
          (next.conns 0).received = (client.conns 0).received ++ chunk) ∨
        (next.conns 0).received = (client.conns 0).received) := by
  cases hproceeds with
  | called i service method payload bytes options request hphase hfree hrequest hfine hparse =>
      rw [sending_conns]
      refine ⟨sendFrame_output_grows (client.conns 0) bytes, .inr ?_⟩
      rw [sendFrame_eq]
  | data chunk =>
      rw [setConn_conns, onData_eq]
      exact ⟨List.prefix_rfl, .inl ⟨chunk, rfl, rfl⟩⟩
  | written send hpending =>
      rw [setConn_conns]
      exact ⟨List.prefix_rfl, .inr rfl⟩
  | read r read frame conn hread hresume =>
      dsimp only
      rw [setConn_conns, FrameRead.resume_eq hresume]
      exact ⟨List.prefix_rfl, .inr rfl⟩
  | sending i id timeoutMs send send' conn hphase hresume =>
      rw [sending_conns]
      refine ⟨resume_output_grows hresume, .inr ?_⟩
      rw [FrameSend.resume_eq hresume]
  | receiving i id timeoutMs hphase =>
      dsimp only [Client.setPhase, setCall]
      rw [setConn_conns, recvFrame_eq]
      exact ⟨List.prefix_rfl, .inr rfl⟩
  | received i r id timeoutMs read result hphase hread hsettled =>
      exact ⟨List.prefix_rfl, .inr rfl⟩

/-- A read that goes on has fewer turns left. -/
theorem sum_turns_lt {reads : List Read} {r : Nat} {read : Read} {frame : FrameRead}
    {conn last : UnixSocketConnection} (hread : reads[r]? = some read)
    (hresume : read.frame.resume conn = some (frame, last)) :
    ((reads.set r { read with frame := frame }).map fun read => read.frame.turns).sum <
      (reads.map fun read => read.frame.turns).sum :=
  sum_map_set_lt (fun read : Read => read.frame.turns) hread (FrameRead.turns_of_resume hresume)

/-- How many writes have yet to complete, and how many turns the reads may take. -/
def load (client : Client Value) : Nat :=
  pendings (client.conns 0) + (client.reads.map fun read => read.frame.turns).sum

/-- A call that sends has yet to receive, and one that receives has yet to settle. -/
def turnsOf (client : Client Value) (i : Nat) : Nat :=
  match (client.calls i).phase with
  | .sending _ _ _ send => send.turns + 2
  | .receiving _ _ _ => 1
  | _ => 0

/-- A step of the client brings the call in flight on, or it takes from its load
or from the bytes that are to come. -/
theorem Proceeds.turns {event : ClientEvent} {i : Nat}
    (hseq : client.Sequenced format decode frames front requests)
    (hflying : (client.calls i).phase.InFlight)
    (hproceeds : client.Proceeds format decode fine event next) :
    next.turnsOf i < client.turnsOf i ∨
      next.calls = client.calls ∧ (next.conns 0).output = (client.conns 0).output ∧
        (next.load < client.load ∧ (next.conns 0).received = (client.conns 0).received ∨
          next.load = client.load ∧ ∃ chunk, event = .data 0 chunk ∧
            (next.conns 0).received = (client.conns 0).received ++ chunk) := by
  have hself : ∀ {j}, (client.calls j).phase.InFlight → j = i := by
    intro j hother
    cases hseq.flight with
    | free hfree hnone => exact absurd hflying (hnone i)
    | sending k _ _ _ _ _ _ _ hbusy => rw [hbusy.eq hother, hbusy.eq hflying]
    | receiving k _ _ _ _ _ hbusy => rw [hbusy.eq hother, hbusy.eq hflying]
    | failing k _ _ hbusy => rw [hbusy.eq hother, hbusy.eq hflying]
  cases hproceeds with
  | called j service method payload bytes options request hphase hfree hrequest hfine hparse =>
      exact absurd hflying ((Sequenced.Flight.of_free hseq.flight hfree).1 i)
  | data chunk =>
      refine .inr ⟨rfl, ?_, .inr ⟨?_, chunk, rfl, ?_⟩⟩
      · rw [setConn_conns, onData_eq]
      · unfold load
        rw [setConn_conns, onData_eq]
        rfl
      · rw [setConn_conns, onData_eq]
  | written send hpending =>
      refine .inr ⟨rfl, ?_, .inl ⟨?_, ?_⟩⟩
      · rw [setConn_conns]
        rfl
      · unfold load
        rw [setConn_conns]
        exact Nat.add_lt_add_right (pendings_onWritten hpending) _
      · rw [setConn_conns]
        rfl
  | read r read frame conn hread hresume =>
      have hsame := FrameRead.resume_eq hresume
      refine .inr ⟨rfl, ?_, .inl ⟨?_, ?_⟩⟩
      · dsimp only
        rw [setConn_conns, hsame]
      · unfold load
        dsimp only
        rw [setConn_conns, hsame]
        exact Nat.add_lt_add_left (sum_turns_lt hread hresume) _
      · dsimp only
        rw [setConn_conns, hsame]
  | sending j id timeoutMs send send' conn hphase hresume =>
      obtain rfl : j = i := hself (by rw [hphase]; trivial)
      have hturns := FrameSend.turns_lt_of_resume hresume
      apply Or.inl
      simp only [turnsOf, Client.sending, Client.setPhase, setCall, Function.update_self, hphase]
      exact Nat.add_lt_add_right hturns 2
  | receiving j id timeoutMs hphase =>
      obtain rfl : j = i := hself (by rw [hphase]; trivial)
      apply Or.inl
      simp only [turnsOf, Client.setPhase, setCall, Function.update_self, hphase]
      exact Nat.lt_add_left _ (Nat.lt_succ_self 1)
  | received j r id timeoutMs read result hphase hread hsettled =>
      obtain rfl : j = i := hself (by rw [hphase]; trivial)
      apply Or.inl
      simp only [turnsOf, finish, settle, Client.setPhase, setCall, Function.update_self, hphase]
      exact Nat.zero_lt_one

/-! ## Rest -/

theorem resume_none_of_read_none {r : Nat} {read : Read}
    (hseq : client.Sequenced format decode frames front requests)
    (hread : client.reads[r]? = some read)
    (hstuck : client.step format decode (.read r) = none) :
    read.frame.resume (client.conns 0) = none := by
  rw [← hseq.conns read (List.mem_of_getElem? hread)]
  simp only [step, Client.read, hread, Option.map_eq_none_iff] at hstuck
  exact hstuck

/-- A call in flight that cannot go on has sent its request, and lacks the frame
behind those that have been read. -/
theorem Steady.awaits {i : Nat} (hinverse : format.Inverse)
    (hseq : client.Sequenced format decode frames front requests)
    (hsteady : client.Steady format fine) (hflying : (client.calls i).phase.InFlight)
    (hresume : client.step format decode (.resume i) = none)
    (hreads : ∀ r, client.step format decode (.read r) = none)
    (hwritten : ∀ send : Nat, (client.conns 0).sends[send]? ≠ some .pending) :
    format.Emitted (client.conns 0).output requests ∧ frames.length < requests.length ∧
      frameHeader.scan front = .stuck .truncated := by
  have hsmooth := hsteady.smooth i
  cases hphase : (client.calls i).phase with
  | idle | waiting | starting | settled =>
      rw [hphase] at hflying
      cases hflying
  | failing error =>
      rw [hphase] at hsmooth
      cases hsmooth
  | sending c id timeoutMs send =>
      obtain ⟨rfl, -, request, bytes, before, henvelope, -, -, hserialize, -, hputs⟩ :=
        hseq.of_sending hphase
      cases hputs with
      | written hfits houtput =>
          simp only [Client.step, Client.resume, hphase] at hresume
          cases hresume
      | refused hlarge houtput =>
          simp only [Client.step, Client.resume, hphase] at hresume
          cases hresume
      | writing send hfits hwriting =>
          have hstuck : send.resume (client.conns 0) = none := by
            cases hwriting <;>
              simpa only [Client.step, Client.resume, hphase, Option.map_eq_none_iff] using hresume
          obtain ⟨ticket, hpending⟩ := hwriting.of_resume_eq_none hseq.line.accepted hstuck
          exact absurd hpending (hwritten ticket)
  | receiving r id timeoutMs =>
      obtain ⟨-, houtput, request, -, -, howner, -⟩ := hseq.of_receiving hphase
      obtain ⟨read, hread, -⟩ := Option.map_eq_some_iff.mp (List.getElem?_map ▸ howner)
      have hunsettled : ¬ read.frame.IsSettled := by
        rintro ⟨result, hsettled⟩
        obtain ⟨call, conn, frame⟩ := read
        cases hsettled
        rw [step_received hphase hread] at hresume
        cases hresume
      have hframe : (client.reads.map Read.frame)[r]? = some read.frame := by
        rw [List.getElem?_map, hread, Option.map_some]
      have hlt := (List.getElem?_eq_some_iff.mp hread).1
      -- the `recvFrame` of the call does not have its frame yet
      have hlacks : frames.length ≤ r := by
        by_contra hserved
        obtain ⟨other, hother, hserves⟩ := hseq.line.lined.served r _
          (List.getElem?_eq_getElem (Nat.lt_of_not_le hserved))
        rw [hframe] at hother
        cases hother
        have hstuck := resume_none_of_read_none hseq hread (hreads r)
        generalize read.frame = frame at hserves hunsettled hstuck
        cases hserves with
        | returned => exact hunsettled ⟨_, rfl⟩
        | body recv hcall =>
            simp only [FrameRead.resume, recvOutcome, hcall, Option.map_some,
              Option.getD_some] at hstuck
            cases hstuck
      refine ⟨houtput.emitted hinverse, ?_, hseq.line.lined.lacking.truncated ?_ ?_⟩
      · rw [hseq.count]
        exact Nat.lt_of_le_of_lt hlacks hlt
      · intro hnone
        have hlength := congrArg List.length hnone
        rw [List.length_drop, List.length_map, List.length_nil] at hlength
        omega
      · intro frame hmem
        obtain ⟨other, hother, rfl⟩ := List.mem_map.mp (List.mem_of_mem_drop hmem)
        obtain ⟨q, hq⟩ := List.mem_iff_getElem?.mp hother
        exact resume_none_of_read_none hseq hq (hreads q)

end Client

end Ibridger.Js
