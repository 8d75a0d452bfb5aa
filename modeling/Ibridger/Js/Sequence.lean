import Ibridger.Js.Abandoned
import Ibridger.Js.FrameWriter
import Ibridger.Js.LateReads
import Ibridger.Js.Numbers

/-! # Calls one after the other

While a client keeps its one connection, its calls write their requests one
behind the other. A call whose time is out leaves its `recvFrame` behind; as
long as the next call begins to receive only when it may join, the calls read
the frames that come in the order of their requests.
-/

namespace Ibridger.Js

open LengthPrefix Transition UnixSocketConnection Wire

/-! ## The connection -/

/-- On an open connection on which no write has failed, the `recvFrame` calls
have read the frames that have come. -/
structure Line (conn : UnixSocketConnection) (reads : List FrameRead)
    (frames : List (List UInt8)) (front : List UInt8) : Prop where
  connected : conn.connected = true
  accepted : Accepted conn
  received_eq : conn.received = frameHeader.stream frames ++ front
  fits : frameHeader.Fits frames
  lined : Lined conn front reads frames

namespace Line

variable {conn next : UnixSocketConnection} {reads : List FrameRead}
  {frames : List (List UInt8)} {front : List UInt8}

/-- Writing does not disturb the reading. -/
theorem congr (hline : Line conn reads frames front) (haccepted : Accepted next)
    (hnext : next = { conn with sends := next.sends, output := next.output }) :
    Line next reads frames front := by
  refine ⟨?_, haccepted, ?_, hline.fits, ?_⟩
  · rw [hnext]
    exact hline.connected
  · rw [hnext]
    exact hline.received_eq
  · apply hline.lined.congr <;> rw [hnext]

theorem advance {more : List UInt8} {reads' : List FrameRead}
    {frames' : List (List UInt8)} {front' : List UInt8} (hline : Line conn reads frames front)
    (hlined : Lined next front' reads' frames') (hadvance : Advance frames front more frames' front')
    (hconnected : next.connected = conn.connected) (hsends : next.sends = conn.sends)
    (hreceived : next.received = conn.received ++ more) : Line next reads' frames' front' := by
  refine ⟨hconnected.trans hline.connected, ?_, ?_, hadvance.fits hline.fits, hlined⟩
  · rw [Accepted, hsends]
    exact hline.accepted
  · rw [hreceived, hline.received_eq, hadvance.stream_eq, List.append_assoc]

end Line

/-- How far a request is written behind what was written before it: it is being
written, it has been, or it is too large. -/
inductive Puts (conn : UnixSocketConnection) (before bytes : List UInt8) : FrameSend → Prop where
  | writing (send : FrameSend) (hfits : bytes.length ≤ MAX_FRAME_SIZE)
      (hwriting : Writing conn before bytes send) : Puts conn before bytes send
  | written (hfits : bytes.length ≤ MAX_FRAME_SIZE)
      (houtput : conn.output = before ++ frameHeader.frame bytes) :
      Puts conn before bytes (.settled (.ok ()))
  | refused (hlarge : MAX_FRAME_SIZE < bytes.length) (houtput : conn.output = before) :
      Puts conn before bytes (.settled (.error (frameTooLargeError bytes.length)))

namespace Puts

variable {conn next : UnixSocketConnection} {before bytes : List UInt8} {send send' : FrameSend}

/-- Only what is sent matters. -/
theorem congr (hputs : Puts conn before bytes send) (hsends : next.sends.length = conn.sends.length)
    (houtput : next.output = conn.output) : Puts next before bytes send := by
  cases hputs with
  | writing send hfits hwriting => exact .writing send hfits (hwriting.congr hsends houtput)
  | written hfits hwritten => exact .written hfits (houtput.trans hwritten)
  | refused hlarge hnothing => exact .refused hlarge (houtput.trans hnothing)

theorem sendFrame (hconnected : conn.connected = true) (bytes : List UInt8) :
    Puts (sendFrame conn bytes).2 conn.output bytes (sendFrame conn bytes).1 := by
  by_cases hfits : bytes.length ≤ MAX_FRAME_SIZE
  · exact .writing _ hfits (sendFrame_writing hconnected hfits).1
  · have hlarge := Nat.lt_of_not_le hfits
    rw [Js.sendFrame, if_pos hlarge]
    exact .refused hlarge rfl

theorem resume (hputs : Puts conn before bytes send) (haccepted : Accepted conn)
    (hconnected : conn.connected = true) (hresume : send.resume conn = some (send', next)) :
    Puts next before bytes send' ∧ Accepted next := by
  cases hputs with
  | written => cases hresume
  | refused => cases hresume
  | writing send hfits hwriting =>
      rcases hwriting.resume haccepted hconnected hresume with ⟨hnext, rfl⟩ | ⟨rfl, rfl, houtput⟩
      · exact ⟨.writing _ hfits hnext, haccepted.send hconnected _⟩
      · exact ⟨.written hfits houtput, haccepted⟩

/-- What was written before stands in front of what is. -/
theorem output_prefix (hputs : Puts conn before bytes send) :
    ∃ rest, conn.output = before ++ rest := by
  cases hputs with
  | writing send hfits hwriting =>
      cases hwriting with
      | header ticket hsend houtput => exact ⟨_, houtput⟩
      | body ticket hsend houtput => exact ⟨_, houtput⟩
  | written hfits houtput => exact ⟨_, houtput⟩
  | refused hlarge houtput => exact ⟨[], by rw [houtput, List.append_nil]⟩

end Puts

theorem sendFrame_accepted {conn : UnixSocketConnection} (haccepted : Accepted conn)
    (hconnected : conn.connected = true) (data : List UInt8) : Accepted (sendFrame conn data).2 := by
  unfold sendFrame
  split
  · exact haccepted
  · exact haccepted.send hconnected _

/-! ## The calls -/

/-- Nothing connects or disconnects, and no connection or write fails. -/
def ClientEvent.Undisturbed : ClientEvent → Prop
  | .connect | .disconnect | .connected _ _ | .connectFailed _ _ | .close _ | .error _ _ _
  | .sleepOver _ => False
  | .written _ _ failure => failure = none
  | .call _ _ _ _ _ | .data _ _ | .poll _ | .timeout _ | .resume _ | .read _ => True

instance : DecidablePred ClientEvent.Undisturbed
  | .connect | .disconnect | .connected _ _ | .connectFailed _ _ | .close _ | .error _ _ _
  | .sleepOver _ => inferInstanceAs (Decidable False)
  | .written _ _ failure => inferInstanceAs (Decidable (failure = none))
  | .call _ _ _ _ _ | .data _ _ | .poll _ | .timeout _ | .resume _ | .read _ =>
      inferInstanceAs (Decidable True)

/-- The call has not got to the taking of an id. -/
def CallPhase.Early {Value : Type} : CallPhase Value → Prop
  | .idle | .waiting | .starting => True
  | .sending _ _ _ _ | .receiving _ _ _ | .failing _ | .settled _ => False

/-- The call has taken an id and has not ended. -/
def CallPhase.InFlight {Value : Type} : CallPhase Value → Prop
  | .sending _ _ _ _ | .receiving _ _ _ | .failing _ => True
  | .idle | .waiting | .starting | .settled _ => False

namespace Client

variable {Value : Type} (format : EnvelopeFormat)
  (decode : Nat → List UInt8 → Except String Value)

/-- How a call ends: before it takes an id, without having sent its request, by
its timer, or with what it makes of the frame that it has read. `owners` are the
calls that have read, and `requests` what they had sent. -/
inductive Ended (owners : List (Nat × Nat)) (requests : List Envelope)
    (frames : List (List UInt8)) (i : Nat) : Option Envelope → Except CallError Value → Prop where
  | rejected (error : CallError) : Ended owners requests frames i none (.error error)
  | unserializable (request : Envelope) (hserialize : format.serialize request = none) :
      Ended owners requests frames i (some request) (.error .unserializable)
  | oversized (request : Envelope) (bytes : List UInt8)
      (hserialize : format.serialize request = some bytes) (hlarge : MAX_FRAME_SIZE < bytes.length) :
      Ended owners requests frames i (some request)
        (.error (.transport (frameTooLargeError bytes.length)))
  | timedOut (r : Nat) (request : Envelope) (timeoutMs : Nat) (howner : owners[r]? = some (i, 0))
      (hrequest : requests[r]? = some request) :
      Ended owners requests frames i (some request) (.error (Js.timedOut timeoutMs))
  | answered (r : Nat) (request : Envelope) (payload : List UInt8)
      (howner : owners[r]? = some (i, 0)) (hrequest : requests[r]? = some request)
      (hframe : frames[r]? = some payload) :
      Ended owners requests frames i (some request)
        (received format decode i request.requestId.toNat (.ok payload))

/-- The call is the one in flight. -/
def Busy (client : Client Value) (i : Nat) : Prop :=
  client.callInFlight = true ∧ ∀ j, j ≠ i → ¬ (client.calls j).phase.InFlight

/-- The call in flight, if there is one, and the requests that are written. -/
inductive Flight (client : Client Value) (frames : List (List UInt8)) (requests : List Envelope) :
    Prop where
  | free (hfree : client.callInFlight = false) (hnone : ∀ i, ¬ (client.calls i).phase.InFlight)
      (houtput : format.Wrote (client.conns 0).output requests)
  | sending (i id timeoutMs : Nat) (send : FrameSend) (request : Envelope)
      (bytes before : List UInt8) (hphase : (client.calls i).phase = .sending 0 id timeoutMs send)
      (hbusy : client.Busy i) (henvelope : (client.calls i).envelope = some request)
      (hid : request.requestId.toNat = id) (hsmall : id ≤ 2 ^ 53)
      (hserialize : format.serialize request = some bytes)
      (hbefore : format.Wrote before requests) (hputs : Puts (client.conns 0) before bytes send)
  | receiving (i r id timeoutMs : Nat) (request : Envelope)
      (hphase : (client.calls i).phase = .receiving r id timeoutMs) (hbusy : client.Busy i)
      (henvelope : (client.calls i).envelope = some request) (hid : request.requestId.toNat = id)
      (howner : (client.reads.map Read.owner)[r]? = some (i, 0))
      (hrequest : requests[r]? = some request)
      (houtput : format.Wrote (client.conns 0).output requests)
  | failing (i : Nat) (error : CallError) (hphase : (client.calls i).phase = .failing error)
      (hbusy : client.Busy i)
      (hended : Ended format decode (client.reads.map Read.owner) requests frames i
        (client.calls i).envelope (.error error))
      (houtput : format.Wrote (client.conns 0).output requests)

/-- The calls of a client that has had one connection have sent the requests and
read the frames, and `front` has come behind them. -/
structure Sequenced (client : Client Value) (frames : List (List UInt8)) (front : List UInt8)
    (requests : List Envelope) : Prop where
  codec_eq : client.codec = some 0
  opened_eq : client.opened = 1
  id_le : client.nextRequestId ≤ 2 ^ 53
  line : Line (client.conns 0) (client.reads.map Read.frame) frames front
  conns : ∀ read ∈ client.reads, read.conn = 0
  count : requests.length = client.reads.length
  small : ∀ request ∈ requests, request.requestId.toNat ≤ 2 ^ 53
  early : ∀ i, (client.calls i).phase.Early → (client.calls i).envelope = none
  ended : ∀ i result, (client.calls i).phase = .settled result →
    Ended format decode (client.reads.map Read.owner) requests frames i
      (client.calls i).envelope result
  flight : client.Flight format decode frames requests

variable {format decode}

theorem getElem?_of_initial {Entry : Type} {first second : List Entry} (hinitial : first <+: second)
    {r : Nat} {entry : Entry} (hentry : first[r]? = some entry) : second[r]? = some entry := by
  obtain ⟨more, rfl⟩ := hinitial
  rw [List.getElem?_append_left (List.getElem?_eq_some_iff.mp hentry).1]
  exact hentry

theorem Ended.mono {owners owners' : List (Nat × Nat)} {requests requests' : List Envelope}
    {frames frames' : List (List UInt8)} {i : Nat} {envelope : Option Envelope}
    {result : Except CallError Value}
    (hended : Ended format decode owners requests frames i envelope result)
    (howners : owners <+: owners') (hrequests : requests <+: requests')
    (hframes : frames <+: frames') :
    Ended format decode owners' requests' frames' i envelope result := by
  cases hended with
  | rejected error => exact .rejected error
  | unserializable request hserialize => exact .unserializable request hserialize
  | oversized request bytes hserialize hlarge => exact .oversized request bytes hserialize hlarge
  | timedOut r request timeoutMs howner hrequest =>
      exact .timedOut r request timeoutMs (getElem?_of_initial howners howner) 
        (getElem?_of_initial hrequests hrequest)
  | answered r request payload howner hrequest hframe =>
      exact .answered r request payload (getElem?_of_initial howners howner) 
        (getElem?_of_initial hrequests hrequest)
        (getElem?_of_initial hframes hframe)

theorem setConn_conns (client : Client Value) (c : Nat) (conn : UnixSocketConnection) :
    (client.setConn c conn).conns c = conn := by
  rw [setConn]
  exact Function.update_self _ _ _

theorem sending_conns (client : Client Value) (i c id timeoutMs : Nat)
    (result : FrameSend × UnixSocketConnection) :
    (client.sending i c id timeoutMs result).conns c = result.2 :=
  client.setConn_conns c result.2

theorem Busy.eq {client : Client Value} {i j : Nat} (hbusy : client.Busy i)
    (hflying : (client.calls j).phase.InFlight) : j = i := by
  by_contra hne
  exact hbusy.2 j hne hflying

namespace Sequenced

variable {client next : Client Value} {frames frames' : List (List UInt8)}
  {front front' : List UInt8} {requests requests' : List Envelope}

/-- The connection moves on, and the calls stay where they are. -/
theorem congr (hseq : client.Sequenced format decode frames front requests)
    (hcalm : Calm client next) (hkept : CallsKept client next)
    (hline : Line (next.conns 0) (next.reads.map Read.frame) frames' front')
    (hframes : frames <+: frames')
    (hsends : (next.conns 0).sends.length = (client.conns 0).sends.length)
    (houtput : (next.conns 0).output = (client.conns 0).output) :
    next.Sequenced format decode frames' front' requests := by
  have howners := hkept.owners_eq
  have hended : ∀ {i envelope result},
      Ended format decode (client.reads.map Read.owner) requests frames i envelope result →
      Ended format decode (next.reads.map Read.owner) requests frames' i envelope result := by
    intro i envelope result hended
    rw [howners]
    exact hended.mono List.prefix_rfl List.prefix_rfl hframes
  refine ⟨hcalm.codec_eq.trans hseq.codec_eq, hcalm.opened_eq.trans hseq.opened_eq, ?_, hline,
    ?_, ?_, hseq.small, ?_, ?_, ?_⟩
  · rw [hkept.nextRequestId_eq]
    exact hseq.id_le
  · intro read hread
    obtain ⟨other, hother, hsame⟩ :=
      List.mem_map.mp (howners ▸ @List.mem_map_of_mem _ _ _ _ Read.owner hread)
    exact (congrArg Prod.snd hsame).symm.trans (hseq.conns other hother)
  · rw [hseq.count, ← @List.length_map _ _ client.reads Read.owner, ← howners, List.length_map]
  · rw [hkept.calls_eq]
    exact hseq.early
  · rw [hkept.calls_eq]
    intro i result hsettled
    exact hended (hseq.ended i result hsettled)
  · have hbusy : ∀ {i}, client.Busy i → next.Busy i := by
      intro i hbusy
      rw [Busy, hkept.callInFlight_eq, hkept.calls_eq]
      exact hbusy
    cases hseq.flight with
    | free hfree hnone hwritten =>
        exact .free (hkept.callInFlight_eq.trans hfree) (by rwa [hkept.calls_eq])
          (by rwa [houtput])
    | sending i id timeoutMs send request bytes before hphase hcall henvelope hid hsmall hserialize
        hbefore hputs =>
        exact .sending i id timeoutMs send request bytes before (by rwa [hkept.calls_eq])
          (hbusy hcall) (by rwa [hkept.calls_eq]) hid hsmall hserialize hbefore
          (hputs.congr hsends houtput)
    | receiving i r id timeoutMs request hphase hcall henvelope hid howner hrequest hwritten =>
        exact .receiving i r id timeoutMs request (by rwa [hkept.calls_eq]) (hbusy hcall)
          (by rwa [hkept.calls_eq]) hid (by rwa [howners]) hrequest (by rwa [houtput])
    | failing i error hphase hcall hfailed hwritten =>
        exact .failing i error (by rwa [hkept.calls_eq]) (hbusy hcall)
          (by rw [hkept.calls_eq]; exact hended hfailed) (by rwa [houtput])

/-- A call moves on. -/
theorem update {i : Nat} {call : Call Value}
    (hseq : client.Sequenced format decode frames front requests) (hcalm : Calm client next)
    (hid : next.nextRequestId ≤ 2 ^ 53)
    (hline : Line (next.conns 0) (next.reads.map Read.frame) frames' front')
    (hconns : ∀ read ∈ next.reads, read.conn = 0) (hcount : requests'.length = next.reads.length)
    (hsmall : ∀ request ∈ requests', request.requestId.toNat ≤ 2 ^ 53)
    (hcalls : next.calls = Function.update client.calls i call)
    (howners : client.reads.map Read.owner <+: next.reads.map Read.owner)
    (hrequests : requests <+: requests') (hframes : frames <+: frames')
    (hearly : call.phase.Early → call.envelope = none)
    (hended : ∀ result, call.phase = .settled result →
      Ended format decode (next.reads.map Read.owner) requests' frames' i call.envelope result)
    (hflight : next.Flight format decode frames' requests') :
    next.Sequenced format decode frames' front' requests' := by
  refine ⟨hcalm.codec_eq.trans hseq.codec_eq, hcalm.opened_eq.trans hseq.opened_eq, hid, hline,
    hconns, hcount, hsmall, ?_, ?_, hflight⟩
  · intro j
    rw [hcalls]
    by_cases hj : j = i
    · subst hj
      rw [Function.update_self]
      exact hearly
    · rw [Function.update_of_ne hj]
      exact hseq.early j
  · intro j result
    rw [hcalls]
    by_cases hj : j = i
    · subst hj
      rw [Function.update_self]
      exact hended result
    · rw [Function.update_of_ne hj]
      intro hsettled
      exact (hseq.ended j result hsettled).mono howners hrequests hframes

/-! ## Steps of the connection -/

theorem data {c : Nat} {chunk : List UInt8}
    (hseq : client.Sequenced format decode frames front requests)
    (hstep : client.step format decode (.data c chunk) = some next) :
    ∃ frames' front', next.Sequenced format decode frames' front' requests := by
  have hcalm := @step_calm _ _ _ _ _ (.data c chunk) id hstep
  have hkept := @step_callsKept _ _ _ _ _ (.data c chunk) id hstep
  simp only [step] at hstep
  split at hstep
  next hopen =>
    cases hstep
    rw [hseq.opened_eq, Nat.lt_one_iff] at hopen
    obtain ⟨rfl, -⟩ := hopen
    obtain ⟨frames', front', hlined, hadvance⟩ :=
      hseq.line.lined.onData hseq.line.connected chunk
    have hconn : (client.setConn 0 ((client.conns 0).onData chunk)).conns 0 =
        (client.conns 0).onData chunk := setConn_conns _ _ _
    refine ⟨frames', front', hseq.congr hcalm hkept ?_ hadvance.grown ?_ ?_⟩
    · rw [hconn]
      apply hseq.line.advance hlined hadvance <;> rw [onData_eq]
    · rw [hconn, onData_eq]
    · rw [hconn, onData_eq]
  · cases hstep

theorem written {c send : Nat} (hseq : client.Sequenced format decode frames front requests)
    (hstep : client.step format decode (.written c send none) = some next) :
    next.Sequenced format decode frames front requests := by
  have hcalm := @step_calm _ _ _ _ _ (.written c send none) id hstep
  have hkept := @step_callsKept _ _ _ _ _ (.written c send none) id hstep
  simp only [step] at hstep
  split at hstep
  next hopen =>
    cases hstep
    rw [hseq.opened_eq, Nat.lt_one_iff] at hopen
    obtain ⟨rfl, hpending⟩ := hopen
    have hconn : (client.setConn 0 ((client.conns 0).onWritten send none)).conns 0 =
        (client.conns 0).onWritten send none := setConn_conns _ _ _
    refine hseq.congr hcalm hkept ?_ List.prefix_rfl ?_ ?_
    · rw [hconn]
      exact hseq.line.congr (hseq.line.accepted.onWritten hpending) rfl
    · rw [hconn, onWritten, List.length_modify]
    · rw [hconn]
      rfl
  · cases hstep

theorem read {r : Nat} (hseq : client.Sequenced format decode frames front requests)
    (hfits : frameHeader.scan front ≠ .stuck .oversized)
    (hstep : client.step format decode (.read r) = some next) :
    ∃ frames' front', next.Sequenced format decode frames' front' requests := by
  have hcalm := @step_calm _ _ _ _ _ (.read r) id hstep
  have hkept := @step_callsKept _ _ _ _ _ (.read r) id hstep
  obtain ⟨read, frame, conn, hread, hresume, rfl⟩ := read_eq hstep
  have hzero := hseq.conns read (List.mem_of_getElem? hread)
  rw [hzero] at hresume
  have hframe : (client.reads.map Read.frame)[r]? = some read.frame := by
    rw [List.getElem?_map, hread, Option.map_some]
  obtain ⟨frames', front', hlined, hadvance⟩ :=
    hseq.line.lined.resume hseq.line.connected hfits hframe hresume
  have hconn : (client.setConn read.conn conn).conns 0 = conn := by
    rw [hzero]
    exact setConn_conns _ _ _
  have hsame := FrameRead.resume_eq hresume
  refine ⟨frames', front', hseq.congr hcalm hkept ?_ hadvance.grown ?_ ?_⟩
  · dsimp only
    rw [hconn, List.map_set]
    apply hseq.line.advance hlined hadvance <;> rw [hsame]
    rw [List.append_nil]
  · dsimp only
    rw [hconn, hsame]
  · dsimp only
    rw [hconn, hsame]

/-! ## Steps of the calls -/

/-- A call that changes outside of the flight does not disturb it. -/
theorem flight_outside {i : Nat} {call : Call Value}
    (hflight : client.Flight format decode frames requests)
    (hold : ¬ (client.calls i).phase.InFlight) (hnew : ¬ call.phase.InFlight) :
    (client.setCall i call).Flight format decode frames requests := by
  have hcall : ∀ j, j ≠ i → (client.setCall i call).calls j = client.calls j := by
    intro j hj
    simp only [setCall, Function.update_of_ne hj]
  have houtside : ∀ j, ¬ (client.calls j).phase.InFlight →
      ¬ ((client.setCall i call).calls j).phase.InFlight := by
    intro j hj
    by_cases hsame : j = i
    · subst hsame
      simp only [setCall, Function.update_self]
      exact hnew
    · rw [hcall j hsame]
      exact hj
  have hother : ∀ {j}, (client.calls j).phase.InFlight → j ≠ i := by
    rintro j hj rfl
    exact hold hj
  have hbusy : ∀ {j}, client.Busy j → (client.setCall i call).Busy j :=
    fun hbusy => ⟨hbusy.1, fun k hk => houtside k (hbusy.2 k hk)⟩
  cases hflight with
  | free hfree hnone houtput => exact .free hfree (fun j => houtside j (hnone j)) houtput
  | sending j id timeoutMs send request bytes before hphase hcalled henvelope hid hsmall hserialize
      hbefore hputs =>
      have hj : j ≠ i := hother (by rw [hphase]; trivial)
      exact .sending j id timeoutMs send request bytes before (by rwa [hcall j hj]) (hbusy hcalled)
        (by rwa [hcall j hj]) hid hsmall hserialize hbefore hputs
  | receiving j r id timeoutMs request hphase hcalled henvelope hid howner hrequest houtput =>
      have hj : j ≠ i := hother (by rw [hphase]; trivial)
      exact .receiving j r id timeoutMs request (by rwa [hcall j hj]) (hbusy hcalled)
        (by rwa [hcall j hj]) hid howner hrequest houtput
  | failing j error hphase hcalled hended houtput =>
      have hj : j ≠ i := hother (by rw [hphase]; trivial)
      exact .failing j error (by rwa [hcall j hj]) (hbusy hcalled) (by rwa [hcall j hj]) houtput

/-- A call that has not taken an id goes on, or is rejected. -/
theorem setCall {i : Nat} {call : Call Value}
    (hseq : client.Sequenced format decode frames front requests)
    (hold : (client.calls i).phase.Early) (henvelope : call.envelope = none)
    (hnew : call.phase.Early ∨ ∃ error, call.phase = .settled (.error error)) :
    (client.setCall i call).Sequenced format decode frames front requests := by
  have houtside : ∀ {phase : CallPhase Value},
      (phase.Early ∨ ∃ error, phase = .settled (.error error)) → ¬ phase.InFlight := by
    rintro phase (hearly | ⟨error, rfl⟩)
    · cases phase <;> first | exact id | cases hearly
    · exact id
  refine hseq.update (.setCall _ _ _) hseq.id_le hseq.line hseq.conns hseq.count hseq.small rfl
    List.prefix_rfl List.prefix_rfl List.prefix_rfl (fun _ => henvelope) ?_
    (flight_outside hseq.flight (houtside (.inl hold)) (houtside hnew))
  intro result hsettled
  rw [henvelope]
  rcases hnew with hearly | ⟨error, herror⟩
  · rw [hsettled] at hearly
    cases hearly
  · rw [hsettled] at herror
    cases herror
    exact .rejected error

theorem setPhase {i : Nat} {phase : CallPhase Value}
    (hseq : client.Sequenced format decode frames front requests)
    (hold : (client.calls i).phase.Early)
    (hnew : phase.Early ∨ ∃ error, phase = .settled (.error error)) :
    (client.setPhase i phase).Sequenced format decode frames front requests :=
  hseq.setCall hold (hseq.early i hold) hnew

theorem poll {i : Nat} (hseq : client.Sequenced format decode frames front requests)
    (hstep : client.step format decode (.poll i) = some next) :
    next.Sequenced format decode frames front requests := by
  obtain ⟨hphase, rfl | rfl | rfl⟩ := poll_cases hstep
  · exact hseq.setPhase (by rw [hphase]; trivial) (.inl trivial)
  · exact hseq
  · exact hseq.setPhase (by rw [hphase]; trivial) (.inr ⟨_, rfl⟩)

/-- Without a call in flight, all that is written are the requests. -/
theorem Flight.of_free (hflight : client.Flight format decode frames requests)
    (hfree : client.callInFlight = false) :
    (∀ i, ¬ (client.calls i).phase.InFlight) ∧
      format.Wrote (client.conns 0).output requests := by
  have hbusy : ∀ i, ¬ client.Busy i := by
    intro i hbusy
    rw [hbusy.1] at hfree
    cases hfree
  cases hflight with
  | free _ hnone houtput => exact ⟨hnone, houtput⟩
  | sending i _ _ _ _ _ _ _ hcalled => exact absurd hcalled (hbusy i)
  | receiving i _ _ _ _ _ hcalled => exact absurd hcalled (hbusy i)
  | failing i _ _ hcalled => exact absurd hcalled (hbusy i)

theorem busy_of_calls {i : Nat} {call : Call Value}
    (hcalls : next.calls = Function.update client.calls i call) (hbusy : next.callInFlight = true)
    (hothers : ∀ j, j ≠ i → ¬ (client.calls j).phase.InFlight) : next.Busy i := by
  refine ⟨hbusy, ?_⟩
  intro j hj
  rw [hcalls, Function.update_of_ne hj]
  exact hothers j hj

theorem start {i : Nat}
    (hseq : client.Sequenced format decode frames front requests)
    (hphase : (client.calls i).phase.Early) :
    (client.start format i).Sequenced format decode frames front requests := by
  have hstarts := client.start_cases format i
  have hcalm := Calm.start format client i
  generalize client.start format i = next at hstarts hcalm
  cases hstarts with
  | rejected error => exact hseq.setPhase hphase (.inr ⟨error, rfl⟩)
  | unserializable c payload hcodec hfree hencoded hserialize =>
      rw [hseq.codec_eq] at hcodec
      cases hcodec
      obtain ⟨hnone, houtput⟩ := Flight.of_free hseq.flight hfree
      have hcalls := begun_setPhase_calls client i 0 payload (.failing .unserializable)
      have hcall := (congrFun hcalls i).trans (Function.update_self _ _ _)
      have henvelope : (((client.begun i 0 payload).setPhase i
          (.failing .unserializable)).calls i).envelope =
            some (requestEnvelope (client.calls i) client.nextRequestId payload) :=
        congrArg Call.envelope hcall
      refine hseq.update hcalm (increment_le hseq.id_le) hseq.line hseq.conns hseq.count
        hseq.small hcalls List.prefix_rfl List.prefix_rfl List.prefix_rfl (fun h => (by cases h))
        (fun result h => (by cases h)) ?_
      refine .failing i .unserializable (congrArg Call.phase hcall)
        (busy_of_calls hcalls rfl fun j _ => hnone j) ?_ houtput
      rw [henvelope]
      exact .unserializable _ hserialize
  | sending c payload bytes hcodec hfree hencoded hserialize =>
      rw [hseq.codec_eq] at hcodec
      cases hcodec
      obtain ⟨hnone, houtput⟩ := Flight.of_free hseq.flight hfree
      have hconn : ((client.begun i 0 payload).sending i 0 client.nextRequestId
          (client.timeoutMs (client.calls i)) (sendFrame (client.conns 0) bytes)).conns 0 =
            (sendFrame (client.conns 0) bytes).2 := sending_conns _ _ _ _ _ _
      have hcalls := begun_setPhase_calls client i 0 payload
        (.sending 0 client.nextRequestId (client.timeoutMs (client.calls i))
          (sendFrame (client.conns 0) bytes).1)
      refine hseq.update hcalm (increment_le hseq.id_le) ?_ hseq.conns hseq.count
        hseq.small hcalls List.prefix_rfl List.prefix_rfl List.prefix_rfl (fun h => (by cases h))
        (fun result h => (by cases h)) ?_
      · rw [hconn]
        exact hseq.line.congr (sendFrame_accepted hseq.line.accepted hseq.line.connected bytes)
          (sendFrame_eq _ _)
      · have hcall := (congrFun hcalls i).trans (Function.update_self _ _ _)
        refine .sending i client.nextRequestId (client.timeoutMs (client.calls i))
          (sendFrame (client.conns 0) bytes).1
          (requestEnvelope (client.calls i) client.nextRequestId payload) bytes
          (client.conns 0).output ?_ (busy_of_calls hcalls rfl fun j _ => hnone j) ?_
          (requestId_toNat hseq.id_le payload) hseq.id_le hserialize houtput ?_
        · exact congrArg Call.phase hcall
        · exact congrArg Call.envelope hcall
        · rw [hconn]
          exact .sendFrame hseq.line.connected bytes

theorem call {i : Nat} {service method : String} {encoded : Except String (List UInt8)}
    {options : CallOptions}
    (hseq : client.Sequenced format decode frames front requests)
    (hstep : client.step format decode (.call i service method encoded options) = some next) :
    next.Sequenced format decode frames front requests := by
  obtain ⟨hphase, ⟨hcodec, -⟩ | rfl⟩ := call_cases hstep
  · rw [hseq.codec_eq] at hcodec
    cases hcodec
  · have hearly : (client.calls i).phase.Early := by
      rw [hphase]
      trivial
    have hcalled : (client.called i service method encoded options).Sequenced format decode frames
        front requests := hseq.setCall hearly rfl (.inl trivial)
    apply hcalled.start
    simp only [called, Client.setCall, Function.update_self]
    trivial

/-- The call in flight ends. -/
theorem finish {i : Nat} {result : Except CallError Value}
    (hseq : client.Sequenced format decode frames front requests) (hbusy : client.Busy i)
    (hended : Ended format decode (client.reads.map Read.owner) requests frames i
      (client.calls i).envelope result)
    (houtput : format.Wrote (client.conns 0).output requests) :
    (client.finish i result).Sequenced format decode frames front requests := by
  have hcalls : (client.finish i result).calls = Function.update client.calls i
      { client.calls i with phase := .settled result } := rfl
  refine hseq.update (.finish _ _ _) hseq.id_le hseq.line hseq.conns hseq.count
    hseq.small hcalls List.prefix_rfl List.prefix_rfl List.prefix_rfl (fun h => (by cases h)) ?_
    (.free rfl ?_ houtput)
  · intro other hother
    cases hother
    exact hended
  · intro j
    rw [hcalls]
    by_cases hj : j = i
    · subst hj
      rw [Function.update_self]
      exact id
    · rw [Function.update_of_ne hj]
      exact hbusy.2 j hj

theorem of_sending {i c id timeoutMs : Nat} {send : FrameSend}
    (hseq : client.Sequenced format decode frames front requests)
    (hphase : (client.calls i).phase = .sending c id timeoutMs send) :
    c = 0 ∧ client.Busy i ∧ ∃ request bytes before,
      (client.calls i).envelope = some request ∧ request.requestId.toNat = id ∧ id ≤ 2 ^ 53 ∧
        format.serialize request = some bytes ∧ format.Wrote before requests ∧
        Puts (client.conns 0) before bytes send := by
  have hflying : (client.calls i).phase.InFlight := by
    rw [hphase]
    trivial
  cases hseq.flight with
  | free hfree hnone => exact absurd hflying (hnone i)
  | sending j id' timeoutMs' send' request bytes before hother hbusy henvelope hid hsmall hserialize
      hbefore hputs =>
      obtain rfl := hbusy.eq hflying
      rw [hphase] at hother
      cases hother
      exact ⟨rfl, hbusy, request, bytes, before, henvelope, hid, hsmall, hserialize, hbefore,
        hputs⟩
  | receiving j r id' timeoutMs' request hother hbusy =>
      obtain rfl := hbusy.eq hflying
      rw [hphase] at hother
      cases hother
  | failing j error hother hbusy =>
      obtain rfl := hbusy.eq hflying
      rw [hphase] at hother
      cases hother

theorem of_receiving {i r id timeoutMs : Nat}
    (hseq : client.Sequenced format decode frames front requests)
    (hphase : (client.calls i).phase = .receiving r id timeoutMs) :
    client.Busy i ∧ format.Wrote (client.conns 0).output requests ∧ ∃ request,
      (client.calls i).envelope = some request ∧ request.requestId.toNat = id ∧
        (client.reads.map Read.owner)[r]? = some (i, 0) ∧ requests[r]? = some request := by
  have hflying : (client.calls i).phase.InFlight := by
    rw [hphase]
    trivial
  cases hseq.flight with
  | free hfree hnone => exact absurd hflying (hnone i)
  | sending j id' timeoutMs' send request bytes before hother hbusy =>
      obtain rfl := hbusy.eq hflying
      rw [hphase] at hother
      cases hother
  | receiving j r' id' timeoutMs' request hother hbusy henvelope hid howner hrequest houtput =>
      obtain rfl := hbusy.eq hflying
      rw [hphase] at hother
      cases hother
      exact ⟨hbusy, houtput, request, henvelope, hid, howner, hrequest⟩
  | failing j error hother hbusy =>
      obtain rfl := hbusy.eq hflying
      rw [hphase] at hother
      cases hother

theorem of_failing {i : Nat} {error : CallError}
    (hseq : client.Sequenced format decode frames front requests)
    (hphase : (client.calls i).phase = .failing error) :
    client.Busy i ∧ format.Wrote (client.conns 0).output requests ∧
      Ended format decode (client.reads.map Read.owner) requests frames i
        (client.calls i).envelope (.error error) := by
  have hflying : (client.calls i).phase.InFlight := by
    rw [hphase]
    trivial
  cases hseq.flight with
  | free hfree hnone => exact absurd hflying (hnone i)
  | sending j id timeoutMs send request bytes before hother hbusy =>
      obtain rfl := hbusy.eq hflying
      rw [hphase] at hother
      cases hother
  | receiving j r id timeoutMs request hother hbusy =>
      obtain rfl := hbusy.eq hflying
      rw [hphase] at hother
      cases hother
  | failing j error' hother hbusy hended houtput =>
      obtain rfl := hbusy.eq hflying
      rw [hphase] at hother
      cases hother
      exact ⟨hbusy, houtput, hended⟩

/-- The timer of a call that has begun to receive. -/
theorem timeout {i : Nat} (hseq : client.Sequenced format decode frames front requests)
    (hstep : client.step format decode (.timeout i) = some next) :
    next.Sequenced format decode frames front requests := by
  obtain ⟨r, id, timeoutMs, hphase, rfl⟩ := timeout_cases hstep
  obtain ⟨hbusy, houtput, request, henvelope, -, howner, hrequest⟩ := hseq.of_receiving hphase
  have hcalls : (client.setPhase i (.failing (Js.timedOut timeoutMs))).calls =
      Function.update client.calls i
        { client.calls i with phase := .failing (Js.timedOut timeoutMs) } := rfl
  have hcall := (congrFun hcalls i).trans (Function.update_self _ _ _)
  refine hseq.update (.setPhase _ _ _) hseq.id_le hseq.line hseq.conns hseq.count
    hseq.small hcalls List.prefix_rfl List.prefix_rfl List.prefix_rfl (fun h => (by cases h))
    (fun result h => (by cases h)) ?_
  refine .failing i (Js.timedOut timeoutMs) (congrArg Call.phase hcall)
    (busy_of_calls hcalls hbusy.1 hbusy.2) ?_ houtput
  rw [hcall]
  dsimp only
  rw [henvelope]
  exact .timedOut r request timeoutMs howner hrequest

end Sequenced

/-- A call begins to receive only when it may join the `recvFrame` calls that
earlier calls have left behind. -/
def JoinsInOrder (client : Client Value) : ClientEvent → Prop
  | .resume i => ∀ c id timeoutMs,
      (client.calls i).phase = .sending c id timeoutMs (.settled (.ok ())) →
        Joinable (client.conns c) (client.reads.map Read.frame)
  | _ => True

namespace Sequenced

variable {client next : Client Value} {frames frames' : List (List UInt8)}
  {front front' : List UInt8} {requests requests' : List Envelope}

/-- A call whose request is written begins to receive. -/
theorem receive {i c id timeoutMs : Nat}
    (hseq : client.Sequenced format decode frames front requests)
    (hphase : (client.calls i).phase = .sending c id timeoutMs (.settled (.ok ())))
    (hjoinable : Joinable (client.conns 0) (client.reads.map Read.frame)) :
    ∃ frames' front' requests', (client.receive i id timeoutMs).Sequenced format decode frames'
      front' requests' := by
  obtain ⟨-, hbusy, request, bytes, before, henvelope, hid, hsmall, hserialize, hbefore, hputs⟩ :=
    hseq.of_sending hphase
  have houtput : format.Wrote (client.conns 0).output (requests ++ [request]) := by
    cases hputs with
    | writing send hfits hwriting => cases hwriting
    | written hfits hwritten =>
        rw [hwritten]
        exact hbefore.append hfits hserialize
  have hnext := receive_eq hseq.codec_eq i id timeoutMs
  obtain ⟨frames', front', hlined, hadvance⟩ :=
    hseq.line.lined.recvFrame hseq.line.connected hjoinable
  have hcalm := Calm.receive client i id timeoutMs
  have hcalls := receive_calls hseq.codec_eq i id timeoutMs
  have hreads := receive_reads hseq.codec_eq i id timeoutMs
  have hconn := receive_conns hseq.codec_eq i id timeoutMs
  have hcall := (congrFun hcalls i).trans (Function.update_self _ _ _)
  have hsame := recvFrame_eq (client.conns 0)
  refine ⟨frames', front', requests ++ [request], hseq.update hcalm ?_ ?_ ?_ ?_ ?_ hcalls ?_
    (List.prefix_append _ _) hadvance.grown ?_ ?_ ?_⟩
  · rw [hnext]
    exact hseq.id_le
  · rw [hconn, hreads, List.map_append]
    apply hseq.line.advance hlined hadvance <;> rw [hsame]
    rw [List.append_nil]
  · rw [hreads]
    intro read hread
    rcases List.mem_append.mp hread with hold | hnew
    · exact hseq.conns read hold
    · rw [List.mem_singleton.mp hnew]
  · rw [hreads, List.length_append, List.length_append, hseq.count, List.length_singleton,
      List.length_singleton]
  · intro other hother
    rcases List.mem_append.mp hother with hold | hnew
    · exact hseq.small other hold
    · rw [List.mem_singleton.mp hnew, hid]
      exact hsmall
  · rw [hreads, List.map_append]
    exact List.prefix_append _ _
  · exact fun h => (by cases h)
  · exact fun result h => (by cases h)
  · refine .receiving i client.reads.length id timeoutMs request (congrArg Call.phase hcall)
      (busy_of_calls hcalls ?_ hbusy.2) ?_ hid ?_ ?_ ?_
    · rw [hnext]
      exact hbusy.1
    · exact (congrArg Call.envelope hcall).trans henvelope
    · rw [hreads, List.map_append, ← @List.length_map _ _ client.reads Read.owner]
      exact List.getElem?_concat_length
    · rw [← hseq.count]
      exact List.getElem?_concat_length
    · rw [hconn, hsame]
      exact houtput

theorem resume {i : Nat}
    (hseq : client.Sequenced format decode frames front requests)
    (hjoins : client.JoinsInOrder (.resume i))
    (hstep : client.step format decode (.resume i) = some next) :
    ∃ frames' front' requests', next.Sequenced format decode frames' front' requests' := by
  have hcalm := Calm.resume format decode hstep
  have hresumes := resume_cases hstep
  cases hresumes with
  | starting hphase =>
      exact ⟨_, _, _, hseq.start (by rw [hphase]; trivial)⟩
  | receiving c id timeoutMs hphase =>
      obtain ⟨rfl, -⟩ := hseq.of_sending hphase
      exact hseq.receive hphase (hjoins 0 id timeoutMs hphase)
  | unsent c id timeoutMs error hphase =>
      obtain ⟨-, hbusy, request, bytes, before, henvelope, -, -, hserialize, hbefore, hputs⟩ :=
        hseq.of_sending hphase
      cases hputs with
      | writing send hfits hwriting => cases hwriting
      | refused hlarge houtput =>
          refine ⟨_, _, _, hseq.finish hbusy ?_ (by rwa [houtput])⟩
          rw [henvelope]
          exact .oversized request bytes hserialize hlarge
  | sending c id timeoutMs send result hphase hresume =>
      obtain ⟨rfl, hbusy, request, bytes, before, henvelope, hid, hsmall, hserialize, hbefore,
        hputs⟩ := hseq.of_sending hphase
      obtain ⟨send', conn⟩ := result
      obtain ⟨hputs', haccepted⟩ := hputs.resume hseq.line.accepted hseq.line.connected hresume
      have hconn : (client.sending i 0 id timeoutMs (send', conn)).conns 0 = conn :=
        sending_conns _ _ _ _ _ _
      have hcalls : (client.sending i 0 id timeoutMs (send', conn)).calls =
          Function.update client.calls i
            { client.calls i with phase := .sending 0 id timeoutMs send' } := rfl
      have hcall := (congrFun hcalls i).trans (Function.update_self _ _ _)
      refine ⟨frames, front, requests, hseq.update hcalm hseq.id_le ?_ hseq.conns hseq.count
        hseq.small hcalls List.prefix_rfl List.prefix_rfl List.prefix_rfl (fun h => (by cases h))
        (fun result h => (by cases h)) ?_⟩
      · rw [hconn]
        exact hseq.line.congr haccepted (FrameSend.resume_eq hresume)
      · refine .sending i id timeoutMs send' request bytes before (congrArg Call.phase hcall)
          (busy_of_calls hcalls hbusy.1 hbusy.2) ?_ hid hsmall hserialize hbefore ?_
        · exact (congrArg Call.envelope hcall).trans henvelope
        · rw [hconn]
          exact hputs'
  | received r id timeoutMs read result hphase hread hsettled =>
      obtain ⟨hbusy, houtput, request, henvelope, hid, howner, hrequest⟩ := hseq.of_receiving hphase
      have hframe : (client.reads.map Read.frame)[r]? = some (.settled result) := by
        rw [List.getElem?_map, hread, Option.map_some, hsettled]
      obtain ⟨payload, hpayload, rfl⟩ := hseq.line.lined.returned hframe
      refine ⟨_, _, _, hseq.finish hbusy ?_ houtput⟩
      rw [henvelope, ← hid]
      exact .answered r request payload howner hrequest hpayload
  | failing error hphase =>
      obtain ⟨hbusy, houtput, hended⟩ := hseq.of_failing hphase
      exact ⟨_, _, _, hseq.finish hbusy hended houtput⟩

/-- As long as no frame that comes is too large, the calls that join in order
stay in sequence. -/
theorem step {event : ClientEvent}
    (hseq : client.Sequenced format decode frames front requests)
    (hfits : frameHeader.scan front ≠ .stuck .oversized) (hundisturbed : event.Undisturbed)
    (hjoins : client.JoinsInOrder event) (hstep : client.step format decode event = some next) :
    ∃ frames' front' requests', next.Sequenced format decode frames' front' requests' := by
  cases event with
  | connect | disconnect | connected | connectFailed | close | error | sleepOver =>
      cases hundisturbed
  | call i service method encoded options => exact ⟨_, _, _, hseq.call hstep⟩
  | data c chunk =>
      obtain ⟨frames', front', hnext⟩ := hseq.data hstep
      exact ⟨frames', front', _, hnext⟩
  | written c send failure =>
      cases hundisturbed
      exact ⟨_, _, _, hseq.written hstep⟩
  | poll i => exact ⟨_, _, _, hseq.poll hstep⟩
  | timeout i => exact ⟨_, _, _, hseq.timeout hstep⟩
  | resume i => exact hseq.resume hjoins hstep
  | read r =>
      obtain ⟨frames', front', hnext⟩ := hseq.read hfits hstep
      exact ⟨frames', front', _, hnext⟩

end Sequenced

/-- What has been written are requests up to one that is not complete. -/
theorem Sequenced.wrote {client : Client Value} {frames : List (List UInt8)} {front : List UInt8}
    {requests : List Envelope} (hseq : client.Sequenced format decode frames front requests) :
    ∃ rest all, format.Wrote ((client.conns 0).output ++ rest) all := by
  cases hseq.flight with
  | free hfree hnone houtput => exact ⟨[], requests, by rwa [List.append_nil]⟩
  | receiving i r id timeoutMs request hphase hbusy henvelope hid howner hrequest houtput =>
      exact ⟨[], requests, by rwa [List.append_nil]⟩
  | failing i error hphase hbusy hended houtput =>
      exact ⟨[], requests, by rwa [List.append_nil]⟩
  | sending i id timeoutMs send request bytes before hphase hbusy henvelope hid hsmall hserialize
      hbefore hputs =>
      cases hputs with
      | refused hlarge houtput =>
          refine ⟨[], requests, ?_⟩
          rw [List.append_nil, houtput]
          exact hbefore
      | written hfits houtput =>
          refine ⟨[], requests ++ [request], ?_⟩
          rw [List.append_nil, houtput]
          exact hbefore.append hfits hserialize
      | writing send hfits hwriting =>
          cases hwriting with
          | header ticket hsend houtput =>
              refine ⟨bytes, requests ++ [request], ?_⟩
              rw [houtput, List.append_assoc, ← frameHeader_frame]
              exact hbefore.append hfits hserialize
          | body ticket hsend houtput =>
              refine ⟨[], requests ++ [request], ?_⟩
              rw [List.append_nil, houtput]
              exact hbefore.append hfits hserialize

/-! ## Runs on one connection -/

/-- The client once its first `connect` has succeeded. -/
def onConnection (config : ClientConfig) : Client Value :=
  { init config with codec := some 0, opened := 1, connects := [⟨none, .connected⟩] }

theorem onConnection_sequenced (config : ClientConfig) :
    (onConnection config : Client Value).Sequenced format decode [] [] [] where
  codec_eq := rfl
  opened_eq := rfl
  id_le := by
    change 1 ≤ 2 ^ 53
    decide
  line := ⟨rfl, fun _ hmem => (by cases hmem), rfl, frameHeader.fits_nil,
    ⟨fun _ _ hframe => (by cases hframe), .idle rfl rfl⟩⟩
  conns _ hmem := by cases hmem
  count := rfl
  small _ hmem := by cases hmem
  early _ _ := rfl
  ended _ _ hsettled := by cases hsettled
  flight := .free rfl (fun _ => id) .nil

theorem Moves.received_grows {client : Client Value} {c : Nat} {conn : UnixSocketConnection}
    (hmoves : client.Moves c conn) : (client.conns c).received <+: conn.received := by
  cases hmoves with
  | same => exact List.prefix_rfl
  | data chunk hlive =>
      rw [onData_eq]
      exact List.prefix_append _ _
  | ended conn hopened hended =>
      rcases hended with rfl | ⟨message, code, rfl⟩
      · exact ⟨[], by rw [List.append_nil, onClose_eq]⟩
      · exact ⟨[], by rw [List.append_nil, onError_eq]⟩
  | sent sends output => exact List.prefix_rfl
  | received hcodec =>
      exact ⟨[], by rw [List.append_nil, recvFrame_eq]⟩
  | read r read frame conn hread hconn hresume =>
      exact ⟨[], by rw [List.append_nil, FrameRead.resume_eq hresume]⟩

/-- As long as no frame that comes is too large, a run on one connection in which
the calls join in order keeps them in sequence. -/
theorem sequenced_of_run {config : ClientConfig} {events : List ClientEvent} {last : Client Value}
    (hundisturbed : ∀ event ∈ events, event.Undisturbed)
    (hjoins : Guarded (step format decode) JoinsInOrder (onConnection config) events)
    (hrun : run (step format decode) (onConnection config) events = some last)
    (hfits : (frameHeader.parse (last.conns 0).received).ending ≠ .oversized) :
    ∃ frames front requests, last.Sequenced format decode frames front requests := by
  refine run_invariant_of_along
    (fun client : Client Value => (frameHeader.parse (client.conns 0).received).ending ≠ .oversized →
      ∃ frames front requests, client.Sequenced format decode frames front requests)
    ?_ (fun _ => ⟨[], [], [], onConnection_sequenced config⟩)
    ((guarded_of_forall_mem hundisturbed).and hjoins) hrun hfits
  intro client event next hseq hallowed hstep hnext
  obtain ⟨more, hmore⟩ := (step_moves hstep 0).received_grows
  have hclient : (frameHeader.parse (client.conns 0).received).ending ≠ .oversized := by
    intro hending
    apply hnext
    rw [← hmore]
    exact frameHeader.parse_append_of_oversized hending more
  obtain ⟨frames, front, requests, hseq⟩ := hseq hclient
  refine hseq.step ?_ hallowed.1 hallowed.2 hstep
  intro hscan
  apply hclient
  rw [hseq.line.received_eq, frameHeader.parse_stream_append hseq.line.fits,
    frameHeader.parse_of_stuck hscan]

end Client

end Ibridger.Js
