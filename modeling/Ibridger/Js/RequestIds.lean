import Ibridger.Js.Deadlines
import Ibridger.Js.Exclusion
import Ibridger.Wire.RequestIds

/-! # Request ids and connections, in JS

`nextRequestId` belongs to the client, and `connect` does not set it back. So the ids
on a connection start from 1 only where no other connection and no failed request has
used up an id.
-/

namespace Ibridger.Js

open Transition UnixSocketConnection Wire

namespace Client

variable {Value : Type} {format : EnvelopeFormat}
  {decode : Nat → List UInt8 → Except String Value} {client next : Client Value}
  {event : ClientEvent}

variable (format) in
/-- A call writes only where the requests of all the other calls stand on the same
connection, with smaller ids. -/
def InStep (client : Client Value) (event : ClientEvent) : Prop :=
  WritesRequest format client event → ∀ c, client.codec = some c → ∀ j other,
    (client.calls j).envelope = some other →
      other ∈ format.envelopes (client.conns c).output ∧
        other.requestId.toNat < client.nextRequestId

variable (format) in
/-- On every connection the requests are numbered from 1 on. -/
def Restarts (client : Client Value) : Prop :=
  ∀ c, FromOne (format.requestIds (client.conns c).output)

variable (format) in
/-- The header of a call's request stands behind the requests in front of it, and its
body does not follow yet. -/
structure Headed (client : Client Value) (c i : Nat) (data before : List UInt8)
    (requests : List Envelope) (request : Envelope) : Prop where
  numbers : format.Numbers before requests
  output_eq : (client.conns c).output = before ++ BigEndian.toBytes 4 data.length
  envelope_eq : (client.calls i).envelope = some request
  parse_eq : format.parse data = .ok request
  id_eq : request.requestId.toNat = requests.length + 1
  pos : 0 < data.length
  fits : data.length ≤ MAX_FRAME_SIZE

variable (format) in
/-- A connection holds whole requests, and behind them at most a header. -/
inductive Stands (client : Client Value) (c : Nat) : Prop where
  | whole (requests : List Envelope) (hnumbers : format.Numbers (client.conns c).output requests)
  | headed (i : Nat) (data before : List UInt8) (requests : List Envelope) (request : Envelope)
      (hheaded : Headed format client c i data before requests request)

variable (format) in
/-- The requests on the connections, and the ids that they have used up. -/
structure Numbered (client : Client Value) : Prop where
  stands : ∀ c, Stands format client c
  named : ∀ c, ∀ request ∈ format.envelopes (client.conns c).output,
    ∃ i, (client.calls i).envelope = some request
  headed : ∀ i c id timeoutMs ticket data,
    (client.calls i).phase = .sending c id timeoutMs (.header ticket data) → 0 < data.length →
      ∃ before requests request, Headed format client c i data before requests request
  id_pos : 0 < client.nextRequestId
  id_le : client.nextRequestId ≤ 2 ^ 53
  spent : ∀ k, 0 < k → k < client.nextRequestId → ∃ i request,
    (client.calls i).envelope = some request ∧ request.requestId = UInt64.ofNat k

theorem Headed.envelopes_eq {c i : Nat} {data before : List UInt8} {requests : List Envelope}
    {request : Envelope} (hheaded : Headed format client c i data before requests request) :
    format.envelopes (client.conns c).output = requests := by
  rw [hheaded.output_eq]
  exact hheaded.numbers.envelopes_header hheaded.pos hheaded.fits

theorem Headed.congr {c i : Nat} {data before : List UInt8} {requests : List Envelope}
    {request : Envelope} (hheaded : Headed format client c i data before requests request)
    (houtput : (next.conns c).output = (client.conns c).output)
    (henvelope : (next.calls i).envelope = some request) :
    Headed format next c i data before requests request :=
  { hheaded with output_eq := houtput.trans hheaded.output_eq, envelope_eq := henvelope }

theorem Stands.congr {c : Nat} (hstands : Stands format client c)
    (houtput : (next.conns c).output = (client.conns c).output)
    (henvelopes : ∀ i request, (client.calls i).envelope = some request →
      (next.calls i).envelope = some request) : Stands format next c := by
  cases hstands with
  | whole requests hnumbers =>
      rw [← houtput] at hnumbers
      exact .whole requests hnumbers
  | headed i data before requests request hheaded =>
      exact .headed i data before requests request
        (hheaded.congr houtput (henvelopes i request hheaded.envelope_eq))

theorem Stands.restarts {c : Nat} (hstands : Stands format client c) :
    FromOne (format.requestIds (client.conns c).output) := by
  cases hstands with
  | whole requests hnumbers => exact hnumbers.requestIds
  | headed i data before requests request hheaded =>
      rw [EnvelopeFormat.requestIds, hheaded.envelopes_eq]
      exact hheaded.numbers.fromOne

theorem init_numbered (config : ClientConfig) : Numbered format (init config : Client Value) := by
  refine ⟨fun c => .whole [] .nil, ?_, ?_, Nat.one_pos, Nat.one_le_two_pow, ?_⟩
  · intro c request hmem
    change request ∈ format.envelopes [] at hmem
    rw [(@EnvelopeFormat.Emitted.nil format).envelopes_eq] at hmem
    cases hmem
  · intro i c id timeoutMs ticket data hphase
    cases hphase
  · intro k hpos hlt
    exact absurd hpos (Nat.not_lt.mpr (Nat.le_of_lt_succ hlt))

/-- A step that writes nothing and takes no id. -/
theorem Numbered.congr (hnumbered : Numbered format client)
    (houtput : ∀ c, (next.conns c).output = (client.conns c).output)
    (henvelopes : ∀ i request, (client.calls i).envelope = some request →
      (next.calls i).envelope = some request)
    (hphases : ∀ i c id timeoutMs ticket data,
      (next.calls i).phase = .sending c id timeoutMs (.header ticket data) →
        (client.calls i).phase = .sending c id timeoutMs (.header ticket data))
    (hid : next.nextRequestId = client.nextRequestId) : Numbered format next := by
  refine ⟨?_, ?_, ?_, ?_, ?_, ?_⟩
  · intro c
    exact (hnumbered.stands c).congr (houtput c) henvelopes
  · intro c request hmem
    rw [houtput] at hmem
    obtain ⟨i, hrequest⟩ := hnumbered.named c request hmem
    exact ⟨i, henvelopes i request hrequest⟩
  · intro i c id timeoutMs ticket data hphase hpos
    obtain ⟨before, requests, request, hheaded⟩ :=
      hnumbered.headed i c id timeoutMs ticket data (hphases i c id timeoutMs ticket data hphase) hpos
    exact ⟨before, requests, request,
      hheaded.congr (houtput c) (henvelopes i request hheaded.envelope_eq)⟩
  · rw [hid]
    exact hnumbered.id_pos
  · rw [hid]
    exact hnumbered.id_le
  · intro k hpos hlt
    rw [hid] at hlt
    obtain ⟨i, request, hrequest, hk⟩ := hnumbered.spent k hpos hlt
    exact ⟨i, request, henvelopes i request hrequest, hk⟩

/-- A call that goes on without writing. -/
theorem Numbered.update (hnumbered : Numbered format client) {i : Nat} {phase : CallPhase Value}
    (hcalls : next.calls =
      Function.update client.calls i { client.calls i with phase := phase })
    (houtput : ∀ c, (next.conns c).output = (client.conns c).output)
    (hphase : ∀ c id timeoutMs ticket data,
      phase ≠ .sending c id timeoutMs (.header ticket data))
    (hid : next.nextRequestId = client.nextRequestId) : Numbered format next := by
  refine hnumbered.congr houtput ?_ ?_ hid
  · intro j request hrequest
    rw [hcalls]
    by_cases hj : j = i
    · subst hj
      rw [Function.update_self]
      exact hrequest
    · rw [Function.update_of_ne hj]
      exact hrequest
  · intro j c id timeoutMs ticket data hnext
    rw [hcalls] at hnext
    by_cases hj : j = i
    · subst hj
      rw [Function.update_self] at hnext
      exact absurd hnext (hphase c id timeoutMs ticket data)
    · rwa [Function.update_of_ne hj] at hnext

/-! ## The id of the next request -/

/-- Where the requests of all calls stand on a connection, it holds whole requests, and
the next id follows the last of theirs. -/
theorem Numbered.next_id (hnumbered : Numbered format client) {c : Nat}
    (hothers : ∀ j other, (client.calls j).envelope = some other →
      other ∈ format.envelopes (client.conns c).output ∧
        other.requestId.toNat < client.nextRequestId) :
    ∃ requests, format.Numbers (client.conns c).output requests ∧
      client.nextRequestId = requests.length + 1 := by
  have hpos := hnumbered.id_pos
  have hle := hnumbered.id_le
  cases hnumbered.stands c with
  | whole requests hnumbers =>
      refine ⟨requests, hnumbers, ?_⟩
      rw [hnumbers.emitted.envelopes_eq] at hothers
      have hlength : (requests.map Envelope.requestId).length = client.nextRequestId - 1 := by
        apply hnumbers.fromOne.length_eq (by omega)
        · intro k hk hlast
          obtain ⟨j, other, hother, hid⟩ := hnumbered.spent k hk (by omega)
          rw [← hid]
          exact List.mem_map_of_mem (hothers j other hother).1
        · intro id hmem
          obtain ⟨other, hother, rfl⟩ := List.mem_map.mp hmem
          rw [← hnumbers.emitted.envelopes_eq] at hother
          obtain ⟨j, hrequest⟩ := hnumbered.named c other hother
          have hlt := (hothers j other hrequest).2
          omega
      rw [List.length_map] at hlength
      omega
  | headed i data before requests request hheaded =>
      -- the request of the header has no body, so it is not among the others
      have hmem := (hothers i request hheaded.envelope_eq).1
      rw [hheaded.envelopes_eq] at hmem
      have hin := (hheaded.numbers.fromOne.mem_iff.mp (List.mem_map_of_mem hmem)).2
      rw [List.length_map, hheaded.id_eq] at hin
      exact absurd hin (Nat.not_succ_le_self _)

/-! ## What is written -/

/-- The frame of a request begins with its header. -/
theorem sendFrame_written {conn : UnixSocketConnection} (hconnected : conn.connected = true)
    {data : List UInt8} (hfits : data.length ≤ MAX_FRAME_SIZE) :
    (∃ ticket, (sendFrame conn data).1 = .header ticket data) ∧
      (sendFrame conn data).2.output = conn.output ++ BigEndian.toBytes 4 data.length := by
  rw [sendFrame, if_neg (Nat.not_lt.mpr hfits), send_connected hconnected]
  exact ⟨⟨_, rfl⟩, rfl⟩

/-- A `sendFrame` that goes on writes the body behind its header, or nothing. -/
theorem resume_written {conn conn' : UnixSocketConnection} {send send' : FrameSend}
    (hresume : send.resume conn = some (send', conn')) :
    (∀ ticket data, send' ≠ .header ticket data) ∧
      (conn'.output = conn.output ∨ ∃ ticket data, send = .header ticket data ∧ 0 < data.length ∧
        conn'.output = conn.output ++ data) := by
  cases FrameSend.resume_cases hresume with
  | writes ticket data hdata hresolved =>
      refine ⟨fun _ _ h => (by cases h), ?_⟩
      unfold UnixSocketConnection.send
      split
      · exact .inr ⟨ticket, data, rfl, List.length_pos_of_ne_nil hdata, rfl⟩
      · exact .inl rfl
  | finishes | fails => exact ⟨fun _ _ h => (by cases h), .inl rfl⟩

theorem setConn_output {c : Nat} {conn : UnixSocketConnection}
    (houtput : conn.output = (client.conns c).output) (d : Nat) :
    ((client.setConn c conn).conns d).output = (client.conns d).output := by
  simp only [setConn, Function.update_apply]
  split
  next hsame => rw [hsame, houtput]
  next => rfl

theorem recv_output (conn : UnixSocketConnection) (length : Nat) :
    (conn.recv length).2.output = conn.output := by
  rw [recv_eq]

/-- Only calls write. -/
theorem step_output (hcall : ¬ event.OfCall) (hstep : client.step format decode event = some next)
    (c : Nat) : (next.conns c).output = (client.conns c).output := by
  cases event with
  | call | poll | timeout | resume => exact absurd trivial hcall
  | connect | disconnect | connected | connectFailed | sleepOver =>
      obtain ⟨-, hnext⟩ := connecting_eq (by trivial) rfl hstep
      rw [hnext]
  | data d chunk =>
      simp only [step] at hstep
      split at hstep
      · cases hstep
        exact setConn_output (by rw [onData_eq]) c
      · cases hstep
  | close d =>
      simp only [step] at hstep
      split at hstep
      · cases hstep
        rw [onDisconnect_eq]
        exact setConn_output (by rw [onClose_eq]) c
      · cases hstep
  | error d message code =>
      simp only [step] at hstep
      split at hstep
      · cases hstep
        rw [onDisconnect_eq]
        exact setConn_output (by rw [onError_eq]) c
      · cases hstep
  | written d send failure =>
      simp only [step] at hstep
      split at hstep
      · cases hstep
        refine setConn_output ?_ c
        unfold onWritten
        split <;> rfl
      · cases hstep
  | read r =>
      obtain ⟨read, frame, conn, -, hresume, rfl⟩ := read_eq hstep
      exact setConn_output (by rw [FrameRead.resume_eq hresume]) c

/-! ## Steps -/

/-- A call that had no request has taken an id and begun to send on a connection. -/
structure Took (client : Client Value) (i c : Nat) (request : Envelope)
    (result : FrameSend × UnixSocketConnection) (next : Client Value) : Prop where
  envelope_eq : (next.calls i).envelope = some request
  others : ∀ j other, (client.calls j).envelope = some other →
    (next.calls j).envelope = some other
  requestId_eq : request.requestId = UInt64.ofNat client.nextRequestId
  nextRequestId_eq : next.nextRequestId = increment client.nextRequestId
  conns_eq : next.conns = Function.update client.conns c result.2
  sending : ∀ j d id timeoutMs ticket data,
    (next.calls j).phase = .sending d id timeoutMs (.header ticket data) →
      j = i ∧ d = c ∧ result.1 = .header ticket data

theorem begun_took {i c : Nat} {payload : List UInt8} {phase : CallPhase Value}
    {result : FrameSend × UnixSocketConnection} (hexclusive : Exclusive client)
    (hfree : client.callInFlight = false) (hnone : (client.calls i).envelope = none)
    (hcalls : next.calls = ((client.begun i c payload).setPhase i phase).calls)
    (hconns : next.conns = Function.update client.conns c result.2)
    (hnext : next.nextRequestId = increment client.nextRequestId)
    (hphase : ∀ d id timeoutMs ticket data, phase = .sending d id timeoutMs (.header ticket data) →
      d = c ∧ result.1 = .header ticket data) :
    Took client i c (requestEnvelope (client.calls i) client.nextRequestId payload) result next := by
  rw [begun_setPhase_calls] at hcalls
  refine ⟨by rw [hcalls, Function.update_self], ?_, rfl, hnext, hconns, ?_⟩
  · intro j other hother
    have hj : j ≠ i := by
      rintro rfl
      rw [hnone] at hother
      cases hother
    rw [hcalls, Function.update_of_ne hj, hother]
  · intro j d id timeoutMs ticket data hsending
    rw [hcalls] at hsending
    by_cases hj : j = i
    · subst hj
      rw [Function.update_self] at hsending
      exact ⟨rfl, hphase d id timeoutMs ticket data hsending⟩
    · -- no other call is under way
      rw [Function.update_of_ne hj] at hsending
      exact absurd (by rw [hsending]; trivial) (hexclusive.free hfree j)

namespace Took

variable {i c : Nat} {request : Envelope} {result : FrameSend × UnixSocketConnection}

theorem output_of_ne (htook : Took client i c request result next) {d : Nat} (hd : d ≠ c) :
    (next.conns d).output = (client.conns d).output := by
  rw [htook.conns_eq, Function.update_of_ne hd]

theorem named (htook : Took client i c request result next) (hnumbered : Numbered format client)
    {d : Nat} {other : Envelope} (hmem : other ∈ format.envelopes (client.conns d).output) :
    ∃ j, (next.calls j).envelope = some other := by
  obtain ⟨j, hj⟩ := hnumbered.named d other hmem
  exact ⟨j, htook.others j other hj⟩

/-- The ids taken are those of the requests made. -/
theorem numbered (htook : Took client i c request result next) (hnumbered : Numbered format client)
    (hstands : ∀ d, Stands format next d)
    (hnamed : ∀ d, ∀ other ∈ format.envelopes (next.conns d).output,
      ∃ j, (next.calls j).envelope = some other)
    (hheaded : ∀ ticket data, result.1 = .header ticket data → 0 < data.length →
      ∃ before requests, Headed format next c i data before requests request) :
    Numbered format next := by
  have hpos := hnumbered.id_pos
  have hle := hnumbered.id_le
  have hvalue : next.nextRequestId = client.nextRequestId + 1 ∧ client.nextRequestId < 2 ^ 53 ∨
      next.nextRequestId = client.nextRequestId := by
    rw [htook.nextRequestId_eq, increment]
    split
    next hlt => exact .inl ⟨rfl, hlt⟩
    next => exact .inr rfl
  refine ⟨hstands, hnamed, ?_, by omega, by omega, ?_⟩
  · intro j d id timeoutMs ticket data hphase hdata
    obtain ⟨rfl, rfl, hsend⟩ := htook.sending j d id timeoutMs ticket data hphase
    obtain ⟨before, requests, hhead⟩ := hheaded ticket data hsend hdata
    exact ⟨before, requests, request, hhead⟩
  · intro k hk hlast
    by_cases hsame : k = client.nextRequestId
    · exact ⟨i, request, htook.envelope_eq, by rw [htook.requestId_eq, hsame]⟩
    · obtain ⟨j, other, hother, hid⟩ := hnumbered.spent k hk (by omega)
      exact ⟨j, other, htook.others j other hother, hid⟩

/-- A request that cannot be sent uses up its id and nothing else. -/
theorem numbered_unsent (htook : Took client i c request result next)
    (hnumbered : Numbered format client) (hconn : result.2 = client.conns c)
    (hunsent : ∀ ticket data, result.1 ≠ .header ticket data) : Numbered format next := by
  have houtput : ∀ d, (next.conns d).output = (client.conns d).output := by
    intro d
    rw [htook.conns_eq, hconn, Function.update_eq_self]
  apply htook.numbered hnumbered
  · intro d
    exact (hnumbered.stands d).congr (houtput d) htook.others
  · intro d other hmem
    rw [houtput] at hmem
    exact htook.named hnumbered hmem
  · exact fun ticket data hsend => absurd hsend (hunsent ticket data)

/-- A request whose header is written behind the requests of all other calls. -/
theorem numbered_sent (htook : Took client i c request result next)
    (hnumbered : Numbered format client) {bytes : List UInt8}
    (hresult : result = sendFrame (client.conns c) bytes)
    (hconnected : (client.conns c).connected = true) (hfits : bytes.length ≤ MAX_FRAME_SIZE)
    (hparse : format.parse bytes = .ok request)
    (hothers : ∀ j other, (client.calls j).envelope = some other →
      other ∈ format.envelopes (client.conns c).output ∧
        other.requestId.toNat < client.nextRequestId) : Numbered format next := by
  obtain ⟨requests, hnumbers, hlast⟩ := hnumbered.next_id hothers
  obtain ⟨⟨ticket, hsend⟩, hwritten⟩ := sendFrame_written hconnected hfits
  rw [← hresult] at hsend hwritten
  have hid : request.requestId.toNat = requests.length + 1 := by
    have hsmall := Nat.lt_of_le_of_lt hnumbered.id_le (by decide : 2 ^ 53 < UInt64.size)
    rw [htook.requestId_eq, UInt64.toNat_ofNat_of_lt' hsmall, hlast]
  have houtput : (next.conns c).output =
      (client.conns c).output ++ BigEndian.toBytes 4 bytes.length := by
    rw [htook.conns_eq, Function.update_self, hwritten]
  have hbefore : ∀ other ∈ requests, ∃ j, (next.calls j).envelope = some other := by
    intro other hmem
    rw [← hnumbers.emitted.envelopes_eq] at hmem
    exact htook.named hnumbered hmem
  by_cases hpos : 0 < bytes.length
  · have hheaded : Headed format next c i bytes (client.conns c).output requests request :=
      ⟨hnumbers, houtput, htook.envelope_eq, hparse, hid, hpos, hfits⟩
    apply htook.numbered hnumbered
    · intro d
      by_cases hd : d = c
      · rw [hd]
        exact .headed i bytes _ requests request hheaded
      · exact (hnumbered.stands d).congr (htook.output_of_ne hd) htook.others
    · intro d other hmem
      by_cases hd : d = c
      · rw [hd, hheaded.envelopes_eq] at hmem
        exact hbefore other hmem
      · rw [htook.output_of_ne hd] at hmem
        exact htook.named hnumbered hmem
    · intro ticket' data hsend' _
      rw [hsend] at hsend'
      cases hsend'
      exact ⟨_, requests, hheaded⟩
  · -- a header that announces no bytes is a whole frame
    have hempty : bytes = [] := List.length_eq_zero_iff.mp (by omega)
    have hwhole : format.Numbers (next.conns c).output (requests ++ [request]) := by
      have happend := hnumbers.append hfits hparse hid
      rw [frameHeader_frame, hempty, List.append_nil] at happend
      rwa [houtput, hempty]
    apply htook.numbered hnumbered
    · intro d
      by_cases hd : d = c
      · rw [hd]
        exact .whole _ hwhole
      · exact (hnumbered.stands d).congr (htook.output_of_ne hd) htook.others
    · intro d other hmem
      by_cases hd : d = c
      · rw [hd, hwhole.emitted.envelopes_eq] at hmem
        rcases List.mem_append.mp hmem with hold | hnew
        · exact hbefore other hold
        · rw [List.mem_singleton.mp hnew]
          exact ⟨i, htook.envelope_eq⟩
      · rw [htook.output_of_ne hd] at hmem
        exact htook.named hnumbered hmem
    · intro ticket' data hsend' hdata
      rw [hsend] at hsend'
      cases hsend'
      exact absurd hdata hpos

end Took

/-- A call that starts has its request follow the others. -/
theorem Numbered.start (hnumbered : Numbered format client) (hexclusive : Exclusive client)
    (hgrounded : Grounded client) (hinverse : format.Inverse) {i : Nat}
    (hnone : (client.calls i).envelope = none)
    (hothers : ∀ c payload bytes, client.codec = some c → client.callInFlight = false →
      (client.calls i).encoded = .ok payload →
      format.serialize (requestEnvelope (client.calls i) client.nextRequestId payload) = some bytes →
      bytes.length ≤ MAX_FRAME_SIZE → ∀ j other, (client.calls j).envelope = some other →
        other ∈ format.envelopes (client.conns c).output ∧
          other.requestId.toNat < client.nextRequestId) :
    Numbered format (client.start format i) := by
  have hstarts := client.start_cases format i
  generalize client.start format i = next at hstarts ⊢
  cases hstarts with
  | rejected error =>
      exact hnumbered.update rfl (fun _ => rfl) (fun _ _ _ _ _ h => (by cases h)) rfl
  | unserializable c payload _ hfree _ _ =>
      have htook := @begun_took _ client _ i c payload (.failing .unserializable)
        (.settled (.ok ()), client.conns c) hexclusive hfree hnone rfl
        (Function.update_eq_self _ _).symm rfl fun _ _ _ _ _ h => (by cases h)
      exact htook.numbered_unsent hnumbered rfl fun _ _ h => (by cases h)
  | sending c payload bytes hcodec hfree hencoded hserialize =>
      have htook := @begun_took _ client
        ((client.begun i c payload).sending i c client.nextRequestId
          (client.timeoutMs (client.calls i)) (sendFrame (client.conns c) bytes))
        i c payload _ (sendFrame (client.conns c) bytes) hexclusive hfree hnone rfl rfl rfl
        fun _ _ _ _ _ hsending => by
          injection hsending with hd _ _ hsend
          exact ⟨hd.symm, hsend⟩
      by_cases hfits : bytes.length ≤ MAX_FRAME_SIZE
      · have hconnected : (client.conns c).connected = true := by
          by_contra hended
          exact hgrounded.not_codec (by simpa using hended) hcodec
        exact htook.numbered_sent hnumbered rfl hconnected hfits (hinverse _ bytes hserialize hfits)
          (hothers c payload bytes hcodec hfree hencoded hserialize hfits)
      · have hrefused : sendFrame (client.conns c) bytes =
            (.settled (.error (frameTooLargeError bytes.length)), client.conns c) :=
          if_pos (Nat.lt_of_not_le hfits)
        rw [hrefused] at htook ⊢
        exact htook.numbered_unsent hnumbered rfl fun _ _ h => (by cases h)

/-- The body of a request completes it. -/
theorem Numbered.sending (hnumbered : Numbered format client) (hexclusive : Exclusive client)
    {i c id timeoutMs : Nat} {send : FrameSend} {result : FrameSend × UnixSocketConnection}
    (hphase : (client.calls i).phase = .sending c id timeoutMs send)
    (hresume : send.resume (client.conns c) = some result) :
    Numbered format (client.sending i c id timeoutMs result) := by
  obtain ⟨send', conn⟩ := result
  obtain ⟨hnot, hkept | ⟨ticket, data, rfl, hpos, hwritten⟩⟩ := resume_written hresume
  · have houtput : ∀ d, ((client.sending i c id timeoutMs (send', conn)).conns d).output =
        (client.conns d).output := setConn_output hkept
    refine hnumbered.update rfl houtput ?_ rfl
    intro d id' timeoutMs' ticket data hsame
    injection hsame with _ _ _ hsend
    exact hnot ticket data hsend
  · obtain ⟨before, requests, request, hheaded⟩ :=
      hnumbered.headed i c id timeoutMs ticket data hphase hpos
    have hcalls : (client.sending i c id timeoutMs (send', conn)).calls = Function.update client.calls
        i { client.calls i with phase := .sending c id timeoutMs send' } := rfl
    have hconns : (client.sending i c id timeoutMs (send', conn)).conns =
        Function.update client.conns c conn := rfl
    have hnext : (client.sending i c id timeoutMs (send', conn)).nextRequestId =
        client.nextRequestId := rfl
    generalize client.sending i c id timeoutMs (send', conn) = next at hcalls hconns hnext ⊢
    have henvelope : ∀ j, (next.calls j).envelope = (client.calls j).envelope := by
      intro j
      rw [hcalls, Function.update_apply]
      split
      next hj => rw [hj]
      next => rfl
    have houtput : ∀ d, d ≠ c → (next.conns d).output = (client.conns d).output := by
      intro d hd
      rw [hconns, Function.update_of_ne hd]
    have hwhole : format.Numbers (next.conns c).output (requests ++ [request]) := by
      have happend := hheaded.numbers.append hheaded.fits hheaded.parse_eq hheaded.id_eq
      rw [frameHeader_frame, ← List.append_assoc, ← hheaded.output_eq] at happend
      rwa [hconns, Function.update_self, hwritten]
    refine ⟨?_, ?_, ?_, ?_, ?_, ?_⟩
    · intro d
      by_cases hd : d = c
      · rw [hd]
        exact .whole _ hwhole
      · refine (hnumbered.stands d).congr (houtput d hd) ?_
        intro j other hother
        rw [henvelope, hother]
    · intro d other hmem
      by_cases hd : d = c
      · rw [hd, hwhole.emitted.envelopes_eq] at hmem
        rcases List.mem_append.mp hmem with hold | hnew
        · rw [← hheaded.envelopes_eq] at hold
          obtain ⟨j, hj⟩ := hnumbered.named c other hold
          exact ⟨j, (henvelope j).trans hj⟩
        · rw [List.mem_singleton.mp hnew]
          exact ⟨i, (henvelope i).trans hheaded.envelope_eq⟩
      · rw [houtput d hd] at hmem
        obtain ⟨j, hj⟩ := hnumbered.named d other hmem
        exact ⟨j, (henvelope j).trans hj⟩
    · -- only one call is under way
      intro j d id' timeoutMs' ticket' data' hsending
      rw [hcalls] at hsending
      by_cases hj : j = i
      · rw [hj, Function.update_self] at hsending
        injection hsending with _ _ _ hsend
        exact absurd hsend (hnot ticket' data')
      · rw [Function.update_of_ne hj] at hsending
        exact absurd (hexclusive.single j i (by rw [hsending]; trivial) (by rw [hphase]; trivial)) hj
    · rw [hnext]
      exact hnumbered.id_pos
    · rw [hnext]
      exact hnumbered.id_le
    · intro k hk hlast
      rw [hnext] at hlast
      obtain ⟨j, other, hother, hid⟩ := hnumbered.spent k hk hlast
      exact ⟨j, other, (henvelope j).trans hother, hid⟩

theorem Numbered.finish (hnumbered : Numbered format client) (i : Nat)
    (result : Except CallError Value) : Numbered format (client.finish i result) :=
  hnumbered.update rfl (fun _ => rfl) (fun _ _ _ _ _ h => (by cases h)) rfl

theorem Numbered.setPhase (hnumbered : Numbered format client) (i : Nat)
    {phase : CallPhase Value} (hphase : ∀ c id timeoutMs ticket data,
      phase ≠ .sending c id timeoutMs (.header ticket data)) :
    Numbered format (client.setPhase i phase) :=
  hnumbered.update rfl (fun _ => rfl) hphase rfl

/-- A call that the user makes has no request yet. -/
theorem Numbered.called (hnumbered : Numbered format client) (hblank : Blank client) {i : Nat}
    (hidle : (client.calls i).phase = .idle) (service method : String)
    (encoded : Except String (List UInt8)) (options : CallOptions) :
    Numbered format (client.called i service method encoded options) ∧
      ∀ j, ((client.called i service method encoded options).calls j).envelope =
        (client.calls j).envelope := by
  have hother : ∀ j, j ≠ i →
      (client.called i service method encoded options).calls j = client.calls j :=
    fun j hj => Function.update_of_ne hj _ _
  have hsame : ∀ j, ((client.called i service method encoded options).calls j).envelope =
      (client.calls j).envelope := by
    intro j
    by_cases hj : j = i
    · rw [hj, called_blank, hblank i (by rw [hidle]; trivial)]
    · rw [hother j hj]
  refine ⟨hnumbered.congr (fun _ => rfl) ?_ ?_ rfl, hsame⟩
  · intro j request hrequest
    rw [hsame, hrequest]
  · intro j c id timeoutMs ticket data hphase
    by_cases hj : j = i
    · subst hj
      rw [Client.called, setCall] at hphase
      dsimp only at hphase
      rw [Function.update_self] at hphase
      cases hphase
    · rwa [hother j hj] at hphase

theorem Numbered.resume (hnumbered : Numbered format client) (hexclusive : Exclusive client)
    (hgrounded : Grounded client) (hblank : Blank client) (hinverse : format.Inverse) {i : Nat}
    (hinstep : InStep format client (.resume i))
    (hresume : client.resume format decode i = some next) : Numbered format next := by
  cases resume_cases hresume with
  | starting hphase =>
      apply hnumbered.start hexclusive hgrounded hinverse (hblank i (by rw [hphase]; trivial))
      intro c payload bytes hcodec hfree hencoded hserialize hfits
      refine hinstep ⟨client.calls i, c, payload, bytes, ?_, hcodec, hfree, hencoded, hserialize,
        hfits⟩ c hcodec
      simp only [starting, hphase]
  | receiving c id timeoutMs hphase =>
      unfold receive
      split
      · exact hnumbered.finish i _
      next d _ =>
        exact hnumbered.update rfl (setConn_output (recv_output _ _))
          (fun _ _ _ _ _ h => (by cases h)) rfl
  | sending c id timeoutMs send result hphase hsend => exact hnumbered.sending hexclusive hphase hsend
  | unsent | received | failing => exact hnumbered.finish i _

theorem Numbered.step (hnumbered : Numbered format client) (hexclusive : Exclusive client)
    (hgrounded : Grounded client) (hblank : Blank client) (hinverse : format.Inverse)
    (hinstep : InStep format client event)
    (hstep : client.step format decode event = some next) : Numbered format next := by
  by_cases hcall : ¬ event.OfCall
  · have hkept := step_callsKept hcall hstep
    refine hnumbered.congr (step_output hcall hstep) ?_ ?_ hkept.nextRequestId_eq
    · intro i request hrequest
      rw [hkept.calls_eq, hrequest]
    · intro i c id timeoutMs ticket data hphase
      rwa [hkept.calls_eq] at hphase
  cases event with
  | call i service method encoded options =>
      obtain ⟨hidle, hnext⟩ := call_cases hstep
      obtain ⟨hcalled, hsame⟩ := hnumbered.called hblank hidle service method encoded options
      rcases hnext with ⟨-, rfl⟩ | rfl
      · exact hcalled.setPhase i fun _ _ _ _ _ h => (by cases h)
      · have hidle' : ¬ (client.calls i).phase.InFlight := by
          rw [hidle]
          exact id
        apply hcalled.start (hexclusive.goesOn rfl rfl (iff_of_false id hidle'))
          ⟨⟨hgrounded.live.codec, hgrounded.live.unopened⟩, hgrounded.opened, hgrounded.ended⟩
          hinverse (client.called_blank i service method encoded options)
        intro c payload bytes hcodec hfree hencoded hserialize hfits j other hsome
        rw [hsame] at hsome
        refine hinstep ⟨_, c, payload, bytes, ?_, hcodec, hfree, hencoded, hserialize, hfits⟩
          c hcodec j other hsome
        simp only [starting, hidle]
  | poll i =>
      obtain ⟨-, rfl | rfl | rfl⟩ := poll_cases hstep
      · exact hnumbered.setPhase i fun _ _ _ _ _ h => (by cases h)
      · exact hnumbered
      · exact hnumbered.setPhase i fun _ _ _ _ _ h => (by cases h)
  | timeout i =>
      obtain ⟨r, id, timeoutMs, -, rfl⟩ := timeout_cases hstep
      exact hnumbered.setPhase i fun _ _ _ _ _ h => (by cases h)
  | resume i => exact hnumbered.resume hexclusive hgrounded hblank hinverse hinstep hstep
  | connect | disconnect | connected | connectFailed | data | close | error | written | sleepOver
  | read => exact absurd id hcall

/-- In a run in which every request is written in step with the others, the ids on every
connection start from 1. -/
theorem request_ids_restart (config : ClientConfig) (hinverse : format.Inverse)
    {events : List ClientEvent}
    (hguard : Guarded (step format decode) (InStep format) (init config) events) :
    Throughout (step format decode) (Restarts format) (init config) events := by
  refine throughout_of_guarded (fun client => Exclusive client ∧ Grounded client ∧ Blank client ∧
    Numbered format client) ?_ ?_ ?_ hguard
  · rintro client ⟨-, -, -, hnumbered⟩ c
    exact (hnumbered.stands c).restarts
  · rintro client event next ⟨hexclusive, hgrounded, hblank, hnumbered⟩ hinstep hstep
    exact ⟨hexclusive.step hstep, hgrounded.step hstep, (step_takes hblank hstep).1,
      hnumbered.step hexclusive hgrounded hblank hinverse hinstep hstep⟩
  · exact ⟨init_exclusive config, init_grounded config, fun _ _ => rfl, init_numbered config⟩

/-- What protobuf.js writes for the second request of a client. -/
def twoRequests : List (Envelope × List UInt8) :=
  firstRequest ++ [({ namelessRequest with requestId := 2 }, [8, 0, 16, 2, 26, 0, 34, 0, 42, 0])]

/-- A call loses its connection, and the user connects again and calls. -/
def callsAgain : List ClientEvent :=
  [.connect, .connected 0 false, .call 0 "" "" (.ok []) {}, .close 0,
    .written 0 0 (some ("write EPIPE", some "EPIPE")), .resume 0, .resume 0, .connect,
    .connected 1 false, .call 1 "" "" (.ok []) {}, .written 1 0 none, .resume 1]

/-- The first request on the second connection has the id 2. -/
theorem callsAgain_output :
    ∃ client : Client (List UInt8),
      run (step (.knowing twoRequests) fun _ => .ok) (init {}) callsAgain = some client ∧
      (client.conns 1).output = frameHeader.frame [8, 0, 16, 2, 26, 0, 34, 0, 42, 0] := by
  have hfirst : (EnvelopeFormat.knowing twoRequests).serialize namelessRequest =
      some [8, 0, 16, 1, 26, 0, 34, 0, 42, 0] :=
    EnvelopeFormat.knowing_serialize (by decide) (by decide)
  have hsecond : (EnvelopeFormat.knowing twoRequests).serialize
      { namelessRequest with requestId := 2 } = some [8, 0, 16, 2, 26, 0, 34, 0, 42, 0] :=
    EnvelopeFormat.knowing_serialize (by decide) (by decide)
  refine ⟨_, run_cons_eq_some.mpr ⟨_, rfl, run_cons_eq_some.mpr ⟨_, rfl, run_cons_eq_some.mpr
    ⟨_, call_eq_some rfl rfl rfl rfl hfirst, run_cons_eq_some.mpr ⟨_, rfl, run_cons_eq_some.mpr
    ⟨_, rfl, run_cons_eq_some.mpr ⟨_, rfl, run_cons_eq_some.mpr ⟨_, rfl, run_cons_eq_some.mpr
    ⟨_, rfl, run_cons_eq_some.mpr ⟨_, rfl, run_cons_eq_some.mpr
    ⟨_, call_eq_some rfl rfl rfl rfl hsecond, rfl⟩⟩⟩⟩⟩⟩⟩⟩⟩⟩, rfl⟩

end Client

end Ibridger.Js
