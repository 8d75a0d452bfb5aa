import Ibridger.Js.Abandoned
import Ibridger.Js.SameConnection

/-! # Oversized frames in the JS client

`recvFrame` throws at a header that announces too much, behind which the stream
is no longer in step with the frames. Nobody closes the connection.
-/

namespace Ibridger.Js.Client

open Transition UnixSocketConnection Wire

variable {Value : Type} {format : EnvelopeFormat}
  {decode : Nat → List UInt8 → Except String Value}

/-- The step rejects a header that announces too much; `recv` has read the header. -/
def RejectsHeader (client : Client Value) (event : ClientEvent) (c recv : Nat) : Prop :=
  ∃ r reader bytes, event = .read r ∧ client.reads[r]? = some ⟨reader, c, .header recv⟩ ∧
    (client.conns c).recvOutcome recv = .resolved bytes ∧ MAX_FRAME_SIZE < readUInt32BE bytes

variable (format decode) in
/-- The connection is left, and none of its bytes behind those of `recv` is handed out. -/
structure Sealed (client : Client Value) (c recv : Nat) : Prop where
  left : Left format decode client c
  withheld : ∀ last, Reachable (step format decode) client last → ∀ later bytes, recv < later →
    (last.conns c).recvOutcome later ≠ .resolved bytes

/-- The connection has ended, no bytes behind those of `recv` have been handed out,
and no `recvFrame` holds a header whose body is there. -/
structure Exhausted (client : Client Value) (c recv : Nat) : Prop where
  closed : (client.conns c).connected = false
  withheld : ∀ later bytes, recv < later → (client.conns c).recvOutcome later ≠ .resolved bytes
  unserved : ∀ (r reader other : Nat) (bytes : List UInt8), client.reads[r]? = some ⟨reader, c, .header other⟩ →
    (client.conns c).recvOutcome other = .resolved bytes → 0 < readUInt32BE bytes →
    readUInt32BE bytes ≤ MAX_FRAME_SIZE → (client.conns c).buffer.length < readUInt32BE bytes

variable (format decode) in
/-- A connection with an oversized frame is sealed behind the header. -/
def SealsOversized (client : Client Value) (event : ClientEvent) (next : Client Value) : Prop :=
  ∀ c recv, client.RejectsHeader event c recv → Sealed format decode next c recv

/-- An oversized frame comes only as the last that an ended connection has to give. -/
def OversizedOnlyLast (client : Client Value) (event : ClientEvent) : Prop :=
  ∀ c recv, client.RejectsHeader event c recv → client.Exhausted c recv

/-! ## What an exhausted connection gives -/

theorem recvOutcome_append {conn next : UnixSocketConnection} {recv : Recv}
    (happend : next.recvs = conn.recvs ++ [recv]) (k : Nat) :
    next.recvOutcome k =
      if k = conn.recvs.length then recv.outcome else conn.recvOutcome k := by
  unfold recvOutcome
  rw [happend]
  rcases Nat.lt_trichotomy k conn.recvs.length with hlt | rfl | hgt
  · rw [List.getElem?_append_left hlt, if_neg (Nat.ne_of_lt hlt)]
  · simp
  · rw [if_neg (Nat.ne_of_gt hgt), List.getElem?_eq_none (Nat.le_of_lt hgt),
      List.getElem?_eq_none (by simpa using Nat.succ_le_of_lt hgt)]

theorem lt_of_recvOutcome {conn : UnixSocketConnection} {recv : Nat} {bytes : List UInt8}
    (houtcome : conn.recvOutcome recv = .resolved bytes) : recv < conn.recvs.length := by
  by_contra hge
  rw [recvOutcome, List.getElem?_eq_none (Nat.le_of_not_lt hge)] at houtcome
  cases houtcome

/-- Nothing new comes out of the connection. -/
structure Stale (conn next : UnixSocketConnection) : Prop where
  closed : next.connected = false
  buffer_eq : next.buffer = conn.buffer
  outcome : ∀ k bytes, next.recvOutcome k = .resolved bytes → conn.recvOutcome k = .resolved bytes

theorem Moves.stale {client : Client Value} {c recv : Nat} {conn : UnixSocketConnection}
    (hmoves : Moves client c conn) (hgrounded : Grounded client)
    (hexhausted : client.Exhausted c recv) : Stale (client.conns c) conn := by
  obtain ⟨hsocket, hwaiters⟩ := hgrounded.ended c hexhausted.closed
  have hsame : Stale (client.conns c) (client.conns c) := ⟨hexhausted.closed, rfl, fun _ _ h => h⟩
  cases hmoves with
  | same => exact hsame
  | data chunk hlive => exact absurd hlive hsocket
  | ended conn hopened hlost =>
      rcases hlost with rfl | ⟨message, code, rfl⟩
      · rw [onClose_of_no_waiters hwaiters]
        exact ⟨rfl, rfl, fun _ _ h => h⟩
      · simp only [onError, rejectWaiters, hwaiters, rejectEach]
        exact ⟨rfl, rfl, fun _ _ h => h⟩
  | sent sends output => exact ⟨hexhausted.closed, rfl, fun _ _ h => h⟩
  | received hcodec => exact absurd hcodec (hgrounded.not_codec hexhausted.closed)
  | read r read frame conn hread hconn hresume =>
      obtain ⟨reader, other, state⟩ := read
      cases hconn
      cases FrameRead.resume_cases hresume with
      | refuses | empty | returns | fails => exact hsame
      | reads header bytes houtcome hpos hfits =>
          have hshort := hexhausted.unserved r reader header bytes hread houtcome hpos hfits
          rw [UnixSocketConnection.recv, if_neg (Nat.not_le.mpr hshort), if_pos hexhausted.closed]
          refine ⟨hexhausted.closed, rfl, ?_⟩
          intro k taken hk
          rw [recvOutcome_append rfl] at hk
          split at hk
          · cases hk
          · exact hk

/-- A `recvFrame` that waits for a header has waited for it from its beginning. -/
theorem Reading.header {client : Client Value} {reads : List Read} (hreading : Reading client reads)
    {c r reader recv : Nat} (hcodec : client.codec ≠ some c)
    (hread : reads[r]? = some ⟨reader, c, .header recv⟩) :
    client.reads[r]? = some ⟨reader, c, .header recv⟩ := by
  cases hreading with
  | same => exact hread
  | begun i d hd =>
      rcases Nat.lt_or_ge r client.reads.length with hlt | hge
      · rwa [List.getElem?_append_left hlt] at hread
      · rw [List.getElem?_append_right hge] at hread
        cases List.mem_singleton.mp (List.mem_of_getElem? hread)
        exact absurd hd hcodec
  | continued q old frame conn hold hresume =>
      by_cases hsame : q = r
      · subst hsame
        rw [List.getElem?_set_self (List.getElem?_eq_some_iff.mp hold).1] at hread
        cases hread
        obtain ⟨reader, d, state⟩ := old
        cases FrameRead.resume_cases hresume
      · rwa [List.getElem?_set_ne hsame] at hread

theorem Exhausted.step {client next : Client Value} {event : ClientEvent} {c recv : Nat}
    (hexhausted : client.Exhausted c recv) (hgrounded : Grounded client)
    (hstep : client.step format decode event = some next) : next.Exhausted c recv := by
  have hstale := (step_moves hstep c).stale hgrounded hexhausted
  refine ⟨hstale.closed, ?_, ?_⟩
  · intro later bytes hlater houtcome
    exact hexhausted.withheld later bytes hlater (hstale.outcome later bytes houtcome)
  · intro r reader other bytes hread houtcome hsome hfits
    rw [hstale.buffer_eq]
    have hheader := (step_reading hstep).header (hgrounded.not_codec hexhausted.closed) hread
    exact hexhausted.unserved r reader other bytes hheader (hstale.outcome other bytes houtcome)
      hsome hfits

/-- A connection is sealed behind a header exactly when it is exhausted there. -/
theorem sealed_iff {client : Client Value} (hgrounded : Grounded client) {c recv : Nat}
    (hopened : c < client.opened) {header : List UInt8}
    (hheader : (client.conns c).recvOutcome recv = .resolved header) :
    Sealed format decode client c recv ↔ client.Exhausted c recv := by
  constructor
  · intro hsealed
    refine ⟨hsealed.left.closed, hsealed.withheld client (.refl client), ?_⟩
    intro r reader other bytes hread houtcome hsome hfits
    by_contra hserved
    -- the `recvFrame` would go on to take its body from the buffer
    obtain ⟨next, hstep, hrecvs⟩ : ∃ next, client.step format decode (.read r) = some next ∧
        (next.conns c).recvs = (client.conns c).recvs ++ [⟨readUInt32BE bytes,
          .resolved ((client.conns c).buffer.take (readUInt32BE bytes))⟩] := by
      simp only [Client.step, Client.read, hread, FrameRead.resume, houtcome]
      rw [if_neg (Nat.not_lt.mpr hfits), if_neg (Nat.ne_of_gt hsome), Option.map_some,
        UnixSocketConnection.recv, if_pos (Nat.le_of_not_lt hserved)]
      refine ⟨_, rfl, ?_⟩
      simp only [setConn, Function.update_self, splice]
    apply hsealed.withheld next (.single hstep) _ _ (lt_of_recvOutcome hheader)
    rw [recvOutcome_append hrecvs, if_pos rfl]
  · intro hexhausted
    refine ⟨(left_iff hgrounded hopened).mpr hexhausted.closed, ?_⟩
    intro last hlast
    have hinv := hlast.invariant (fun state => Grounded state ∧ state.Exhausted c recv)
      (fun _ _ _ hold hnext => ⟨hold.1.step hnext, hold.2.step hold.1 hnext⟩)
      ⟨hgrounded, hexhausted⟩
    exact hinv.2.withheld

theorem sealsOversized_iff {client next : Client Value} {event : ClientEvent}
    (hgrounded : Grounded client) (hstep : client.step format decode event = some next) :
    SealsOversized format decode client event next ↔ client.OversizedOnlyLast event := by
  apply forall_congr'
  intro c
  apply forall_congr'
  intro recv
  apply imp_congr_right
  rintro ⟨r, reader, bytes, rfl, hread, houtcome, hlarge⟩
  have hnext : next.conns = client.conns ∧ next.reads = client.reads.set r
      ⟨reader, c, .settled (.error (incomingFrameTooLargeError (readUInt32BE bytes)))⟩ := by
    simp only [Client.step, Client.read, hread, FrameRead.resume, houtcome] at hstep
    rw [if_pos hlarge] at hstep
    cases hstep
    exact ⟨Function.update_eq_self _ _, rfl⟩
  obtain ⟨hconns, hreads⟩ := hnext
  have hheader : (next.conns c).recvOutcome recv = .resolved bytes := by rw [hconns, houtcome]
  have hopened : c < next.opened :=
    Nat.lt_of_lt_of_le (hgrounded.opened _ (List.mem_of_getElem? hread)) (step_codec hstep).1
  rw [sealed_iff (hgrounded.step hstep) hopened hheader]
  have hlength := (List.getElem?_eq_some_iff.mp hread).1
  constructor
  · intro hexhausted
    refine ⟨hconns ▸ hexhausted.closed, hconns ▸ hexhausted.withheld, ?_⟩
    intro q other header found hq hfound hsome hfits
    have hne : r ≠ q := by
      rintro rfl
      rw [hread] at hq
      cases hq
      rw [houtcome] at hfound
      cases hfound
      exact Nat.not_le.mpr hlarge hfits
    rw [← hconns] at hfound ⊢
    refine hexhausted.unserved q other header found ?_ hfound hsome hfits
    rw [hreads, List.getElem?_set_ne hne]
    exact hq
  · intro hexhausted
    refine ⟨hconns ▸ hexhausted.closed, hconns ▸ hexhausted.withheld, ?_⟩
    intro q other header found hq hfound hsome hfits
    rw [hreads] at hq
    by_cases hsame : r = q
    · subst hsame
      rw [List.getElem?_set_self hlength] at hq
      cases hq
    · rw [List.getElem?_set_ne hsame] at hq
      rw [hconns] at hfound ⊢
      exact hexhausted.unserved q other header found hq hfound hsome hfits

/-- Along a run, every oversized frame seals its connection exactly when each is the
last that an ended connection has to give. -/
theorem oversized_seals_iff (config : ClientConfig) (events : List ClientEvent) :
    Along (step format decode) (SealsOversized format decode) (init config) events ↔
      Guarded (step format decode) OversizedOnlyLast (init config) events := by
  apply Along.congr_of_invariant Grounded
  · intro client event next hgrounded hstep
    exact hgrounded.step hstep
  · intro client event next hgrounded hstep
    exact sealsOversized_iff hgrounded hstep
  · exact init_grounded config

/-- The first two requests, as protobuf.js writes them, and a response to the second. -/
def secondResponse : List (Envelope × List UInt8) :=
  firstRequest ++ [({ namelessRequest with requestId := 2 }, [8, 0, 16, 2, 26, 0, 34, 0, 42, 0]),
    ({ Envelope.empty with type := .response, requestId := 2 }, [8, 1, 16, 2])]

/-- The first call fails at an oversized header, and the second takes the body
behind it for the response to its request. -/
theorem oversized_body_answers_next_call :
    ∃ client next last : Client (List UInt8),
      Reachable (step (.knowing secondResponse) fun _ => .ok) (init {}) client ∧
      client.step (.knowing secondResponse) (fun _ => .ok) (.read 0) = some next ∧
      ¬ SealsOversized (.knowing secondResponse) (fun _ => .ok) client (.read 0) next ∧
      Reachable (step (.knowing secondResponse) fun _ => .ok) next last ∧
      (last.calls 0).phase =
        .settled (.error (.transport (incomingFrameTooLargeError 4294967295))) ∧
      (last.calls 1).phase = .settled (.ok []) := by
  have hfirst : (EnvelopeFormat.knowing secondResponse).serialize namelessRequest =
      some [8, 0, 16, 1, 26, 0, 34, 0, 42, 0] :=
    EnvelopeFormat.knowing_serialize (by decide) (by decide)
  have hsecond : (EnvelopeFormat.knowing secondResponse).serialize
      { namelessRequest with requestId := 2 } = some [8, 0, 16, 2, 26, 0, 34, 0, 42, 0] :=
    EnvelopeFormat.knowing_serialize (by decide) (by decide)
  have hparse : (EnvelopeFormat.knowing secondResponse).parse [8, 1, 16, 2] =
      .ok { Envelope.empty with type := .response, requestId := 2 } :=
    EnvelopeFormat.knowing_parse (by decide) (by decide)
  obtain ⟨client, next, hrun, hread, houtcome, hstep, hconns, answered, hrest, hrejected, hphase,
      hbody⟩ :
      ∃ client next : Client (List UInt8),
        run (step (.knowing secondResponse) fun _ => .ok) (init {})
          [.connect, .connected 0 false, .call 0 "" "" (.ok []) {}, .written 0 0 none, .resume 0,
            .written 0 1 none, .resume 0, .resume 0,
            .data 0 [255, 255, 255, 255, 0, 0, 0, 4, 8, 1, 16, 2]] = some client ∧
        client.reads[0]? = some ⟨0, 0, .header 0⟩ ∧
        (client.conns 0).recvOutcome 0 = .resolved [255, 255, 255, 255] ∧
        client.step (.knowing secondResponse) (fun _ => .ok) (.read 0) = some next ∧
        (next.conns 0).connected = true ∧
        ∃ answered : Client (List UInt8),
          run (step (.knowing secondResponse) fun _ => .ok) next
            [.resume 0, .call 1 "" "" (.ok []) {}, .written 0 2 none, .resume 1, .written 0 3 none,
              .resume 1, .resume 1, .read 1, .read 1] = some answered ∧
          (answered.calls 0).phase =
            .settled (.error (.transport (incomingFrameTooLargeError 4294967295))) ∧
          (answered.calls 1).phase = .receiving 1 2 30000 ∧
          answered.reads[1]? = some ⟨1, 0, .settled (.ok [8, 1, 16, 2])⟩ :=
    ⟨_, _, run_cons_eq_some.mpr ⟨_, rfl, run_cons_eq_some.mpr ⟨_, rfl, run_cons_eq_some.mpr
      ⟨_, call_eq_some rfl rfl rfl rfl hfirst, rfl⟩⟩⟩, rfl, rfl, rfl, rfl, _,
      run_cons_eq_some.mpr ⟨_, rfl, run_cons_eq_some.mpr
        ⟨_, call_eq_some rfl rfl rfl rfl hsecond, rfl⟩⟩, rfl, rfl, rfl⟩
  refine ⟨client, next, _, ⟨_, hrun⟩, hstep, ?_,
    .trans ⟨_, hrest⟩ (.single (step_received hphase hbody)), ?_, ?_⟩
  · intro hseals
    have hsealed := hseals 0 0 ⟨0, 0, _, rfl, hread, houtcome, by decide⟩
    cases hconns.symm.trans hsealed.left.closed
  · exact hrejected
  · simp only [finish, settle, setPhase, setCall, Function.update_self, received, hparse]
    rfl

end Ibridger.Js.Client
