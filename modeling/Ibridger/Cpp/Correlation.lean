import Ibridger.Cpp.RetrySafety

/-! # Calls get their own responses

Whenever the mutex is free, every response that came on the current connection has
been read: a call reads the response to the request that it has just written, and
a connection on which a response is missing is given up. The peers are honest:
each answers the requests on its connection in order, once each.
-/

namespace Ibridger.Cpp

open LengthPrefix Transition Wire

/-- The request id that a call waits for never comes with an error of this kind. -/
def CallPhase.error? : CallPhase → Option ErrorCode
  | .idle => none
  | .sleeping _ _ resend => resend
  | .notifying after => some after.error
  | .returned (.error err) => some err
  | .returned (.ok _) => none

namespace Client

variable (format : EnvelopeFormat) (reply : Nat → Nat → Envelope → Envelope)

/-- What has come from each peer is a beginning of its responses to the requests
that it has read; `reply c k` is how the peer of connection `c` responds to its
request number `k`. -/
def Honest (client : Client) : Prop :=
  ∀ c, ∃ rest, format.Emitted ((client.links c).arrived ++ rest)
    ((format.envelopes (client.links c).conn.wire).mapIdx (reply c))

/-- A response that was produced on some connection for a request of the call. -/
def OwnResponse (client : Client) (i : Nat) (response : Envelope) : Prop :=
  ∃ c k write, (client.writesOn c)[k]? = some write ∧ write.call = i ∧
    (client.calls i).request = some write.request ∧ response = reply c k write.request

/-- Between two steps, nothing that has come on the current connection is unread. -/
structure Correlated (client : Client) : Prop where
  unopened : ∀ c, client.opened ≤ c →
    bytesOf (client.links c).conn.reads = [] ∧ (client.links c).arrived = []
  drained : ∀ c, client.codec = some c → bytesOf (client.links c).conn.reads = []
  answered : ∀ c, client.codec = some c → format.Emitted (client.links c).arrived
    (((client.writesOn c).map Write.request).mapIdx (reply c))
  own : ∀ i response, (client.calls i).phase = .returned (.ok response) →
    client.OwnResponse reply i response
  mismatch : ∀ i, (client.calls i).phase.error? ≠ some (.ibridger .protocolError)

/-- Request ids are taken one after the other, as long as they do not wrap. -/
structure Numbered (client : Client) : Prop where
  next_eq : client.nextRequestId = UInt64.ofNat (client.taken + 1)
  bounded : client.taken < 2 ^ 64 → ∀ i request, (client.calls i).request = some request →
    request.requestId.toNat ≤ client.taken
  increasing : client.taken < 2 ^ 64 → client.writes.Pairwise fun first second =>
    first.conn = second.conn → first.request.requestId < second.request.requestId

variable {format reply}

theorem Waits.error? {before after : CallPhase} (hwaits : Waits before after) :
    after.error? = before.error? ∨ after.error? = some (.ibridger .notConnected) := by
  cases hwaits with
  | asleep attempt delay => exact .inl rfl
  | refused => exact .inr rfl
  | again attempt delay => exact .inl rfl
  | @exhausted attempt delay resend =>
      cases resend with
      | none => exact .inr rfl
      | some err => exact .inl rfl
  | retried attempt delay => exact .inl rfl
  | unsent => exact .inl rfl
  | unresent => exact .inl rfl
  | unreceived => exact .inl rfl

theorem Waits.not_ok {before after : CallPhase} {response : Envelope}
    (hwaits : Waits before after) : after ≠ .returned (.ok response) := by
  intro hafter
  subst hafter
  cases hwaits

/-- More writes and more calls leave a response a call's own. -/
theorem OwnResponse.mono {client next : Client} {i : Nat} {response : Envelope}
    (hown : client.OwnResponse reply i response)
    (hwrites : client.writes <+: next.writes)
    (hrequest : (next.calls i).request = (client.calls i).request) :
    next.OwnResponse reply i response := by
  obtain ⟨c, k, write, hk, hcall, hsame, hresponse⟩ := hown
  refine ⟨c, k, write, ?_, hcall, hrequest.trans hsame, hresponse⟩
  have hinitial : client.writesOn c <+: next.writesOn c := hwrites.filter _
  obtain ⟨rest, hrest⟩ := hinitial
  rw [← hrest, List.getElem?_append_left (List.getElem?_eq_some_iff.mp hk).1, hk]

theorem Numbered.quiet {client next : Client} (hnumbered : Numbered client)
    (hquiet : Quiet client next) : Numbered next := by
  refine ⟨?_, ?_, ?_⟩
  · rw [hquiet.counters_eq.1, hquiet.counters_eq.2]
    exact hnumbered.next_eq
  · intro htaken i request hrequest
    rw [hquiet.counters_eq.2] at htaken ⊢
    rw [(hquiet.calls i).request_eq] at hrequest
    exact hnumbered.bounded htaken i request hrequest
  · intro htaken
    rw [hquiet.counters_eq.2] at htaken
    rw [hquiet.writes_eq]
    exact hnumbered.increasing htaken

theorem Correlated.quiet {client next : Client} (hcorrelated : Correlated format reply client)
    (honce : AtMostOnce format client) (hquiet : Quiet client next) :
    Correlated format reply next := by
  refine ⟨?_, ?_, ?_, ?_, ?_⟩
  · intro c hc
    rw [(hquiet.links c).2.2.1, (hquiet.links c).2.2.2]
    exact hcorrelated.unopened c (Nat.le_trans hquiet.opened_le hc)
  · intro c hc
    rw [(hquiet.links c).2.2.1]
    rcases hquiet.codec with ⟨hnone | hsame, -⟩ | ⟨-, hnew, -⟩
    · rw [hnone] at hc
      cases hc
    · exact hcorrelated.drained c (hsame ▸ hc)
    · rw [hnew] at hc
      cases hc
      exact (hcorrelated.unopened _ (Nat.le_refl _)).1
  · intro c hc
    rw [(hquiet.links c).2.2.2, writesOn, hquiet.writes_eq]
    rcases hquiet.codec with ⟨hnone | hsame, -⟩ | ⟨-, hnew, -⟩
    · rw [hnone] at hc
      cases hc
    · exact hcorrelated.answered c (hsame ▸ hc)
    · rw [hnew] at hc
      cases hc
      have hunwritten : client.writesOn client.opened = [] := honce.writesOn_opened (Nat.le_refl _)
      rw [← writesOn, hunwritten, (hcorrelated.unopened _ (Nat.le_refl _)).2]
      exact .nil
  · intro i response hreturned
    have hown : client.OwnResponse reply i response := by
      rcases (hquiet.calls i).phase with hsame | hwaits
      · exact hcorrelated.own i response (hsame ▸ hreturned)
      · exact absurd hreturned hwaits.not_ok
    apply hown.mono
    · exact hquiet.writes_eq ▸ List.prefix_refl client.writes
    · exact (hquiet.calls i).request_eq
  · intro i
    rcases (hquiet.calls i).phase with hsame | hwaits
    · rw [hsame]
      exact hcorrelated.mismatch i
    · rcases hwaits.error? with hsame | hnot
      · rw [hsame]
        exact hcorrelated.mismatch i
      · rw [hnot]
        simp

/-- A request id that has not wrapped is greater than all the earlier ones. -/
theorem Numbered.exchanging {client middle next : Client} {i c : Nat} {traffic : Traffic}
    {request : Envelope} {after : ErrorCode → AfterDisconnect} {error : Option ErrorCode}
    {conn : UnixSocketConnection} (hnumbered : Numbered client)
    (honce : AtMostOnce format client) (hprepared : Prepared client i c traffic request middle)
    (hexchanging : Exchanging format middle i c request after error conn next) :
    Numbered next := by
  obtain ⟨hnext, htaken, -⟩ := hexchanging.counters_eq
  have hrequest := hexchanging.own_request hprepared
  have hothers : ∀ j, j ≠ i → next.calls j = client.calls j :=
    fun j hj => hexchanging.others hprepared hj
  rcases hprepared.round with ⟨-, hid, hcounter, hcount⟩ | ⟨-, hpending, hcodec, hcounter, hcount⟩
  · rw [hcounter] at hnext
    rw [hcount] at htaken
    have hvalue : client.taken + 1 < 2 ^ 64 → request.requestId.toNat = client.taken + 1 := by
      intro hlt
      rw [hid, hnumbered.next_eq]
      exact UInt64.toNat_ofNat_of_lt hlt
    refine ⟨?_, ?_, ?_⟩
    · rw [hnext, htaken, hnumbered.next_eq, UInt64.ofNat_add (client.taken + 1) 1]
      rfl
    · intro hlt j other hother
      rw [htaken] at hlt ⊢
      by_cases hj : j = i
      · subst hj
        rw [hrequest] at hother
        cases hother
        rw [hvalue hlt]
      · rw [hothers j hj] at hother
        have hle := hnumbered.bounded (by omega) j other hother
        omega
    · intro hlt
      rw [htaken] at hlt
      rw [hexchanging.writes_eq, hprepared.writes_eq, List.pairwise_append]
      refine ⟨hnumbered.increasing (by omega), List.pairwise_singleton _ _, ?_⟩
      intro write hmem last hlast _
      rw [List.mem_singleton] at hlast
      subst hlast
      have hle := hnumbered.bounded (by omega) _ _ (honce.request_eq write hmem)
      rw [UInt64.lt_iff_toNat_lt, hvalue hlt]
      omega
  · rw [hcounter] at hnext
    rw [hcount] at htaken
    refine ⟨?_, ?_, ?_⟩
    · rw [hnext, htaken]
      exact hnumbered.next_eq
    · intro hlt j other hother
      rw [htaken] at hlt ⊢
      by_cases hj : j = i
      · subst hj
        rw [hrequest] at hother
        cases hother
        exact hnumbered.bounded hlt j request hpending
      · rw [hothers j hj] at hother
        exact hnumbered.bounded hlt j other hother
    · intro hlt
      rw [htaken] at hlt
      rw [hexchanging.writes_eq, hprepared.writes_eq, List.pairwise_append]
      refine ⟨hnumbered.increasing hlt, List.pairwise_singleton _ _, ?_⟩
      intro write hmem last hlast hconn
      rw [List.mem_singleton] at hlast
      subst hlast
      -- a request is sent again only on a connection without any writes
      have hne := (honce.prepared hprepared).2 write hmem
      have hfresh := honce.conn_lt write hmem
      rcases hprepared.conn with ⟨hopen, -⟩ | ⟨-, hnew, -⟩
      · rw [hcodec] at hopen
        cases hopen
      · exact absurd (hconn.trans hnew) (Nat.ne_of_lt hfresh)

/-- The peer of the current connection has read exactly the requests written on it. -/
theorem Streams.emitted {client : Client} {c : Nat} (hstreams : Streams format client)
    (hinverse : format.Inverse) (hopen : client.codec = some c) :
    format.Emitted (client.links c).conn.wire ((client.writesOn c).map Write.request) := by
  rw [hstreams.wire_eq]
  have hall : ∀ write ∈ client.writesOn c, write.Sound format ∧ write.error = none := by
    intro write hmem
    obtain ⟨hwrite, rfl⟩ := mem_writesOn.mp hmem
    exact ⟨hstreams.sound write hwrite, hstreams.alive write hwrite hopen⟩
  generalize client.writesOn c = writes at hall
  induction writes with
  | nil => exact .nil
  | cons write writes ih =>
      obtain ⟨hsound, herror⟩ := hall write List.mem_cons_self
      obtain ⟨bytes, hserialize, hfits, hwritten⟩ := hsound.sent herror
      obtain ⟨frames, hframes, hcarries, hstream⟩ :=
        ih fun other hmem => hall other (List.mem_cons_of_mem _ hmem)
      have hparse := hinverse write.request bytes hserialize hfits
      refine ⟨bytes :: frames, frameHeader.fits_cons.mpr ⟨hfits, hframes⟩,
        (EnvelopeFormat.Carries.singleton hparse).append hcarries, ?_⟩
      rw [List.flatMap_cons, hwritten, hstream, Header.stream_cons]

/-- On the connection on which a call is about to write, every request has had its
response, and nothing else has come. -/
theorem Correlated.prepared {client middle : Client} {i c : Nat} {traffic : Traffic}
    {request : Envelope} (hcorrelated : Correlated format reply client)
    (honce : AtMostOnce format client)
    (hprepared : Prepared client i c traffic request middle) :
    bytesOf (client.links c).conn.reads = [] ∧
      format.Emitted (client.links c).arrived
        (((client.writesOn c).map Write.request).mapIdx (reply c)) := by
  rcases hprepared.conn with ⟨hopen, -⟩ | ⟨-, rfl, -⟩
  · exact ⟨hcorrelated.drained c hopen, hcorrelated.answered c hopen⟩
  · obtain ⟨hreads, harrived⟩ := hcorrelated.unopened _ (Nat.le_refl _)
    rw [honce.writesOn_opened (Nat.le_refl _), harrived]
    exact ⟨hreads, .nil⟩

/-- A response that is received behind a request is the response to it. -/
theorem Correlated.received {client middle next : Client} {i c : Nat} {traffic : Traffic}
    {request response : Envelope} {after : ErrorCode → AfterDisconnect}
    {conn last : UnixSocketConnection} (hcorrelated : Correlated format reply client)
    (honce : AtMostOnce format client) (hinverse : format.Inverse)
    (hstreams : Streams format client) (hnextStreams : Streams format next)
    (hhonest : Honest format reply next) (hprogress : Progressing traffic.sends)
    (hprepared : Prepared client i c traffic request middle)
    (hexchanging : Exchanging format middle i c request after none conn next)
    (hrecv : EnvelopeCodec.recv format conn = some (.ok response, last))
    (hopen : next.codec = some c) :
    response = reply c (client.writesOn c).length request ∧ bytesOf last.reads = [] ∧
      format.Emitted (next.links c).arrived
        (((next.writesOn c).map Write.request).mapIdx (reply c)) := by
  obtain ⟨hdrained, hanswered⟩ := hcorrelated.prepared honce hprepared
  obtain ⟨hwire, hsends, hreads, harrived⟩ := client.offer_links c c traffic
  rw [← hprepared.links_eq c] at hwire hsends hreads harrived
  rw [if_pos rfl] at hsends hreads harrived
  rw [hdrained, List.nil_append] at hreads
  have hbefore := hstreams.progressing_prepared hprogress hprepared c
  obtain ⟨-, -, -, hsame, -⟩ := Write.sound_of_send hbefore hexchanging.send_eq i c
  obtain ⟨-, -, htaken⟩ := EnvelopeCodec.recv_taken hrecv
  obtain ⟨payload, hparse, hfits, hbytes, -⟩ := htaken response rfl
  have hwrites : (next.writesOn c).map Write.request =
      (client.writesOn c).map Write.request ++ [request] := by
    rw [hexchanging.writesOn_self hprepared, List.map_append]
    rfl
  -- what has come behind the earlier responses starts with the frame just read
  have hcome : (next.links c).arrived =
      (client.links c).arrived ++ (frameHeader.frame payload ++ bytesOf last.reads) := by
    rw [(hexchanging.links_eq c).2.2.1, harrived, ← hreads, ← hsame, hbytes]
  obtain ⟨rest, hrest⟩ := hhonest c
  rw [(hnextStreams.emitted hinverse hopen).envelopes_eq, hwrites, List.mapIdx_concat, hcome,
    List.append_assoc, List.append_assoc, List.length_map] at hrest
  obtain ⟨hresponse, hnothing⟩ := (hanswered.behind hrest).single hfits
  have hdone : bytesOf last.reads = [] := (List.append_eq_nil_iff.mp hnothing).1
  rw [hparse] at hresponse
  cases hresponse
  refine ⟨rfl, hdone, ?_⟩
  rw [hwrites, List.mapIdx_concat, hcome, hdone, List.append_nil, List.length_map]
  exact hanswered.append hfits hparse

theorem Correlated.exchanging {client middle next : Client} {i c : Nat} {traffic : Traffic}
    {request : Envelope} {after : ErrorCode → AfterDisconnect} {error : Option ErrorCode}
    {conn : UnixSocketConnection} (hcorrelated : Correlated format reply client)
    (honce : AtMostOnce format client) (hinverse : format.Inverse)
    (hmirror : ∀ c k request, (reply c k request).requestId = request.requestId)
    (hstreams : Streams format client) (hnextStreams : Streams format next)
    (hhonest : Honest format reply next) (hprogress : Progressing traffic.sends)
    (hafter : ∀ err, (after err).error = err)
    (hprepared : Prepared client i c traffic request middle)
    (hexchanging : Exchanging format middle i c request after error conn next) :
    Correlated format reply next := by
  have hbefore := hstreams.progressing_prepared hprogress hprepared c
  have hwritten : client.writes <+: next.writes := by
    rw [hexchanging.writes_eq, hprepared.writes_eq]
    exact List.prefix_append _ _
  have hothers : ∀ j, j ≠ i → next.calls j = client.calls j :=
    fun j hj => hexchanging.others hprepared hj
  have hunopened : ∀ d, next.opened ≤ d →
      bytesOf (next.links d).conn.reads = [] ∧ (next.links d).arrived = [] := by
    intro d hd
    obtain ⟨hne, hle⟩ := honce.unopened_behind hprepared hexchanging hd
    obtain ⟨-, -, harrived, hreads⟩ := hexchanging.links_eq d
    rw [hreads hne, harrived, hprepared.links_eq, (client.offer_links c d traffic).2.2.1,
      (client.offer_links c d traffic).2.2.2, if_neg hne, List.append_nil, List.append_nil]
    exact hcorrelated.unopened d hle
  -- what the other calls have returned stays as it was
  have hown : ∀ j response, j ≠ i → (next.calls j).phase = .returned (.ok response) →
      next.OwnResponse reply j response := by
    intro j response hj hreturned
    rw [hothers j hj] at hreturned
    exact (hcorrelated.own j response hreturned).mono hwritten (by rw [hothers j hj])
  have hmismatch : (next.calls i).phase.error? ≠ some (.ibridger .protocolError) →
      ∀ j, (next.calls j).phase.error? ≠ some (.ibridger .protocolError) := by
    intro hcall j
    by_cases hj : j = i
    · rwa [hj]
    · rw [hothers j hj]
      exact hcorrelated.mismatch j
  -- a call that loses the connection returns no response
  have hdropped : ∀ reason, next.codec = none → (next.calls i).phase = .notifying reason →
      reason.error ≠ .ibridger .protocolError → Correlated format reply next := by
    intro reason hcodec hphase hreason
    refine ⟨hunopened, ?_, ?_, ?_, ?_⟩
    · intro d hd
      rw [hcodec] at hd
      cases hd
    · intro d hd
      rw [hcodec] at hd
      cases hd
    · intro j response hreturned
      apply hown j response ?_ hreturned
      rintro rfl
      rw [hphase] at hreturned
      cases hreturned
    · apply hmismatch
      rw [hphase]
      exact fun h => hreason (Option.some.inj h)
  cases error with
  | some err =>
      obtain ⟨hphase, -, hcodec⟩ := hexchanging.unsent err rfl
      obtain ⟨-, -, -, -, herror⟩ := Write.sound_of_send hbefore hexchanging.send_eq i c
      apply hdropped (after err) hcodec hphase
      rw [hafter]
      exact fun h => herror (congrArg some h)
  | none =>
      rcases (hexchanging.sent rfl).2 with ⟨err, last, hrecv, hphase, hcodec⟩ |
        ⟨response, last, hrecv, hphase, hcodec, hlink⟩
      · apply hdropped (.recv err) hcodec hphase
        rintro rfl
        exact (EnvelopeCodec.recv_taken hrecv).2.1 rfl
      · rw [hprepared.codec_eq] at hcodec
        obtain ⟨hresponse, hdone, hanswered⟩ := hcorrelated.received honce hinverse hstreams
          hnextStreams hhonest hprogress hprepared hexchanging hrecv hcodec
        have haccept : accept request response = .ok response := by
          rw [accept, if_pos (by rw [hresponse, hmirror])]
        rw [haccept] at hphase
        refine ⟨hunopened, ?_, ?_, ?_, ?_⟩
        · intro d hd
          rw [hcodec] at hd
          cases hd
          rw [hlink]
          exact hdone
        · intro d hd
          rw [hcodec] at hd
          cases hd
          exact hanswered
        · intro j other hreturned
          by_cases hj : j = i
          · subst hj
            rw [hphase] at hreturned
            cases hreturned
            refine ⟨c, (client.writesOn c).length,
              ⟨j, c, request, conn.wire.drop (middle.links c).conn.wire.length, none⟩, ?_, rfl,
              ?_, hresponse⟩
            · rw [hexchanging.writesOn_self hprepared]
              exact List.getElem?_concat_length
            · exact hexchanging.own_request hprepared
          · exact hown j other hj hreturned
        · apply hmismatch
          rw [hphase]
          exact fun h => (by cases h)

/-- What holds between two steps if the peers are honest. -/
theorem Correlated.step {client next : Client} {event : ClientEvent}
    (hcorrelated : Correlated format reply client) (honce : AtMostOnce format client)
    (hinverse : format.Inverse)
    (hmirror : ∀ c k request, (reply c k request).requestId = request.requestId)
    (hstreams : Streams format client) (hprogress : Progressing event.traffic.sends)
    (hhonest : Honest format reply next) (hstep : client.step format event = some next) :
    Correlated format reply next := by
  have hnextStreams := hstreams.step honce hprogress hstep
  rcases step_cases hstep with hquiet | ⟨i, c, request, after, middle, error, conn, hprepared,
    hafter, hexchanging⟩
  · exact hcorrelated.quiet honce hquiet
  · exact hcorrelated.exchanging honce hinverse hmirror hstreams hnextStreams hhonest hprogress
      hafter hprepared hexchanging

theorem Numbered.step {client next : Client} {event : ClientEvent}
    (hnumbered : Numbered client) (honce : AtMostOnce format client)
    (hstep : client.step format event = some next) : Numbered next := by
  rcases step_cases hstep with hquiet | ⟨i, c, request, after, middle, error, conn, hprepared,
    -, hexchanging⟩
  · exact hnumbered.quiet hquiet
  · exact hnumbered.exchanging honce hprepared hexchanging

theorem correlated_init (config : ClientConfig) : Correlated format reply (init config) := by
  refine ⟨fun c _ => ⟨rfl, rfl⟩, ?_, ?_, ?_, ?_⟩
  · intro c hc
    cases hc
  · intro c hc
    cases hc
  · intro i response hreturned
    cases hreturned
  · intro i h
    cases h

theorem numbered_init (config : ClientConfig) : Numbered (init config) := by
  refine ⟨rfl, ?_, fun _ => .nil⟩
  intro _ i request hrequest
  cases hrequest

theorem run_numbered {config : ClientConfig} {events : List ClientEvent} {client : Client}
    (hrun : run (step format) (init config) events = some client) : Numbered client := by
  refine (run_invariant (fun client => AtMostOnce format client ∧ Numbered client) ?_
    ⟨atMostOnce_init config, numbered_init config⟩ hrun).2
  rintro client event next ⟨honce, hnumbered⟩ hstep
  exact ⟨honce.step hstep, hnumbered.step honce hstep⟩

/-- With honest peers, a call that returns without an error returns the response
to its own request, and none finds another. The request ids on a connection
increase until 2^64 of them have been taken. -/
theorem calls_correlate (config : ClientConfig) {format : EnvelopeFormat}
    (hinverse : format.Inverse) {reply : Nat → Nat → Envelope → Envelope}
    (hmirror : ∀ c k request, (reply c k request).requestId = request.requestId)
    {events : List ClientEvent} (hprogress : ∀ event ∈ events, Progressing event.traffic.sends)
    (hhonest : Throughout (step format) (Honest format reply) (init config) events)
    {client : Client} (hrun : run (step format) (init config) events = some client) :
    (∀ i response, (client.calls i).phase = .returned (.ok response) →
      client.OwnResponse reply i response) ∧
    (∀ i, (client.calls i).phase ≠ .returned (.error (.ibridger .protocolError))) ∧
    (client.taken < 2 ^ 64 → ∀ c, ((client.writesOn c).map fun write =>
      write.request.requestId).Pairwise (· < ·)) := by
  obtain ⟨-, -, hcorrelated⟩ : AtMostOnce format client ∧ Streams format client ∧
      Correlated format reply client := by
    refine run_invariant_of_along (fun client => AtMostOnce format client ∧ Streams format client ∧
      Correlated format reply client) ?_
      ⟨atMostOnce_init config, streams_init config, correlated_init config⟩
      ((guarded_of_forall_mem hprogress).and hhonest.2) hrun
    rintro client event next ⟨honce, hstreams, hcorrelated⟩ ⟨hevent, hnext⟩ hstep
    exact ⟨honce.step hstep, hstreams.step honce hevent hstep,
      hcorrelated.step honce hinverse hmirror hstreams hevent hnext hstep⟩
  refine ⟨hcorrelated.own, ?_, ?_⟩
  · intro i hphase
    apply hcorrelated.mismatch i
    rw [hphase]
    rfl
  · intro htaken c
    rw [List.pairwise_map]
    apply (((run_numbered hrun).increasing htaken).filter fun write => write.conn = c).imp_of_mem
    intro first second hfirst hsecond himp
    exact himp ((mem_writesOn.mp hfirst).2.trans (mem_writesOn.mp hsecond).2.symm)

/-! ## Runs with peers that acknowledge -/

/-- A peer that responds to every request with its id. -/
def acknowledge (_ _ : Nat) (request : Envelope) : Envelope :=
  { Envelope.empty with type := .response, requestId := request.requestId }

/-- The answers of the kernel while the request goes out and the response comes. -/
def answering (bytes payload : List UInt8) : Traffic where
  sends := List.replicate (frameHeader.frame bytes).length (.accepted 1)
  reads := [.got (frameHeader.frame payload)]

variable (format) in
/-- Every request that was read has been acknowledged, and nothing else was sent. -/
def Settled (client : Client) : Prop :=
  ∀ c, ∃ requests, format.Emitted (client.links c).conn.wire requests ∧
    format.Emitted (client.links c).arrived (requests.mapIdx (acknowledge c))

theorem Settled.honest {client : Client} (hsettled : Settled format client) :
    Honest format acknowledge client := by
  intro c
  obtain ⟨requests, hwire, harrived⟩ := hsettled c
  refine ⟨[], ?_⟩
  rwa [List.append_nil, hwire.envelopes_eq]

theorem settled_init (config : ClientConfig) : Settled format (init config) :=
  fun _ => ⟨[], .nil, .nil⟩

/-- A connection that takes what is sent and holds nothing to read. -/
def Rests (link : Link) : Prop :=
  Accepting link.conn.sends ∧ Delivers [] link.conn.reads []

theorem progressing_of_accepting {outcomes : List SendOutcome} (haccept : Accepting outcomes) :
    Progressing outcomes := by
  rintro outcome hmem rfl
  rcases haccept _ hmem with h | ⟨count, hcount, h⟩
  · cases h
  · cases h
    exact absurd hcount (Nat.lt_irrefl 0)

theorem accepting_answering (bytes payload : List UInt8) :
    Accepting (answering bytes payload).sends := by
  intro outcome hmem
  rw [List.eq_of_mem_replicate hmem]
  exact .inr ⟨1, Nat.one_pos, rfl⟩

theorem delivers_answering (bytes payload : List UInt8) :
    Delivers [] (answering bytes payload).reads (frameHeader.frame payload) := by
  have hne : frameHeader.frame payload ≠ [] := by
    intro hnil
    have hlength := congrArg List.length hnil
    rw [Header.length_frame, frameHeader_width, List.length_nil] at hlength
    omega
  have hpiece : Delivers [] (answering bytes payload).reads (frameHeader.frame payload ++ []) :=
    .segment _ hne .nil
  rwa [List.append_nil] at hpiece

/-- On a connection at rest, an answered request goes out and the answer comes in. -/
theorem offer_answering {client : Client} {c : Nat} {bytes payload : List UInt8}
    {request response : Envelope} {conn : UnixSocketConnection}
    (hconn : ((client.offer c (answering bytes payload)).links c).conn = conn)
    (hrests : Rests (client.links c)) (hserialize : format.serialize request = some bytes)
    (hbytes : bytes.length ≤ MAX_FRAME_SIZE) (hresponse : format.parse payload = .ok response)
    (hpayload : payload.length ≤ MAX_FRAME_SIZE) :
    ∃ left unread, Accepting left ∧ Delivers [] unread [] ∧
      EnvelopeCodec.send format conn request =
        some (none, { conn with wire := conn.wire ++ frameHeader.frame bytes, sends := left }) ∧
      EnvelopeCodec.recv format
          { conn with wire := conn.wire ++ frameHeader.frame bytes, sends := left } =
        some (.ok response,
          { conn with
            wire := conn.wire ++ frameHeader.frame bytes, sends := left, reads := unread }) := by
  obtain ⟨haccept, hdelivers⟩ := hrests
  have hoffered : conn = { (client.links c).conn with
      sends := (client.links c).conn.sends ++ (answering bytes payload).sends
      reads := (client.links c).conn.reads ++ (answering bytes payload).reads } := by
    rw [← hconn, offer, setLink_links, if_pos rfl]
  have hkernel : Accepting conn.sends := by
    rw [hoffered]
    intro outcome hmem
    rcases List.mem_append.mp hmem with h | h
    · exact haccept outcome h
    · exact accepting_answering bytes payload outcome h
  have henough : (frameHeader.frame bytes).length ≤ acceptances conn.sends := by
    rw [hoffered, acceptances, List.countP_append]
    simp [answering, List.countP_replicate]
  obtain ⟨left, hsend, hleft⟩ :=
    @EnvelopeCodec.send_accepting format _ request bytes hserialize hbytes hkernel henough
  have hreads : Delivers [] conn.reads (frameHeader.frame payload) := by
    rw [hoffered]
    have hcome := hdelivers.append (delivers_answering bytes payload)
    rwa [List.nil_append] at hcome
  have hscan : frameHeader.scan (frameHeader.frame payload) = .frame payload [] := by
    have hfront := frameHeader.scan_frame_append hpayload []
    rwa [List.append_nil] at hfront
  obtain ⟨unread, hrecv, hunread⟩ := @EnvelopeCodec.recv_of_frame format
    { conn with wire := conn.wire ++ frameHeader.frame bytes, sends := left }
    [] _ payload [] _ hreads hscan hresponse
  exact ⟨left, unread, hleft, hunread, hsend, hrecv⟩

/-- A call on a connection at rest, answered at once, returns the response. -/
theorem step_answered {client : Client} {i c : Nat} {bytes payload : List UInt8}
    {request : Envelope} (hcodec : client.codec = some c)
    (hidle : (client.calls i).phase = .idle) (hrests : Rests (client.links c))
    (hrequest : request = { Envelope.empty with requestId := client.nextRequestId })
    (hserialize : format.serialize request = some bytes)
    (hparse : format.parse bytes = .ok request) (hbytes : bytes.length ≤ MAX_FRAME_SIZE)
    (hresponse : format.parse payload = .ok (acknowledge 0 0 request))
    (hpayload : payload.length ≤ MAX_FRAME_SIZE) :
    ∃ next, client.step format (.call i "" "" [] (answering bytes payload)) = some next ∧
      next.codec = some c ∧ next.nextRequestId = client.nextRequestId + 1 ∧
      (∀ j, j ≠ i → next.calls j = client.calls j) ∧
      (next.calls i).phase = .returned (.ok (acknowledge 0 0 request)) ∧
      next.writesOn c = client.writesOn c ++ [⟨i, c, request, frameHeader.frame bytes, none⟩] ∧
      Rests (next.links c) ∧ (Settled format client → Settled format next) := by
  have hprepared := @prepared_began client i c "" "" [] (answering bytes payload) hcodec hidle
  have hsame : requestOf ((client.named i "" "" []).calls i) client.nextRequestId = request := by
    rw [hrequest, named, setCall_calls, if_pos rfl]
    rfl
  rw [hsame] at hprepared
  generalize hmiddle : (client.named i "" "" []).begun i c (answering bytes payload) = middle
    at hprepared
  have hlink : middle.links c = ⟨{ (client.links c).conn with
      sends := (client.links c).conn.sends ++ (answering bytes payload).sends
      reads := (client.links c).conn.reads ++ (answering bytes payload).reads },
      (client.links c).arrived ++ bytesOf (answering bytes payload).reads⟩ := by
    rw [hprepared.links_eq, offer, setLink_links, if_pos rfl]
  obtain ⟨left, unread, hleft, hunread, hsend, hrecv⟩ := offer_answering
    (congrArg Link.conn (hprepared.links_eq c).symm) hrests hserialize hbytes hresponse hpayload
  have hexchanged := @Exchanged.answered format middle i c request .send _ _ _ hsend hrecv
  have haccepted : accept request (acknowledge 0 0 request) = .ok (acknowledge 0 0 request) :=
    if_pos rfl
  have hstep := step_began hcodec hidle (by rw [hsame, hmiddle]; exact hexchanged)
  generalize hnext : ((middle.wrote i c request none _).reached i c _).setPhase i _ = next
    at hexchanged hstep
  obtain ⟨error, conn, hexchanging⟩ := hexchanged.exchanging
  cases hexchanging.send_eq.symm.trans hsend
  obtain ⟨hphase, hcodec', hconn⟩ := hexchanging.received hrecv
  refine ⟨next, hstep, hcodec'.trans hprepared.codec_eq, ?_, ?_, ?_, ?_, ?_, ?_⟩
  · rw [hexchanging.counters_eq.1, ← hmiddle]
    rfl
  · exact fun j hj => hexchanging.others hprepared hj
  · rw [hphase, haccepted]
  · rw [hexchanging.writesOn_self hprepared, List.drop_left]
  · rw [Rests, hconn]
    exact ⟨hleft, hunread⟩
  · intro hsettled d
    obtain ⟨requests, hwire, harrived⟩ := hsettled d
    obtain ⟨hwire', -, harrived', -⟩ := hexchanging.links_eq d
    by_cases hd : d = c
    · subst hd
      refine ⟨requests ++ [request], ?_, ?_⟩
      · rw [hwire', if_pos rfl, hlink]
        exact hwire.append hbytes hparse
      · rw [harrived', hlink, List.mapIdx_concat]
        have hframe : bytesOf (answering bytes payload).reads = frameHeader.frame payload :=
          List.append_nil _
        rw [hframe]
        exact harrived.append hpayload hresponse
    · refine ⟨requests, ?_, ?_⟩
      · rw [hwire', if_neg hd, hprepared.links_eq, (client.offer_links c d _).1]
        exact hwire
      · rw [harrived', hprepared.links_eq, (client.offer_links c d _).2.2.2, if_neg hd,
          List.append_nil]
        exact harrived

/-- The requests with the first, the last and the wrapped id, and the responses to
them, as protobuf writes them. -/
def counterFormat : EnvelopeFormat :=
  .knowing [(namelessRequest, [16, 1]), (acknowledge 0 0 namelessRequest, [8, 1, 16, 1]),
    ({ Envelope.empty with requestId := 18446744073709551615 },
      [16, 255, 255, 255, 255, 255, 255, 255, 255, 255, 1]),
    ({ Envelope.empty with type := .response, requestId := 18446744073709551615 },
      [8, 1, 16, 255, 255, 255, 255, 255, 255, 255, 255, 255, 1]),
    (Envelope.empty, []), ({ Envelope.empty with type := .response }, [8, 1])]

theorem counterFormat_inverse : counterFormat.Inverse :=
  EnvelopeFormat.knowing_inverse (by decide)

theorem rests_init (config : ClientConfig) (c : Nat) : Rests ((init config).links c) :=
  ⟨fun _ hmem => absurd hmem List.not_mem_nil, .nil⟩

/-- A client connects and calls, and has its response. -/
theorem nameless_call_correlates :
    ∃ client, run (step counterFormat) (init {})
        [.connect .connected, .call 0 "" "" [] (answering [16, 1] [8, 1, 16, 1])] = some client ∧
      (client.calls 0).phase = .returned (.ok (acknowledge 0 0 namelessRequest)) ∧
      client.OwnResponse acknowledge 0 (acknowledge 0 0 namelessRequest) := by
  obtain ⟨connected, hconnect, hcodec, hidle, hid, hlinks⟩ :
      ∃ connected, (init {}).step counterFormat (.connect .connected) = some connected ∧
        connected.codec = some 0 ∧ (connected.calls 0).phase = .idle ∧
        connected.nextRequestId = 1 ∧ connected.links = (init {}).links :=
    ⟨_, rfl, rfl, rfl, rfl, rfl⟩
  obtain ⟨client, hstep, -, -, -, hphase, -, -, hsettled⟩ :=
    @step_answered counterFormat connected 0 0 [16, 1] [8, 1, 16, 1] namelessRequest hcodec hidle
      (by rw [hlinks]; exact rests_init _ 0) (by rw [hid]; rfl) rfl rfl (by decide) rfl (by decide)
  have hfirst : Settled counterFormat connected := by
    unfold Settled
    rw [hlinks]
    exact settled_init {}
  have hrun : run (step counterFormat) (init {})
      [.connect .connected, .call 0 "" "" [] (answering [16, 1] [8, 1, 16, 1])] = some client := by
    rw [run_cons, hconnect, Option.bind_some, run_cons, hstep]
    rfl
  have hcorrelate := @calls_correlate {} counterFormat counterFormat_inverse acknowledge
    (fun _ _ _ => rfl)
    [.connect .connected, .call 0 "" "" [] (answering [16, 1] [8, 1, 16, 1])] (by decide)
    ⟨(settled_init {}).honest, .cons hconnect hfirst.honest
      (.cons hstep (hsettled hfirst).honest trivial)⟩ client hrun
  exact ⟨client, hrun, hphase, hcorrelate.1 0 _ hphase⟩

/-! ## The request id wraps -/

/-- A client without a connection that has taken `n` request ids, none of which
has gone out. -/
structure Spent (n : Nat) (client : Client) : Prop where
  reconnect_eq : client.config.reconnect = none
  codec_eq : client.codec = none
  opened_eq : client.opened = n
  next_eq : client.nextRequestId = UInt64.ofNat (n + 1)
  idle : ∀ i, n ≤ i → (client.calls i).phase = .idle
  silent : ∀ c, (client.links c).conn.wire = [] ∧ (client.links c).arrived = []
  fresh : ∀ c, n ≤ c → (client.links c).conn.sends = [] ∧ (client.links c).conn.reads = []
  unwritten : ∀ write ∈ client.writes, write.conn < n

theorem Spent.settled {n : Nat} {client : Client} (hspent : Spent n client) :
    Settled format client := by
  intro c
  obtain ⟨hwire, harrived⟩ := hspent.silent c
  rw [hwire, harrived]
  exact ⟨[], .nil, .nil⟩

/-- The next connection has nothing in flight. -/
theorem Spent.rests {n : Nat} {client : Client} (hspent : Spent n client) :
    Rests (client.links n) := by
  obtain ⟨hsends, hreads⟩ := hspent.fresh n (Nat.le_refl n)
  rw [Rests, hsends, hreads]
  exact ⟨fun _ hmem => absurd hmem List.not_mem_nil, .nil⟩

theorem Spent.writesOn_eq {n : Nat} {client : Client} (hspent : Spent n client) :
    client.writesOn n = [] := by
  rw [List.eq_nil_iff_forall_not_mem]
  intro write hmem
  obtain ⟨hwrite, hconn⟩ := mem_writesOn.mp hmem
  have hlt := hspent.unwritten write hwrite
  omega

theorem spent_init : Spent 0 (init {}) :=
  ⟨rfl, rfl, rfl, rfl, fun _ _ => rfl, fun _ => ⟨rfl, rfl⟩, fun _ _ => ⟨rfl, rfl⟩,
    fun _ hmem => (by cases hmem)⟩

/-- A new connection. -/
theorem connectLocked_connected {client : Client} (hcodec : client.codec = none) :
    (client.connectLocked .connected).2 =
      { client with
        transport := true
        framed := some client.opened
        codec := some client.opened
        opened := client.opened + 1 } := by
  unfold connectLocked
  rw [hcodec]
  rfl

/-- A call whose connection breaks before the first byte goes out. -/
def spending (n : Nat) : List ClientEvent :=
  [.connect .connected, .call n "" "" [] { sends := [.failed .EPIPE] }, .notified n]

/-- Such a call takes a request id, and nothing else comes of it. -/
theorem spent_spending {n : Nat} {client : Client} (hspent : Spent n client) :
    ∃ next, run (step format) client (spending n) = some next ∧ Spent (n + 1) next ∧
      Along (step format) (fun _ _ next => Honest format acknowledge next) client (spending n) := by
  have hconnect : client.step format (.connect .connected) = some (client.connectLocked .connected).2 :=
    rfl
  have hconnected := connectLocked_connected hspent.codec_eq
  generalize (client.connectLocked .connected).2 = connected at hconnect hconnected
  have hcodec : connected.codec = some n := by rw [hconnected, ← hspent.opened_eq]
  have hcalls : connected.calls = client.calls := by rw [hconnected]
  have hlinks : connected.links = client.links := by rw [hconnected]
  have hidle : (connected.calls n).phase = .idle := by
    rw [hcalls]
    exact hspent.idle n (Nat.le_refl n)
  have hprepared := @prepared_began connected n n "" "" [] { sends := [.failed .EPIPE] } hcodec hidle
  generalize hmiddle : (connected.named n "" "" []).begun n n { sends := [.failed .EPIPE] } =
    middle at hprepared
  have hwire : ∀ d, (middle.links d).conn.wire = [] ∧ (middle.links d).arrived = [] := by
    intro d
    obtain ⟨hwire, -, -, harrived⟩ := connected.offer_links n d { sends := [.failed .EPIPE] }
    rw [hprepared.links_eq, hwire, harrived, hlinks]
    obtain ⟨hempty, hnothing⟩ := hspent.silent d
    refine ⟨hempty, ?_⟩
    rw [hnothing]
    split <;> rfl
  have hsends : (middle.links n).conn.sends = [.failed .EPIPE] := by
    rw [hprepared.links_eq, (connected.offer_links n n _).2.1, if_pos rfl, hlinks,
      (hspent.fresh n (Nat.le_refl n)).1]
    rfl
  obtain ⟨err, conn, hsend, hsame⟩ := @EnvelopeCodec.send_refused format _ hsends
    (requestOf ((connected.named n "" "" []).calls n) connected.nextRequestId)
  have hexchanged := @Exchanged.unsent format middle n n _ .send err conn hsend
  have hcall := step_began hcodec hidle (by rw [hmiddle]; exact hexchanged)
  generalize (middle.wrote n n _ (some err) conn).handleDisconnect n (.send err) = failed
    at hexchanged hcall
  obtain ⟨error, conn', hexchanging⟩ := hexchanged.exchanging
  cases hexchanging.send_eq.symm.trans hsend
  obtain ⟨hphase, -, hnone⟩ := hexchanging.unsent err rfl
  have hconfig : failed.config.reconnect = none := by
    rw [hexchanging.config_eq, ← hmiddle]
    exact (congrArg (fun client => client.config.reconnect) hconnected).trans hspent.reconnect_eq
  have hnotified := @step_notified_send format failed n err hphase hconfig
  have hsilent : ∀ d, (failed.links d).conn.wire = [] ∧ (failed.links d).arrived = [] := by
    intro d
    obtain ⟨hwire', -, harrived', -⟩ := hexchanging.links_eq d
    rw [hwire', harrived', hsame, (hwire n).1, (hwire d).1]
    exact ⟨ite_self [], (hwire d).2⟩
  have hlast : Spent (n + 1) (failed.setPhase n (.returned (.error err))) := by
    refine ⟨hconfig, hnone, ?_, ?_, ?_, hsilent, ?_, ?_⟩
    · change failed.opened = n + 1
      rw [hexchanging.counters_eq.2.2, ← hmiddle]
      exact (congrArg Client.opened hconnected).trans (congrArg (· + 1) hspent.opened_eq)
    · change failed.nextRequestId = _
      rw [hexchanging.counters_eq.1, ← hmiddle]
      have hid : connected.nextRequestId = UInt64.ofNat (n + 1) :=
        (congrArg Client.nextRequestId hconnected).trans hspent.next_eq
      rw [UInt64.ofNat_add (n + 1) 1]
      exact congrArg (· + 1) hid
    · intro i hi
      have hne : i ≠ n := by omega
      rw [setPhase_calls, if_neg hne, hexchanging.calls_eq i hne, hprepared.calls_eq i hne, hcalls]
      exact hspent.idle i (by omega)
    · intro c hc
      have hne : c ≠ n := by omega
      obtain ⟨-, hsends', -, hreads'⟩ := hexchanging.links_eq c
      change (failed.links c).conn.sends = [] ∧ (failed.links c).conn.reads = []
      rw [hsends', hreads' hne, if_neg hne, hprepared.links_eq, offer, setLink_links, if_neg hne,
        hlinks]
      exact hspent.fresh c (by omega)
    · change ∀ write ∈ failed.writes, write.conn < n + 1
      rw [hexchanging.writes_eq, hprepared.writes_eq, List.forall_mem_append,
        List.forall_mem_singleton, hconnected]
      exact ⟨fun write hmem => Nat.lt_succ_of_lt (hspent.unwritten write hmem),
        Nat.lt_succ_self n⟩
  have hfirst : Settled format connected := by
    unfold Settled
    rw [hlinks]
    exact hspent.settled
  have hmiddleSettled : Settled format failed := hlast.settled
  refine ⟨_, ?_, hlast, ?_⟩
  · rw [spending, run_cons, hconnect, Option.bind_some, run_cons, hcall, Option.bind_some, run_cons,
      hnotified]
    rfl
  · exact .cons hconnect hfirst.honest (.cons hcall hmiddleSettled.honest
      (.cons hnotified hlast.settled.honest trivial))

theorem spent_run (n : Nat) :
    ∃ events client, run (step format) (init {}) events = some client ∧ Spent n client ∧
      (∀ event ∈ events, Progressing event.traffic.sends) ∧
      Along (step format) (fun _ _ next => Honest format acknowledge next) (init {}) events := by
  induction n with
  | zero => exact ⟨[], _, rfl, spent_init, fun _ hmem => (by cases hmem), trivial⟩
  | succ n ih =>
      obtain ⟨events, client, hrun, hspent, hprogress, halong⟩ := ih
      obtain ⟨next, hnext, hlast, hmore⟩ := spent_spending hspent
      refine ⟨events ++ spending n, next, ?_, hlast, ?_, halong.append hrun hmore⟩
      · rw [run_append_of_run hrun, hnext]
      · rw [List.forall_mem_append]
        refine ⟨hprogress, ?_⟩
        have hsends : ∀ event ∈ spending n,
            event.traffic.sends = [] ∨ event.traffic.sends = [.failed .EPIPE] := by
          simp [spending, ClientEvent.traffic]
        intro event hmem
        rcases hsends event hmem with h | h
        · rw [h]
          decide
        · rw [h]
          decide

/-- The calls that take the last id and the one behind it, on one connection. -/
def lastCalls : List ClientEvent :=
  [.connect .connected,
    .call 18446744073709551614 "" "" []
      (answering [16, 255, 255, 255, 255, 255, 255, 255, 255, 255, 1]
        [8, 1, 16, 255, 255, 255, 255, 255, 255, 255, 255, 255, 1]),
    .call 18446744073709551615 "" "" [] (answering [] [8, 1])]

/-- After 2^64 - 2 calls that never got anything out, two calls on one connection
carry the ids 2^64 - 1 and 0. -/
theorem request_id_wraps :
    counterFormat.Inverse ∧ ∃ events client, run (step counterFormat) (init {}) events = some client ∧
      (∀ event ∈ events, Progressing event.traffic.sends) ∧
      Throughout (step counterFormat) (Honest counterFormat acknowledge) (init {}) events ∧
      ((client.writesOn 18446744073709551614).map fun write => write.request.requestId) =
        [18446744073709551615, 0] ∧
      ¬ ((client.writesOn 18446744073709551614).map fun write =>
        write.request.requestId).Pairwise (· < ·) := by
  refine ⟨counterFormat_inverse, ?_⟩
  obtain ⟨events, client, hrun, hspent, hprogress, halong⟩ :=
    @spent_run counterFormat 18446744073709551614
  have hconnect : client.step counterFormat (.connect .connected) =
      some (client.connectLocked .connected).2 := rfl
  have hconnected := connectLocked_connected hspent.codec_eq
  generalize (client.connectLocked .connected).2 = connected at hconnect hconnected
  have hcodec : connected.codec = some 18446744073709551614 := by
    rw [hconnected, ← hspent.opened_eq]
  have hcalls : connected.calls = client.calls := by rw [hconnected]
  have hlinks : connected.links = client.links := by rw [hconnected]
  have hid : connected.nextRequestId = 18446744073709551615 :=
    (congrArg Client.nextRequestId hconnected).trans (hspent.next_eq.trans (by decide))
  have hunwritten : connected.writesOn 18446744073709551614 = [] := by
    rw [hconnected]
    exact hspent.writesOn_eq
  have hrests : Rests (connected.links 18446744073709551614) := by
    rw [hlinks]
    exact hspent.rests
  have hsettled : Settled counterFormat connected := by
    unfold Settled
    rw [hlinks]
    exact hspent.settled
  obtain ⟨first, hfirst, hcodec', hid', hcalls', -, hwrites', hrests', hsettled'⟩ :=
    @step_answered counterFormat connected 18446744073709551614 18446744073709551614
      [16, 255, 255, 255, 255, 255, 255, 255, 255, 255, 1]
      [8, 1, 16, 255, 255, 255, 255, 255, 255, 255, 255, 255, 1]
      { Envelope.empty with requestId := 18446744073709551615 } hcodec
      (by rw [hcalls]; exact hspent.idle _ (Nat.le_refl _)) hrests (by rw [hid]) rfl rfl (by decide)
      rfl (by decide)
  obtain ⟨second, hsecond, -, -, -, -, hwrites'', -, hsettled''⟩ :=
    @step_answered counterFormat first 18446744073709551615 18446744073709551614 [] [8, 1]
      Envelope.empty hcodec'
      (by rw [hcalls' _ (by decide), hcalls]; exact hspent.idle _ (by decide)) hrests'
      (by rw [hid', hid]; rfl) rfl rfl (by decide) rfl (by decide)
  have hids : (second.writesOn 18446744073709551614).map (fun write => write.request.requestId) =
      [18446744073709551615, 0] := by
    rw [hwrites'', hwrites', hunwritten]
    rfl
  have hlasts : ∀ event ∈ lastCalls, Progressing event.traffic.sends := by decide
  refine ⟨events ++ lastCalls, second, ?_, List.forall_mem_append.mpr ⟨hprogress, hlasts⟩,
    ⟨(settled_init {}).honest, halong.append hrun ?_⟩, hids, ?_⟩
  · rw [run_append_of_run hrun, lastCalls, run_cons, hconnect, Option.bind_some, run_cons, hfirst,
      Option.bind_some, run_cons, hsecond]
    rfl
  · exact .cons hconnect hsettled.honest (.cons hfirst (hsettled' hsettled).honest
      (.cons hsecond (hsettled'' (hsettled' hsettled)).honest trivial))
  · rw [hids]
    decide

end Client

end Ibridger.Cpp
