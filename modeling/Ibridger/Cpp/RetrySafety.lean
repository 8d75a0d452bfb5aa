import Ibridger.Cpp.ClientWrites
import Ibridger.Wire.KnownMessages

/-! # Requests are sent at most once

On every connection the requests that were sent stand one behind the other, and
what a failed write has left behind them is the beginning of a frame that never
ends. So the peers can read a request at most once.
-/

namespace Ibridger.Cpp

open LengthPrefix Transition Wire

variable (format : EnvelopeFormat)

namespace Write

/-- A write without an error has put the frame of its request on the wire, and
any other a proper beginning of a frame. -/
structure Sound (write : Write) : Prop where
  sent : write.error = none → ∃ bytes, format.serialize write.request = some bytes ∧
    bytes.length ≤ MAX_FRAME_SIZE ∧ write.written = frameHeader.frame bytes
  unsent : write.error ≠ none → ∃ bytes, bytes.length ≤ MAX_FRAME_SIZE ∧
    write.written <+: frameHeader.frame bytes ∧ write.written ≠ frameHeader.frame bytes

variable {format}

theorem sound_nil {write : Write} (hwritten : write.written = [])
    (herror : write.error ≠ none) : write.Sound format := by
  refine ⟨fun hnone => absurd hnone herror, fun _ => ⟨[], Nat.zero_le _, ?_, ?_⟩⟩
  · rw [hwritten]
    exact List.nil_prefix
  · rw [hwritten]
    exact fun h => (by cases h)

/-- What one `codec_->send` does to its connection, as the record of it says. -/
theorem sound_of_send {conn next : UnixSocketConnection} {request : Envelope}
    {error : Option ErrorCode} (hprogress : Progressing conn.sends)
    (hsend : EnvelopeCodec.send format conn request = some (error, next)) (i c : Nat) :
    Sound format ⟨i, c, request, next.wire.drop conn.wire.length, error⟩ ∧
      next.wire = conn.wire ++ next.wire.drop conn.wire.length ∧ Progressing next.sends ∧
      next.reads = conn.reads ∧ error ≠ some (.ibridger .protocolError) := by
  rcases EnvelopeCodec.send_sent hprogress hsend with ⟨-, rfl, rfl⟩ |
    ⟨bytes, written, hserialize, hsent⟩
  · refine ⟨sound_nil ?_ (by simp), ?_, hprogress, rfl, by simp⟩
    · exact List.drop_length
    · rw [List.drop_length, List.append_nil]
  · have hwritten : next.wire.drop conn.wire.length = written := by
      rw [hsent.wire_eq, List.drop_left]
    rw [hwritten]
    refine ⟨?_, hsent.wire_eq, hsent.progressing, hsent.reads_eq, hsent.error_ne⟩
    by_cases hfits : bytes.length ≤ MAX_FRAME_SIZE
    · refine ⟨fun hnone => ⟨bytes, hserialize, hfits, hsent.complete_iff.mp hnone⟩,
        fun herror => ⟨bytes, hfits, hsent.written_prefix, ?_⟩⟩
      exact fun hcomplete => herror (hsent.complete_iff.mpr hcomplete)
    · have hempty := hsent.oversized (Nat.lt_of_not_le hfits)
      apply sound_nil hempty
      intro hnone
      have hcomplete := congrArg List.length (hsent.complete_iff.mp hnone)
      rw [hempty, Header.length_frame, List.length_nil, frameHeader_width] at hcomplete
      omega

/-- What a peer reads from a stream of writes of which only the last may have
failed. -/
theorem frames_of_writes {writes : List Write} (hsound : ∀ write ∈ writes, write.Sound format)
    (hended : writes.Pairwise fun first _ => first.error = none) :
    (frameHeader.parse (writes.flatMap Write.written)).frames.map some =
      (writes.filter fun write => write.error = none).map fun write =>
        format.serialize write.request := by
  induction writes with
  | nil =>
      rw [List.flatMap_nil, frameHeader.parse_nil]
      rfl
  | cons write writes ih =>
      obtain ⟨hhead, htail⟩ := List.pairwise_cons.mp hended
      have hwrite := hsound write List.mem_cons_self
      have hrest := ih (fun other hmem => hsound other (List.mem_cons_of_mem _ hmem)) htail
      rw [List.flatMap_cons]
      by_cases herror : write.error = none
      · obtain ⟨bytes, hserialize, hfits, hwritten⟩ := hwrite.sent herror
        rw [hwritten, frameHeader.parse_of_frame (frameHeader.scan_frame_append hfits _),
          List.filter_cons_of_pos (by simpa using herror), List.map_cons, List.map_cons, hrest,
          hserialize]
      · have hlast : writes = [] := by
          rw [List.eq_nil_iff_forall_not_mem]
          exact fun other hmem => herror (hhead other hmem)
        obtain ⟨bytes, hfits, hinitial, hne⟩ := hwrite.unsent herror
        rw [hlast, List.flatMap_nil, List.append_nil,
          frameHeader.parse_of_stuck (frameHeader.scan_of_strict_prefix hfits hinitial hne),
          List.filter_cons_of_neg (by simpa using herror)]
        rfl

end Write

namespace Client

/-- What the streams of the connections have come to. -/
structure Streams (client : Client) : Prop where
  progressing : ∀ c, Progressing (client.links c).conn.sends
  wire_eq : ∀ c, (client.links c).conn.wire = (client.writesOn c).flatMap Write.written
  sound : ∀ write ∈ client.writes, write.Sound format
  ended : client.writes.Pairwise fun first second =>
    first.conn = second.conn → first.error = none
  alive : ∀ write ∈ client.writes, client.codec = some write.conn → write.error = none

variable {format}

theorem Streams.quiet {client next : Client} (hstreams : Streams format client)
    (honce : AtMostOnce format client) (hquiet : Quiet client next) : Streams format next := by
  refine ⟨?_, ?_, ?_, ?_, ?_⟩
  · intro c
    rw [(hquiet.links c).2.1]
    exact hstreams.progressing c
  · intro c
    rw [(hquiet.links c).1, writesOn, hquiet.writes_eq]
    exact hstreams.wire_eq c
  all_goals rw [hquiet.writes_eq]
  · exact hstreams.sound
  · exact hstreams.ended
  · intro write hmem hopen
    rcases hquiet.codec with ⟨hnone | hsame, -⟩ | ⟨-, hnew, -⟩
    · rw [hnone] at hopen
      cases hopen
    · exact hstreams.alive write hmem (hsame ▸ hopen)
    · -- a connection that was just opened has not been written on
      rw [hnew] at hopen
      have hlt := honce.conn_lt write hmem
      rw [← Option.some.inj hopen] at hlt
      exact absurd hlt (Nat.lt_irrefl _)

theorem offer_links (client : Client) (c d : Nat) (traffic : Traffic) :
    ((client.offer c traffic).links d).conn.wire = (client.links d).conn.wire ∧
      ((client.offer c traffic).links d).conn.sends =
        (client.links d).conn.sends ++ (if d = c then traffic.sends else []) ∧
      bytesOf ((client.offer c traffic).links d).conn.reads =
        bytesOf (client.links d).conn.reads ++ (if d = c then bytesOf traffic.reads else []) ∧
      ((client.offer c traffic).links d).arrived =
        (client.links d).arrived ++ (if d = c then bytesOf traffic.reads else []) := by
  unfold offer
  rw [setLink_links]
  by_cases hd : d = c
  · subst hd
    rw [if_pos rfl, if_pos rfl, if_pos rfl]
    exact ⟨rfl, rfl, bytesOf_append _ _, rfl⟩
  · rw [if_neg hd, if_neg hd, if_neg hd, List.append_nil, List.append_nil, List.append_nil]
    exact ⟨rfl, rfl, rfl, rfl⟩

/-- All earlier writes on the connection that a call is about to write on have
succeeded. -/
theorem Streams.prepared {client middle : Client} {i c : Nat} {traffic : Traffic}
    {request : Envelope} (hstreams : Streams format client) (honce : AtMostOnce format client)
    (hprepared : Prepared client i c traffic request middle) :
    ∀ write ∈ client.writes, write.conn = c → write.error = none := by
  intro write hmem hconn
  rcases hprepared.conn with ⟨hopen, -⟩ | ⟨-, hnew, -⟩
  · exact hstreams.alive write hmem (by rw [hopen, hconn])
  · have hlt := honce.conn_lt write hmem
    omega

/-- What a call meets lets sends progress as before. -/
theorem Streams.progressing_prepared {client middle : Client} {i c : Nat} {traffic : Traffic}
    {request : Envelope} (hstreams : Streams format client) (hprogress : Progressing traffic.sends)
    (hprepared : Prepared client i c traffic request middle) (d : Nat) :
    Progressing (middle.links d).conn.sends := by
  rw [hprepared.links_eq, (client.offer_links c d traffic).2.1]
  apply (hstreams.progressing d).append
  split
  · exact hprogress
  · exact fun outcome hmem => absurd hmem List.not_mem_nil

theorem Streams.exchanging {client middle next : Client} {i c : Nat} {traffic : Traffic}
    {request : Envelope} {after : ErrorCode → AfterDisconnect} {error : Option ErrorCode}
    {conn : UnixSocketConnection} (hstreams : Streams format client)
    (honce : AtMostOnce format client) (hprogress : Progressing traffic.sends)
    (hprepared : Prepared client i c traffic request middle)
    (hexchanging : Exchanging format middle i c request after error conn next) :
    Streams format next := by
  have hearlier := hstreams.prepared honce hprepared
  have hbefore := hstreams.progressing_prepared hprogress hprepared
  have hwire : ∀ d, (middle.links d).conn.wire = (client.links d).conn.wire := by
    intro d
    rw [hprepared.links_eq, (client.offer_links c d traffic).1]
  obtain ⟨hsound, hgrown, hafter, -⟩ := Write.sound_of_send (hbefore c) hexchanging.send_eq i c
  refine ⟨?_, ?_, ?_, ?_, ?_⟩
  · intro d
    rw [(hexchanging.links_eq d).2.1]
    split
    · exact hafter
    · exact hbefore d
  · intro d
    rw [(hexchanging.links_eq d).1]
    by_cases hd : d = c
    · subst hd
      rw [if_pos rfl, hexchanging.writesOn_self hprepared, hgrown, hwire, hstreams.wire_eq]
      simp
    · rw [if_neg hd, hexchanging.writesOn_other hprepared hd, hwire, hstreams.wire_eq]
  all_goals rw [hexchanging.writes_eq, hprepared.writes_eq]
  · rw [List.forall_mem_append, List.forall_mem_singleton]
    exact ⟨hstreams.sound, hsound⟩
  · rw [List.pairwise_append]
    refine ⟨hstreams.ended, List.pairwise_singleton _ _, ?_⟩
    intro write hmem last hlast hconn
    rw [List.mem_singleton] at hlast
    subst hlast
    exact hearlier write hmem hconn
  · rw [List.forall_mem_append, List.forall_mem_singleton]
    rcases hexchanging.codec_or with hnone | ⟨rfl, hsame⟩
    · rw [hnone]
      exact ⟨fun _ _ h => (by cases h), fun h => (by cases h)⟩
    · refine ⟨?_, fun _ => rfl⟩
      intro write hmem hopen
      rw [hsame, hprepared.codec_eq] at hopen
      exact hearlier write hmem (Option.some.inj hopen).symm

theorem Streams.step {client next : Client} {event : ClientEvent}
    (hstreams : Streams format client) (honce : AtMostOnce format client)
    (hprogress : Progressing event.traffic.sends)
    (hstep : client.step format event = some next) : Streams format next := by
  rcases step_cases hstep with hquiet | ⟨i, c, request, after, middle, error, conn, hprepared, -,
    hexchanging⟩
  · exact hstreams.quiet honce hquiet
  · exact hstreams.exchanging honce hprogress hprepared hexchanging

theorem streams_init (config : ClientConfig) : Streams format (init config) := by
  refine ⟨fun _ _ hmem => ?_, fun _ => rfl, fun _ hmem => ?_, .nil, fun _ hmem => ?_⟩
  all_goals cases hmem

theorem run_streams {config : ClientConfig} {events : List ClientEvent} {client : Client}
    (hprogress : ∀ event ∈ events, Progressing event.traffic.sends)
    (hrun : run (step format) (init config) events = some client) : Streams format client := by
  refine (run_invariant_of_guarded
    (fun client => AtMostOnce format client ∧ Streams format client) ?_
    ⟨atMostOnce_init config, streams_init config⟩ (guarded_of_forall_mem hprogress) hrun).2
  rintro client event next ⟨honce, hstreams⟩ hevent hstep
  exact ⟨honce.step hstep, hstreams.step honce hevent hstep⟩

theorem mem_writesOf {client : Client} {i : Nat} {write : Write} :
    write ∈ client.writesOf i ↔ write ∈ client.writes ∧ write.call = i := by
  rw [writesOf, List.mem_filter, decide_eq_true_eq]

theorem mem_writesOn {client : Client} {c : Nat} {write : Write} :
    write ∈ client.writesOn c ↔ write ∈ client.writes ∧ write.conn = c := by
  rw [writesOn, List.mem_filter, decide_eq_true_eq]

theorem AtMostOnce.writesOn_opened {client : Client} {c : Nat}
    (honce : AtMostOnce format client) (hc : client.opened ≤ c) : client.writesOn c = [] := by
  rw [List.eq_nil_iff_forall_not_mem]
  intro write hmem
  obtain ⟨hwrite, rfl⟩ := mem_writesOn.mp hmem
  exact absurd (honce.conn_lt write hwrite) (Nat.not_lt_of_le hc)

/-- All writes of a call but its last failed, and no two share a connection. -/
theorem AtMostOnce.writesOf_pairwise {client : Client} (honce : AtMostOnce format client)
    (i : Nat) : (client.writesOf i).Pairwise fun first second =>
      first.conn ≠ second.conn ∧ first.error ≠ none := by
  apply (honce.retried.filter fun write => write.call = i).imp_of_mem
  intro first second hfirst hsecond himp
  exact himp ((mem_writesOf.mp hfirst).2.trans (mem_writesOf.mp hsecond).2.symm)

/-- A call has at most one write that succeeded. -/
theorem AtMostOnce.length_succeeded_le {client : Client} (honce : AtMostOnce format client)
    (i : Nat) : ((client.writesOf i).filter fun write => write.error = none).length ≤ 1 := by
  have hpairwise := (honce.writesOf_pairwise i).filter fun write => write.error = none
  have hall : ∀ write ∈ (client.writesOf i).filter (fun write => write.error = none),
      write.error = none := by
    intro write hmem
    simpa using (List.mem_filter.mp hmem).2
  generalize (client.writesOf i).filter (fun write => write.error = none) = succeeded at *
  match succeeded with
  | [] => exact Nat.zero_le _
  | [_] => exact Nat.le_refl _
  | first :: second :: _ =>
      have hfirst := (List.pairwise_cons.mp hpairwise).1 second List.mem_cons_self
      exact absurd (hall first List.mem_cons_self) hfirst.2

theorem run_writesOf_of_reached {client last : Client} {more : List ClientEvent} {i : Nat}
    (honce : AtMostOnce format client) (hreached : (client.calls i).reachedRecv = true)
    (hrun : run (step format) client more = some last) : last.writesOf i = client.writesOf i := by
  refine (run_invariant (fun state => AtMostOnce format state ∧
    (state.calls i).reachedRecv = true ∧ state.writesOf i = client.writesOf i) ?_
    ⟨honce, hreached, rfl⟩ hrun).2.2
  rintro state event next ⟨honce, hreached, hsame⟩ hstep
  obtain ⟨hreached', hsame'⟩ := writesOf_of_reached honce hreached hstep
  exact ⟨honce.step hstep, hreached', hsame'.trans hsame⟩

/-- The peer reads from a connection the requests whose write succeeded. -/
theorem Streams.frames_eq {client : Client} (hstreams : Streams format client) (c : Nat) :
    (frameHeader.parse (client.links c).conn.wire).frames.map some =
      ((client.writesOn c).filter fun write => write.error = none).map fun write =>
        format.serialize write.request := by
  rw [hstreams.wire_eq]
  apply Write.frames_of_writes
  · exact fun write hmem => hstreams.sound write (mem_writesOn.mp hmem).1
  · apply (hstreams.ended.filter fun write => write.conn = c).imp_of_mem
    intro first second hfirst hsecond himp
    exact himp ((mem_writesOn.mp hfirst).2.trans (mem_writesOn.mp hsecond).2.symm)

/-- The frames that the peer reads from a connection are those of requests. -/
theorem Streams.writes {client : Client} (hstreams : Streams format client) (c : Nat) :
    format.Writes (frameHeader.parse (client.links c).conn.wire).frames
      (((client.writesOn c).filter fun write => write.error = none).map Write.request) := by
  rw [EnvelopeFormat.Writes, hstreams.frames_eq, List.map_map]
  rfl

/-- A call writes its request on each connection at most once and the complete
frame on at most one of them; on none if it fails before it receives; and never
again once it has tried to receive. From a connection the peer reads exactly the
requests whose write succeeded, and a call has at most one such write. -/
theorem request_sent_at_most_once (config : ClientConfig) (format : EnvelopeFormat)
    {events : List ClientEvent} {client : Client}
    (hrun : run (step format) (init config) events = some client) (i : Nat) :
    (∀ write ∈ client.writesOf i, (client.calls i).request = some write.request) ∧
      (client.writesOf i).Pairwise (fun first second =>
        first.conn ≠ second.conn ∧ ¬ (first.Complete format ∧ second.Complete format)) ∧
      (∀ err, (client.calls i).phase = .returned (.error err) →
        (client.calls i).reachedRecv = false →
          ∀ write ∈ client.writesOf i, ¬ write.Complete format) ∧
      ((client.calls i).reachedRecv = true → ∀ more last,
        run (step format) client more = some last → last.writesOf i = client.writesOf i) ∧
      ((∀ event ∈ events, Progressing event.traffic.sends) →
        (∀ c, (frameHeader.parse (client.links c).conn.wire).frames.map some =
          ((client.writesOn c).filter fun write => write.error = none).map fun write =>
            format.serialize write.request) ∧
        ((client.writesOf i).filter fun write => write.error = none).length ≤ 1) := by
  have honce := run_atMostOnce hrun
  refine ⟨?_, ?_, ?_, ?_, ?_⟩
  · intro write hmem
    obtain ⟨hwrite, rfl⟩ := mem_writesOf.mp hmem
    exact honce.request_eq write hwrite
  · apply (honce.writesOf_pairwise i).imp_of_mem
    rintro first second hfirst - ⟨hconn, herror⟩
    exact ⟨hconn, fun hboth => honce.partly first (mem_writesOf.mp hfirst).1 herror hboth.1⟩
  · intro err _ hreached write hmem
    obtain ⟨hwrite, rfl⟩ := mem_writesOf.mp hmem
    exact honce.partly write hwrite (honce.unsent write hwrite hreached)
  · intro hreached more last hmore
    exact run_writesOf_of_reached honce hreached hmore
  · intro hprogress
    exact ⟨(run_streams hprogress hrun).frames_eq, honce.length_succeeded_le i⟩

/-- The request goes out in pieces, and then the peer goes away. -/
def piecemeal : Traffic where
  sends := [.accepted 4, .accepted 1, .failed .EINTR, .accepted 1]
  reads := [.got []]

/-- The first write of a request fails inside its header, the second succeeds, and
then the peer goes away: the peers have read the request once. -/
theorem resent_request_sent_once :
    ∃ client, run (step (.knowing [(namelessRequest, [16, 1])])) (init { reconnect := some {} })
        [.connect .connected, .call 0 "" "" [] { sends := [.accepted 3, .failed .EPIPE] },
          .notified 0, .wake 0 .connected piecemeal] = some client ∧
      (client.writesOf 0).map Write.written = [[0, 0, 0], [0, 0, 0, 2, 16, 1]] ∧
      (frameHeader.parse (client.links 0).conn.wire).frames = [] ∧
      (frameHeader.parse (client.links 1).conn.wire).frames = [[16, 1]] ∧
      ((client.writesOf 0).filter fun write => write.error = none).length ≤ 1 := by
  obtain ⟨failed, hfailed, hcodec, hphase, hrequest, hopened, hlink, hwrites⟩ :
      ∃ failed, run (step (.knowing [(namelessRequest, [16, 1])]))
          (init { reconnect := some {} })
          [.connect .connected, .call 0 "" "" [] { sends := [.accepted 3, .failed .EPIPE] },
            .notified 0] = some failed ∧
        failed.codec = none ∧
        (failed.calls 0).phase = .sleeping 0 200 (some (.system .EPIPE)) ∧
        (failed.calls 0).request = some namelessRequest ∧
        failed.opened = 1 ∧ failed.links 1 = ⟨.ofFd 1 1, []⟩ ∧
        failed.writes = [⟨0, 0, namelessRequest, [0, 0, 0], some (.system .EPIPE)⟩] :=
    ⟨_, rfl, rfl, rfl, rfl, rfl, rfl, rfl⟩
  have hoffered : (((failed.restored 0).offer failed.opened piecemeal).links failed.opened).conn =
      { UnixSocketConnection.ofFd 1 1 with sends := piecemeal.sends, reads := piecemeal.reads } := by
    rw [offer, setLink_links, if_pos rfl, hopened,
      show (failed.restored 0).links 1 = ⟨.ofFd 1 1, []⟩ from hlink]
    rfl
  have hsend : EnvelopeCodec.send (.knowing [(namelessRequest, [16, 1])])
      (((failed.restored 0).offer failed.opened piecemeal).links failed.opened).conn
        namelessRequest =
      some (none, { UnixSocketConnection.ofFd 1 1 with
        wire := [0, 0, 0, 2, 16, 1], reads := piecemeal.reads }) := by
    rw [hoffered]
    rfl
  obtain ⟨next, hlost⟩ : ∃ next, Exchanged _ ((failed.restored 0).offer failed.opened piecemeal) 0
      failed.opened namelessRequest .resend next :=
    ⟨_, .lost hsend (EnvelopeCodec.recv_of_end rfl)⟩
  have hrun := @run_append_of_run _ _ _ _ _ _ [.wake 0 .connected piecemeal] hfailed
  rw [run_cons, step_resent hcodec hphase hrequest hlost] at hrun
  obtain ⟨error, conn, hexchanging⟩ := hlost.exchanging
  cases hexchanging.send_eq.symm.trans hsend
  have hwritten := hexchanging.writes_eq
  rw [show ((failed.restored 0).offer failed.opened piecemeal).writes = failed.writes from rfl,
    hoffered, hwrites, hopened] at hwritten
  obtain ⟨-, -, -, -, hpeers⟩ := request_sent_at_most_once _ _ hrun 0
  obtain ⟨hframes, honce⟩ := hpeers (by decide)
  have hfirst := hframes 0
  have hsecond := hframes 1
  rw [writesOn, hwritten] at hfirst hsecond
  refine ⟨_, hrun, ?_, ?_, ?_, honce⟩
  · rw [writesOf, hwritten]
    rfl
  · exact List.map_eq_nil_iff.mp hfirst
  · exact List.map_injective_iff.mpr (Option.some_injective _) hsecond

end Client

end Ibridger.Cpp
