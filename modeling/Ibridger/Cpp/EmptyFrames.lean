import Ibridger.Cpp.Correlation
import Ibridger.Wire.EmptyFrames

/-! # Empty frames and the calls of the C++ client

On every connection the request number `r` is followed by the receiving of frame
number `r`, empty or not, and the result of its call depends on that frame alone.
-/

namespace Ibridger.Cpp

open LengthPrefix Spacing Transition Wire

variable {format : EnvelopeFormat}

/-- What `codec_->recv` finds in bytes that are delivered. -/
theorem EnvelopeCodec.recv_of_delivers {conn last : UnixSocketConnection} {bytes : List UInt8}
    {result : Except ErrorCode Envelope} (hdelivers : Delivers [] conn.reads bytes)
    (hrecv : EnvelopeCodec.recv format conn = some (result, last)) :
    frameHeader.scan bytes = .stuck .oversized ∨
      ∃ payload rest, frameHeader.scan bytes = .frame payload rest ∧
        Delivers [] last.reads rest ∧
        result = (format.parse payload).mapError fun _ => .ibridger .serializationError := by
  unfold EnvelopeCodec.recv at hrecv
  cases hscan : frameHeader.scan bytes with
  | stuck ending =>
      cases ending with
      | oversized => exact .inl rfl
      | truncated =>
          rw [FramedConnection.recvFrame_blocks _ hdelivers hscan] at hrecv
          cases hrecv
  | frame payload rest =>
      obtain ⟨left, hframe, hleft⟩ := FramedConnection.recvFrame_of_frame _ hdelivers hscan
      rw [hframe] at hrecv
      dsimp only at hrecv
      refine .inr ⟨payload, rest, rfl, ?_⟩
      cases hparse : format.parse payload with
      | error message =>
          rw [hparse] at hrecv
          cases hrecv
          exact ⟨hleft, rfl⟩
      | ok response =>
          rw [hparse] at hrecv
          cases hrecv
          exact ⟨hleft, rfl⟩

namespace Client

variable (format) in
/-- What a call returns that reads a frame behind its request. -/
def resultOf (request : Envelope) (payload : List UInt8) : Except ErrorCode Envelope :=
  match format.parse payload with
  | .ok response => accept request response
  | .error _ => .error (.ibridger .serializationError)

variable (format) in
/-- Where a call is that has read a frame behind its request. -/
inductive Finds (request : Envelope) (payload : List UInt8) : CallPhase → Prop where
  | returned : Finds request payload (.returned (resultOf format request payload))
  | notifying (err : ErrorCode) (hresult : resultOf format request payload = .error err) :
      Finds request payload (.notifying (.recv err))

variable (format) in
/-- Frames that have come are read in the order of the requests. -/
structure InTurn (client : Client) : Prop where
  unopened : ∀ c, client.opened ≤ c →
    (client.links c).conn.reads = [] ∧ (client.links c).arrived = []
  current : ∀ c, client.codec = some c → ∃ frames front,
    (client.links c).arrived = frameHeader.stream frames ++ front ∧ frameHeader.Fits frames ∧
      Delivers [] (client.links c).conn.reads front ∧ frames.length = (client.writesOn c).length
  found : ∀ c (k : Nat) write, (client.writesOn c)[k]? = some write → write.error = none →
    (frameHeader.parse (client.links c).arrived).ending ≠ .oversized →
      ∃ payload, (frameHeader.parse (client.links c).arrived).frames[k]? = some payload ∧
        Finds format write.request payload (client.calls write.call).phase

variable (format) in
/-- The client of a run without lost bytes that reads from the front of the stream
on connection `c`. -/
def ReadsFrom (c : Nat) (stream : List UInt8) (client : Client) : Prop :=
  (∃ config events, (∀ event ∈ events, Progressing event.traffic.sends ∧
      Flowing event.traffic.reads) ∧
    run (step format) (init config) events = some client) ∧
  ∃ rest, (client.links c).arrived ++ rest = stream

/-- A call has sent its request as number `r` of connection `c` and has returned. -/
structure Gets (client : Client) (c i r : Nat) (request : Envelope)
    (result : Except ErrorCode Envelope) : Prop where
  returned : (client.calls i).phase = .returned result
  written : ∃ write, (client.writesOn c)[r]? = some write ∧ write.call = i ∧
    write.request = request ∧ write.error = none

variable {client middle next : Client}

theorem Finds.waits {request : Envelope} {payload : List UInt8} {before after : CallPhase}
    (hfinds : Finds format request payload before) (hwaits : Waits before after) :
    Finds format request payload after := by
  cases hfinds with
  | returned => cases hwaits
  | notifying err hresult =>
      cases hwaits
      rw [← hresult]
      exact .returned

theorem init_inTurn (config : ClientConfig) : InTurn format (init config) := by
  refine ⟨fun _ _ => ⟨rfl, rfl⟩, fun _ hcodec => ?_, fun _ _ _ hwrite => ?_⟩
  · cases hcodec
  · cases hwrite

theorem InTurn.quiet (hturn : InTurn format client) (honce : AtMostOnce format client)
    (hquiet : Quiet client next) : InTurn format next := by
  have hwrites : ∀ c, next.writesOn c = client.writesOn c := by
    intro c
    rw [writesOn, hquiet.writes_eq, writesOn]
  refine ⟨?_, ?_, ?_⟩
  · intro c hc
    rw [(hquiet.links c).2.2.1, (hquiet.links c).2.2.2]
    exact hturn.unopened c (Nat.le_trans hquiet.opened_le hc)
  · intro c hc
    rw [(hquiet.links c).2.2.1, (hquiet.links c).2.2.2, hwrites]
    rcases hquiet.codec with ⟨hnone | hsame, -⟩ | ⟨-, hnew, -⟩
    · rw [hnone] at hc
      cases hc
    · exact hturn.current c (hsame ▸ hc)
    · rw [hnew] at hc
      cases hc
      obtain ⟨hreads, harrived⟩ := hturn.unopened _ (Nat.le_refl _)
      rw [hreads, harrived, honce.writesOn_opened (Nat.le_refl _)]
      exact ⟨[], [], rfl, frameHeader.fits_nil, .nil, rfl⟩
  · intro c k write hwrite herror
    rw [(hquiet.links c).2.2.2]
    intro hending
    rw [hwrites] at hwrite
    obtain ⟨payload, hframe, hfinds⟩ := hturn.found c k write hwrite herror hending
    refine ⟨payload, hframe, ?_⟩
    rcases (hquiet.calls write.call).phase with hsame | hwaits
    · rwa [hsame]
    · exact hfinds.waits hwaits

theorem resultOf_of_error {payload : List UInt8} {err : ErrorCode} (request : Envelope)
    (hresult : .error err =
      (format.parse payload).mapError fun _ => ErrorCode.ibridger .serializationError) :
    resultOf format request payload = .error err := by
  unfold resultOf
  cases hparse : format.parse payload with
  | ok response =>
      rw [hparse] at hresult
      cases hresult
  | error message =>
      rw [hparse] at hresult
      cases hresult
      rfl

theorem resultOf_of_ok {payload : List UInt8} {response : Envelope} (request : Envelope)
    (hresult : .ok response =
      (format.parse payload).mapError fun _ => ErrorCode.ibridger .serializationError) :
    resultOf format request payload = accept request response := by
  unfold resultOf
  cases hparse : format.parse payload with
  | ok same =>
      rw [hparse] at hresult
      cases hresult
      rfl
  | error message =>
      rw [hparse] at hresult
      cases hresult

section Exchange

variable {i c : Nat} {traffic : Traffic} {request : Envelope}
  {after : ErrorCode → AfterDisconnect} {error : Option ErrorCode} {conn : UnixSocketConnection}

/-- On the connection on which a call is about to write, a frame has been read for
every request. -/
theorem InTurn.prepared (hturn : InTurn format client) (honce : AtMostOnce format client)
    (hflowing : Flowing traffic.reads) (hprepared : Prepared client i c traffic request middle) :
    ∃ frames front, (middle.links c).arrived = frameHeader.stream frames ++ front ∧
      frameHeader.Fits frames ∧ Delivers [] (middle.links c).conn.reads front ∧
      frames.length = (client.writesOn c).length := by
  have hbefore : ∃ frames front, (client.links c).arrived = frameHeader.stream frames ++ front ∧
      frameHeader.Fits frames ∧ Delivers [] (client.links c).conn.reads front ∧
      frames.length = (client.writesOn c).length := by
    rcases hprepared.conn with ⟨hopen, -⟩ | ⟨-, rfl, -⟩
    · exact hturn.current c hopen
    · obtain ⟨hreads, harrived⟩ := hturn.unopened _ (Nat.le_refl _)
      rw [hreads, harrived, honce.writesOn_opened (Nat.le_refl _)]
      exact ⟨[], [], rfl, frameHeader.fits_nil, .nil, rfl⟩
  obtain ⟨frames, front, harrived, hfits, hdelivers, hlength⟩ := hbefore
  rw [hprepared.links_eq, offer, setLink_links, if_pos rfl]
  refine ⟨frames, front ++ bytesOf traffic.reads, ?_, hfits, hdelivers.append hflowing.delivers,
    hlength⟩
  dsimp only
  rw [harrived, List.append_assoc]

/-- What was found for earlier requests stays found while more comes in. -/
theorem InTurn.found_before (hturn : InTurn format client) (honce : AtMostOnce format client)
    (hprepared : Prepared client i c traffic request middle)
    (hexchanging : Exchanging format middle i c request after error conn next) {d k : Nat}
    {write : Write} (hwrite : (client.writesOn d)[k]? = some write) (herror : write.error = none)
    (hending : (frameHeader.parse (next.links d).arrived).ending ≠ .oversized) :
    ∃ payload, (frameHeader.parse (next.links d).arrived).frames[k]? = some payload ∧
      Finds format write.request payload (next.calls write.call).phase := by
  have harrived : (next.links d).arrived =
      (client.links d).arrived ++ if d = c then bytesOf traffic.reads else [] := by
    rw [(hexchanging.links_eq d).2.2.1, hprepared.links_eq, (client.offer_links c d traffic).2.2.2]
  rw [harrived] at hending ⊢
  obtain ⟨payload, hframe, hfinds⟩ := hturn.found d k write hwrite herror
    fun hoversized => hending (frameHeader.parse_append_of_oversized hoversized _)
  obtain ⟨more, hmore⟩ := frameHeader.parse_frames_prefix (client.links d).arrived
    (if d = c then bytesOf traffic.reads else [])
  refine ⟨payload, ?_, ?_⟩
  · rw [← hmore, List.getElem?_append_left (List.getElem?_eq_some_iff.mp hframe).1, hframe]
  · -- the call has not sent anything yet, or has failed to
    have hother : write.call ≠ i := fun hsame =>
      ((honce.prepared hprepared).2 write
        (mem_writesOn.mp (List.mem_of_getElem? hwrite)).1 hsame).2.2 herror
    rw [hexchanging.calls_eq _ hother, hprepared.calls_eq _ hother]
    exact hfinds

/-- What is found behind an exchange: what was before, and a frame for its request. -/
theorem InTurn.found_exchanging (hturn : InTurn format client) (honce : AtMostOnce format client)
    (hprepared : Prepared client i c traffic request middle)
    (hexchanging : Exchanging format middle i c request after error conn next)
    (hnew : error = none → (frameHeader.parse (next.links c).arrived).ending ≠ .oversized →
      ∃ payload, (frameHeader.parse (next.links c).arrived).frames[(client.writesOn c).length]? =
          some payload ∧ Finds format request payload (next.calls i).phase) :
    ∀ d (k : Nat) write, (next.writesOn d)[k]? = some write → write.error = none →
      (frameHeader.parse (next.links d).arrived).ending ≠ .oversized →
        ∃ payload, (frameHeader.parse (next.links d).arrived).frames[k]? = some payload ∧
          Finds format write.request payload (next.calls write.call).phase := by
  intro d k write hwrite herror hending
  by_cases hd : d = c
  · subst hd
    rw [hexchanging.writesOn_self hprepared, List.getElem?_append] at hwrite
    split at hwrite
    next hlt => exact hturn.found_before honce hprepared hexchanging hwrite herror hending
    next hge =>
      -- the write of this exchange is the last
      obtain ⟨hzero, hlast⟩ := List.getElem?_eq_some_iff.mp hwrite
      rw [List.length_singleton, Nat.lt_one_iff] at hzero
      have hk : k = (client.writesOn d).length := by omega
      subst hk
      simp only [hzero, List.getElem_cons_zero] at hlast
      subst hlast
      exact hnew herror hending
  · rw [hexchanging.writesOn_other hprepared hd] at hwrite
    exact hturn.found_before honce hprepared hexchanging hwrite herror hending

theorem InTurn.unopened_exchanging (hturn : InTurn format client)
    (honce : AtMostOnce format client) (hprepared : Prepared client i c traffic request middle)
    (hexchanging : Exchanging format middle i c request after error conn next) :
    ∀ d, next.opened ≤ d → (next.links d).conn.reads = [] ∧ (next.links d).arrived = [] := by
  intro d hd
  obtain ⟨hne, hle⟩ := honce.unopened_behind hprepared hexchanging hd
  obtain ⟨-, -, harrived, hreads⟩ := hexchanging.links_eq d
  rw [hreads hne, harrived, hprepared.links_eq, offer, setLink_links, if_neg hne]
  exact hturn.unopened d hle

theorem InTurn.exchanging (hturn : InTurn format client) (honce : AtMostOnce format client)
    (hstreams : Streams format client) (hprogress : Progressing traffic.sends)
    (hflowing : Flowing traffic.reads) (hprepared : Prepared client i c traffic request middle)
    (hexchanging : Exchanging format middle i c request after error conn next) :
    InTurn format next := by
  obtain ⟨frames, front, harrived, hfits, hdelivers, hlength⟩ :=
    hturn.prepared honce hflowing hprepared
  have hsame : conn.reads = (middle.links c).conn.reads := by
    have hbefore := hstreams.progressing_prepared hprogress hprepared c
    exact (Write.sound_of_send hbefore hexchanging.send_eq i c).2.2.2.1
  rw [← hsame] at hdelivers
  have hcome : (next.links c).arrived = frameHeader.stream frames ++ front := by
    rw [(hexchanging.links_eq c).2.2.1, harrived]
  have hunopened := hturn.unopened_exchanging honce hprepared hexchanging
  have hfound := hturn.found_exchanging honce hprepared hexchanging
  rw [← hlength] at hfound
  have hparse : ∀ {payload rest}, frameHeader.scan front = .frame payload rest →
      (frameHeader.parse (next.links c).arrived).frames[frames.length]? = some payload := by
    intro payload rest hscan
    rw [hcome, frameHeader.parse_stream_append hfits, frameHeader.parse_of_frame hscan]
    exact List.getElem?_append_right (Nat.le_refl _) |>.trans (by rw [Nat.sub_self]; rfl)
  cases error with
  | some err =>
      obtain ⟨-, -, hcodec⟩ := hexchanging.unsent err rfl
      refine ⟨hunopened, ?_, hfound fun h => (by cases h)⟩
      intro d hd
      rw [hcodec] at hd
      cases hd
  | none =>
      rcases (hexchanging.sent rfl).2 with ⟨err, last, hrecv, hphase, hcodec⟩ |
        ⟨response, last, hrecv, hphase, hcodec, hlink⟩
      · refine ⟨hunopened, ?_, hfound fun _ hending => ?_⟩
        · intro d hd
          rw [hcodec] at hd
          cases hd
        · rcases EnvelopeCodec.recv_of_delivers hdelivers hrecv with hscan |
            ⟨payload, rest, hscan, -, hresult⟩
          · rw [hcome, frameHeader.parse_stream_append hfits,
              frameHeader.parse_of_stuck hscan] at hending
            exact absurd rfl hending
          · refine ⟨payload, hparse hscan, ?_⟩
            rw [hphase]
            exact .notifying err (resultOf_of_error request hresult)
      · rcases EnvelopeCodec.recv_of_delivers hdelivers hrecv with hscan |
          ⟨payload, rest, hscan, hrest, hresult⟩
        · -- an oversized header is no response
          obtain ⟨left, hframe, -⟩ := FramedConnection.recvFrame_of_oversized _ hdelivers hscan
          rw [EnvelopeCodec.recv, hframe] at hrecv
          cases hrecv
        · refine ⟨hunopened, ?_, hfound fun _ _ => ⟨payload, hparse hscan, ?_⟩⟩
          · intro d hd
            rw [hcodec, hprepared.codec_eq] at hd
            cases hd
            obtain ⟨hfront, hpayload⟩ := frameHeader.eq_of_scan_frame hscan
            refine ⟨frames ++ [payload], rest, ?_, ?_, ?_, ?_⟩
            · rw [hcome, hfront, Header.stream_append, Header.stream_cons, Header.stream_nil,
                List.append_nil, List.append_assoc]
            · exact frameHeader.fits_append.mpr
                ⟨hfits, frameHeader.fits_cons.mpr ⟨hpayload, frameHeader.fits_nil⟩⟩
            · rwa [hlink]
            · rw [hexchanging.writesOn_self hprepared, List.length_append, List.length_append,
                hlength, List.length_singleton, List.length_singleton]
          · rw [hphase, ← resultOf_of_ok request hresult]
            exact .returned

end Exchange

/-- In runs in which all bytes come in, frames are read in the order of the requests. -/
theorem run_inTurn {config : ClientConfig} {events : List ClientEvent}
    (htraffic : ∀ event ∈ events, Progressing event.traffic.sends ∧ Flowing event.traffic.reads)
    (hrun : run (step format) (init config) events = some client) : InTurn format client := by
  refine (run_invariant_of_guarded (fun client => AtMostOnce format client ∧
    Streams format client ∧ InTurn format client) ?_
    ⟨atMostOnce_init config, streams_init config, init_inTurn config⟩
    (guarded_of_forall_mem htraffic) hrun).2.2
  rintro client event next ⟨honce, hstreams, hturn⟩ ⟨hprogress, hflowing⟩ hstep
  refine ⟨honce.step hstep, hstreams.step honce hprogress hstep, ?_⟩
  rcases step_cases hstep with hquiet | ⟨i, c, request, after, middle, error, conn, hprepared, -,
    hexchanging⟩
  · exact hturn.quiet honce hquiet
  · exact hturn.exchanging honce hstreams hprogress hflowing hprepared hexchanging

/-- A call that has returned behind its request has read the frame whose turn it is. -/
theorem Gets.answered {frames : List (List UInt8)} {c i r : Nat} {request : Envelope}
    {result : Except ErrorCode Envelope} (hfits : frameHeader.Fits frames)
    (hreads : client.ReadsFrom format c (frameHeader.stream frames))
    (hgets : client.Gets c i r request result) :
    ∃ payload, frames[r]? = some payload ∧ result = resultOf format request payload := by
  obtain ⟨⟨config, events, htraffic, hrun⟩, rest, hstream⟩ := hreads
  obtain ⟨write, hwrite, rfl, rfl, herror⟩ := hgets.written
  obtain ⟨more, hmore⟩ := frameHeader.parse_frames_prefix (client.links c).arrived rest
  obtain ⟨payload, hframe, hfinds⟩ := (run_inTurn htraffic hrun).found c r write hwrite herror
    (frameHeader.not_oversized_of_stream hfits hstream)
  refine ⟨payload, ?_, ?_⟩
  · rw [hstream, frameHeader.parse_stream hfits] at hmore
    dsimp only at hmore
    rw [← hmore, List.getElem?_append_left (List.getElem?_eq_some_iff.mp hframe).1, hframe]
  · rw [hgets.returned] at hfinds
    cases hfinds
    rfl

variable {spaced : List (Option (List UInt8))} {first second : Client} {c i r : Nat}
  {request : Envelope} {result result' : Except ErrorCode Envelope}

/-- As long as no empty frame comes before the frame whose turn it is, the result
is the same. -/
theorem result_eq_of_not_mem (hfits : frameHeader.Fits (plain spaced))
    (hfirst : first.ReadsFrom format c (frameHeader.stream (plain spaced)))
    (hsecond : second.ReadsFrom format c (frameHeader.stream (filled [] spaced)))
    (hgets : first.Gets c i r request result) (hgets' : second.Gets c i r request result')
    (hnone : none ∉ spaced.take (r + 1)) : result = result' := by
  obtain ⟨payload, hframe, rfl⟩ := hgets.answered hfits hfirst
  obtain ⟨payload', hframe', rfl⟩ :=
    hgets'.answered (forall_mem_filled (Nat.zero_le _) hfits) hsecond
  rw [getElem?_filled [] hnone, hframe] at hframe'
  cases hframe'
  rfl

/-- Behind an empty frame, a call finds the id of another request. -/
theorem result_ne_of_mem (hempty : format.parse [] = .ok .empty)
    (hfits : frameHeader.Fits (plain spaced))
    (hfirst : first.ReadsFrom format c (frameHeader.stream (plain spaced)))
    (hsecond : second.ReadsFrom format c (frameHeader.stream (filled [] spaced)))
    (hgets : first.Gets c i r request result) (hgets' : second.Gets c i r request result')
    (hmirrored : Mirrored format ((first.writesOn c).map Write.request) (plain spaced) r)
    (hnone : none ∈ spaced.take (r + 1)) : result ≠ result' := by
  obtain ⟨payload, hframe, rfl⟩ := hgets.answered hfits hfirst
  obtain ⟨payload', hframe', rfl⟩ :=
    hgets'.answered (forall_mem_filled (Nat.zero_le _) hfits) hsecond
  obtain ⟨write, hwrite, -, rfl, -⟩ := hgets.written
  have hrequest : ((first.writesOn c).map Write.request)[r]? = some write.request := by
    rw [List.getElem?_map, hwrite, Option.map_some]
  obtain ⟨response, hparse, hid⟩ := hmirrored.own hrequest hframe
  obtain ⟨other, hparse', hother⟩ := hmirrored.shifted hempty hnone hframe'
  rw [resultOf, hparse, resultOf, hparse']
  dsimp only
  rw [accept, if_pos hid, accept, if_neg (hmirrored.requestId_ne hrequest hother)]
  exact fun h => (by cases h)

end Client

end Ibridger.Cpp
