import Ibridger.Cpp.Correlation
import Ibridger.Cpp.Deadlines
import Ibridger.Wire.RequestIds

/-! # Request ids and connections, in C++

`next_request_id_` belongs to the client, and neither connecting nor disconnecting
sets it back. So the ids on a connection start from 1 only where no other connection
and no failed request has used up an id.
-/

namespace Ibridger.Cpp

open Transition Wire

namespace Client

variable {format : EnvelopeFormat} {client next : Client} {event : ClientEvent}

variable (format) in
/-- A call sends only where the requests of all the other calls stand on the same
connection, with smaller ids. -/
def InStep (client : Client) (event : ClientEvent) : Prop :=
  ∀ i c request, Sends client event i c request → ∀ j other, j ≠ i →
    (client.calls j).request = some other →
      other ∈ format.envelopes (client.links c).conn.wire ∧ other.requestId < request.requestId

variable (format) in
/-- On every connection the requests are numbered from 1 on. -/
def Restarts (client : Client) : Prop :=
  ∀ c, FromOne (format.requestIds (client.links c).conn.wire)

/-- Every id up to the last one taken is the id of a request. -/
structure Spends (client : Client) : Prop where
  unnamed : ∀ i, Fresh (client.calls i).phase → (client.calls i).request = none
  taken_pos : ∀ i request, (client.calls i).request = some request → 0 < client.taken
  spent : ∀ k, 0 < k → k ≤ client.taken → ∃ i request,
    (client.calls i).request = some request ∧ request.requestId = UInt64.ofNat k

theorem spends_init (config : ClientConfig) : Spends (init config) := by
  refine ⟨fun _ _ => rfl, ?_, ?_⟩
  · intro i request hrequest
    cases hrequest
  · intro k hpos hle
    exact absurd (Nat.lt_of_lt_of_le hpos hle) (Nat.lt_irrefl 0)

theorem Spends.quiet (hspends : Spends client) (hquiet : Quiet client next) : Spends next := by
  have hrequest := fun i => (hquiet.calls i).request_eq
  refine ⟨?_, ?_, ?_⟩
  · intro i hfresh
    rw [hrequest]
    exact hspends.unnamed i ((hquiet.calls i).fresh hfresh)
  · intro i request hsome
    rw [hrequest] at hsome
    rw [hquiet.counters_eq.2]
    exact hspends.taken_pos i request hsome
  · intro k hpos hle
    rw [hquiet.counters_eq.2] at hle
    obtain ⟨i, request, hsome, hid⟩ := hspends.spent k hpos hle
    exact ⟨i, request, (hrequest i).trans hsome, hid⟩

theorem Spends.exchanging {middle : Client} {i c : Nat} {traffic : Traffic} {request : Envelope}
    {after : ErrorCode → AfterDisconnect} {error : Option ErrorCode} {conn : UnixSocketConnection}
    (hspends : Spends client) (hnumbered : Numbered client)
    (hprepared : Prepared client i c traffic request middle)
    (hexchanging : Exchanging format middle i c request after error conn next) : Spends next := by
  obtain ⟨-, htaken, -⟩ := hexchanging.counters_eq
  have hrequest := hexchanging.own_request hprepared
  have hothers : ∀ j, j ≠ i → next.calls j = client.calls j :=
    fun j hj => hexchanging.others hprepared hj
  have hbusy := hexchanging.not_fresh
  have hunnamed : ∀ j, Fresh (next.calls j).phase → (next.calls j).request = none := by
    intro j hfresh
    by_cases hj : j = i
    · rw [hj] at hfresh
      exact absurd hfresh hbusy
    · rw [hothers j hj] at hfresh ⊢
      exact hspends.unnamed j hfresh
  rcases hprepared.round with ⟨hfresh, hid, -, hcount⟩ | ⟨-, hpending, -, -, hcount⟩
  · rw [hcount] at htaken
    refine ⟨hunnamed, ?_, ?_⟩
    · intro _ _ _
      rw [htaken]
      exact Nat.succ_pos _
    · intro k hpos hle
      rw [htaken] at hle
      by_cases hlast : k = client.taken + 1
      · refine ⟨i, request, hrequest, ?_⟩
        rw [hid, hnumbered.next_eq, hlast]
      · obtain ⟨j, other, hother, hsame⟩ := hspends.spent k hpos (by omega)
        refine ⟨j, other, ?_, hsame⟩
        have hj : j ≠ i := by
          rintro rfl
          rw [hspends.unnamed j hfresh] at hother
          cases hother
        rw [hothers j hj, hother]
  · rw [hcount] at htaken
    have hsame : ∀ j, (next.calls j).request = (client.calls j).request := by
      intro j
      by_cases hj : j = i
      · rw [hj, hrequest, hpending]
      · rw [hothers j hj]
    refine ⟨hunnamed, ?_, ?_⟩
    · intro j other hother
      rw [hsame] at hother
      rw [htaken]
      exact hspends.taken_pos j other hother
    · intro k hpos hle
      rw [htaken] at hle
      obtain ⟨j, other, hother, hid⟩ := hspends.spent k hpos hle
      exact ⟨j, other, (hsame j).trans hother, hid⟩

/-! ## The requests on a connection -/

/-- A peer reads the requests that were sent without an error. -/
theorem Streams.envelopes_eq (hstreams : Streams format client) (hinverse : format.Inverse)
    (c : Nat) : format.envelopes (client.links c).conn.wire =
      ((client.writesOn c).filter fun write => write.error = none).map Write.request := by
  have hframes := hstreams.frames_eq c
  generalize (client.writesOn c).filter (fun write => write.error = none) = sent at hframes ⊢
  have hcarries : format.Carries (frameHeader.parse (client.links c).conn.wire).frames
      (sent.map Write.request) := by
    have hfits := (frameHeader.parse_spec (client.links c).conn.wire).2.1
    generalize (frameHeader.parse (client.links c).conn.wire).frames = frames at hframes hfits
    induction sent generalizing frames with
    | nil =>
        rw [List.map_eq_nil_iff.mp hframes]
        exact .nil
    | cons write sent ih =>
        cases frames with
        | nil => cases hframes
        | cons frame frames =>
            obtain ⟨hhead, htail⟩ := List.cons_eq_cons.mp hframes
            obtain ⟨hframe, hrest⟩ := frameHeader.fits_cons.mp hfits
            have hparse := hinverse write.request frame hhead.symm hframe
            exact (EnvelopeFormat.Carries.singleton hparse).append (ih frames htail hrest)
  have hread := EnvelopeFormat.readable_append hcarries []
  rw [List.append_nil] at hread
  exact hread.trans (List.append_nil _)

/-- Whose requests stand on a connection. -/
theorem Streams.named (hstreams : Streams format client) (honce : AtMostOnce format client)
    (hinverse : format.Inverse) {c : Nat} {request : Envelope}
    (hmem : request ∈ format.envelopes (client.links c).conn.wire) :
    ∃ i, (client.calls i).request = some request := by
  rw [hstreams.envelopes_eq hinverse] at hmem
  obtain ⟨write, hwrite, rfl⟩ := List.mem_map.mp hmem
  exact ⟨write.call, honce.request_eq write (mem_writesOn.mp (List.mem_filter.mp hwrite).1).1⟩

/-- In step with the other calls, a request has the next id of its connection. -/
theorem Restarts.next_id {middle : Client} {i c : Nat} {request : Envelope}
    (hrestarts : Restarts format client) (honce : AtMostOnce format client)
    (hstreams : Streams format client) (hinverse : format.Inverse) (hnumbered : Numbered client)
    (hspends : Spends client) (hinstep : InStep format client event)
    (hsends : Sends client event i c request)
    (hprepared : Prepared client i c event.traffic request middle) :
    request.requestId.toNat =
      (format.requestIds (client.links c).conn.wire).length + 1 := by
  have hothers := hinstep i c request hsends
  rcases hprepared.round with ⟨hfresh, hid, -, -⟩ | ⟨-, hpending, hcodec, -, -⟩
  · have hunnamed := hspends.unnamed i hfresh
    have hother : ∀ j other, (client.calls j).request = some other →
        other ∈ format.envelopes (client.links c).conn.wire ∧
          other.requestId.toNat < request.requestId.toNat := by
      intro j other hrequest
      have hj : j ≠ i := by
        rintro rfl
        rw [hunnamed] at hrequest
        cases hrequest
      obtain ⟨hmem, hlt⟩ := hothers j other hj hrequest
      exact ⟨hmem, UInt64.lt_iff_toNat_lt.mp hlt⟩
    -- an id that has wrapped is not greater than the id in front of it
    have hsmall : client.taken + 1 < 2 ^ 64 := by
      by_contra hwraps
      obtain ⟨j, other, hrequest, hlast⟩ := hspends.spent (2 ^ 64 - 1) (by decide) (by omega)
      have hlt := (hother j other hrequest).2
      rw [hlast, UInt64.toNat_ofNat'] at hlt
      have hbound := request.requestId.toNat_lt
      omega
    have hvalue : request.requestId.toNat = client.taken + 1 := by
      rw [hid, hnumbered.next_eq]
      exact UInt64.toNat_ofNat_of_lt hsmall
    rw [hvalue]
    apply congrArg (· + 1)
    symm
    apply (hrestarts c).length_eq (Nat.lt_of_succ_lt hsmall)
    · intro k hpos hle
      obtain ⟨j, other, hrequest, hk⟩ := hspends.spent k hpos hle
      rw [← hk]
      exact List.mem_map_of_mem (hother j other hrequest).1
    · intro id hmem
      obtain ⟨other, hmem', rfl⟩ := List.mem_map.mp hmem
      obtain ⟨j, hrequest⟩ := hstreams.named honce hinverse hmem'
      have hlt := (hother j other hrequest).2
      omega
  · -- nothing stands on the connection that the call has opened for its second attempt
    have hempty : format.envelopes (client.links c).conn.wire = [] := by
      have hnew : c = client.opened := by
        rcases hprepared.conn with ⟨hopen, -⟩ | ⟨-, hnew, -⟩
        · rw [hcodec] at hopen
          cases hopen
        · exact hnew
      rw [hstreams.envelopes_eq hinverse, honce.writesOn_opened (Nat.le_of_eq hnew.symm)]
      rfl
    obtain ⟨j, other, hrequest, hfirst⟩ :=
      hspends.spent 1 Nat.one_pos (hspends.taken_pos i request hpending)
    have hj : j = i := by
      by_contra hne
      have hmem := (hothers j other hne hrequest).1
      rw [hempty] at hmem
      cases hmem
    rw [hj, hpending] at hrequest
    cases hrequest
    rw [hfirst, EnvelopeFormat.requestIds, hempty]
    rfl

/-- A request that is sent without an error comes behind the others. -/
theorem Streams.envelopes_exchanging {middle : Client} {i c : Nat} {traffic : Traffic}
    {request : Envelope} {after : ErrorCode → AfterDisconnect} {error : Option ErrorCode}
    {conn : UnixSocketConnection} (hstreams : Streams format client)
    (hnext : Streams format next) (hinverse : format.Inverse)
    (hprepared : Prepared client i c traffic request middle)
    (hexchanging : Exchanging format middle i c request after error conn next) (d : Nat) :
    format.envelopes (next.links d).conn.wire = format.envelopes (client.links d).conn.wire ++
      if d = c ∧ error = none then [request] else [] := by
  rw [hnext.envelopes_eq hinverse, hstreams.envelopes_eq hinverse, writesOn, hexchanging.writes_eq,
    hprepared.writes_eq, List.filter_append, List.filter_append, List.map_append, ← writesOn]
  congr 1
  by_cases hd : d = c
  · subst hd
    cases error <;> simp
  · rw [List.filter_cons_of_neg (by simpa using Ne.symm hd), if_neg (fun h => hd h.1)]
    rfl

theorem Restarts.step (hrestarts : Restarts format client) (honce : AtMostOnce format client)
    (hstreams : Streams format client) (hnext : Streams format next) (hinverse : format.Inverse)
    (hnumbered : Numbered client) (hspends : Spends client) (hinstep : InStep format client event)
    (hstep : client.step format event = some next) : Restarts format next := by
  intro d
  rcases step_sends hstep with hquiet |
    ⟨i, c, request, after, middle, error, conn, hsends, hprepared, -, hexchanging⟩
  · rw [(hquiet.links d).1]
    exact hrestarts d
  · rw [EnvelopeFormat.requestIds,
      hstreams.envelopes_exchanging hnext hinverse hprepared hexchanging]
    split
    next hwritten =>
      rw [hwritten.1, List.map_append]
      exact (hrestarts c).concat
        (hrestarts.next_id honce hstreams hinverse hnumbered hspends hinstep hsends hprepared)
    next =>
      rw [List.append_nil]
      exact hrestarts d

theorem Spends.step (hspends : Spends client) (hnumbered : Numbered client)
    (hstep : client.step format event = some next) : Spends next := by
  rcases step_cases hstep with hquiet |
    ⟨i, c, request, after, middle, error, conn, hprepared, -, hexchanging⟩
  · exact hspends.quiet hquiet
  · exact hspends.exchanging hnumbered hprepared hexchanging

/-- In a run in which every request is sent in step with the others, the ids on every
connection start from 1. -/
theorem request_ids_restart (config : ClientConfig) (hinverse : format.Inverse)
    {events : List ClientEvent} (hprogress : ∀ event ∈ events, Progressing event.traffic.sends)
    (hguard : Guarded (step format) (InStep format) (init config) events) :
    Throughout (step format) (Restarts format) (init config) events := by
  have hboth : Guarded (step format)
      (fun client event => InStep format client event ∧ Progressing event.traffic.sends)
      (init config) events := hguard.and (guarded_of_forall_mem hprogress)
  refine throughout_of_guarded (fun client => AtMostOnce format client ∧ Streams format client ∧
    Numbered client ∧ Spends client ∧ Restarts format client) (fun client h => h.2.2.2.2) ?_ ?_ hboth
  · rintro client event next ⟨honce, hstreams, hnumbered, hspends, hrestarts⟩ ⟨hinstep, hevent⟩ hstep
    have hnext := hstreams.step honce hevent hstep
    exact ⟨honce.step hstep, hnext, hnumbered.step honce hstep, hspends.step hnumbered hstep,
      hrestarts.step honce hstreams hnext hinverse hnumbered hspends hinstep hstep⟩
  · refine ⟨atMostOnce_init config, streams_init config, numbered_init config, spends_init config, ?_⟩
    intro c
    have hempty : format.envelopes [] = [] := by
      rw [EnvelopeFormat.envelopes, frameHeader.parse_nil]
      rfl
    change FromOne (format.requestIds [])
    rw [EnvelopeFormat.requestIds, hempty]
    exact .nil

/-- A client that makes its first call makes it in step. -/
theorem first_call_inStep :
    Guarded (step counterFormat) (InStep counterFormat) (init {})
      [.connect .connected, .call 0 "" "" [] (answering [16, 1] [8, 1, 16, 1])] := by
  intro connected hconnect
  cases hconnect
  refine ⟨?_, ?_⟩
  · intro i c request hsends
    cases hsends
  · intro client _
    refine ⟨?_, trivial⟩
    intro i c request _ j other _ hother
    cases hother

/-- The second request of a client and the response to it, as protobuf writes them. -/
def secondFormat : EnvelopeFormat :=
  .knowing [({ namelessRequest with requestId := 2 }, [16, 2]),
    (acknowledge 0 0 { namelessRequest with requestId := 2 }, [8, 1, 16, 2])]

theorem secondFormat_inverse : secondFormat.Inverse :=
  EnvelopeFormat.knowing_inverse (by decide)

/-- A call loses its connection, and the user connects again and calls. -/
def callsAgain : List ClientEvent :=
  spending 0 ++ [.connect .connected, .call 1 "" "" [] (answering [16, 2] [8, 1, 16, 2])]

theorem progressing_callsAgain : ∀ event ∈ callsAgain, Progressing event.traffic.sends := by
  decide

/-- The first request on the second connection has the id 2. -/
theorem callsAgain_requestIds :
    ∃ client, run (step secondFormat) (init {}) callsAgain = some client ∧
      secondFormat.requestIds (client.links 1).conn.wire = [2] := by
  obtain ⟨spent, hrun, hspent, -⟩ := @spent_spending secondFormat 0 _ spent_init
  have hconnect : spent.step secondFormat (.connect .connected) =
      some (spent.connectLocked .connected).2 := rfl
  have hconnected := connectLocked_connected hspent.codec_eq
  generalize (spent.connectLocked .connected).2 = connected at hconnect hconnected
  have hcodec : connected.codec = some 1 := by
    rw [hconnected]
    exact congrArg some hspent.opened_eq
  have hid : connected.nextRequestId = 2 :=
    (congrArg Client.nextRequestId hconnected).trans hspent.next_eq
  have hidle : (connected.calls 1).phase = .idle := by
    rw [hconnected]
    exact hspent.idle 1 (Nat.le_refl 1)
  have hrests : Rests (connected.links 1) := by
    rw [hconnected]
    exact hspent.rests
  have hunwritten : connected.writesOn 1 = [] := by
    rw [hconnected]
    exact hspent.writesOn_eq
  obtain ⟨client, hcall, -, -, -, -, hwrites, -⟩ :=
    @step_answered secondFormat connected 1 1 [16, 2] [8, 1, 16, 2]
      { namelessRequest with requestId := 2 } hcodec hidle hrests (by rw [hid]; rfl)
      (EnvelopeFormat.knowing_serialize (by decide) (by decide))
      (EnvelopeFormat.knowing_parse (by decide) (by decide)) (by decide)
      (EnvelopeFormat.knowing_parse (by decide) (by decide)) (by decide)
  have hlast : run (step secondFormat) (init {}) callsAgain = some client := by
    rw [callsAgain, run_append_of_run hrun, run_cons, hconnect, Option.bind_some, run_cons, hcall]
    rfl
  refine ⟨client, hlast, ?_⟩
  rw [EnvelopeFormat.requestIds,
    (run_streams progressing_callsAgain hlast).envelopes_eq secondFormat_inverse, hwrites, hunwritten]
  rfl

end Client

end Ibridger.Cpp
