import Ibridger.Foundation.Progress
import Ibridger.Js.Answering
import Ibridger.Js.Steady

/-! # A client and its server

A JS client and the session of a JS server at the two ends of one socket. The
bytes that one end has written come at the other in order, in chunks of any size.
-/

namespace Ibridger.Js

open LengthPrefix Rpc Transition UnixSocketConnection Wire

structure Link (Value : Type) where
  client : Client Value
  session : Session MethodHandler

inductive LinkEvent where
  | client (event : ClientEvent)
  | session (event : SessionEvent)

namespace Link

variable {Value : Type} (services : ServiceTable MethodHandler) (format : EnvelopeFormat)
  (decode : Nat → List UInt8 → Except String Value)

/-- Only what has been written at the other end can come. -/
def Delivers (link : Link Value) : LinkEvent → Prop
  | .client (.data c chunk) =>
      (link.client.conns c).received ++ chunk <+: link.session.conn.output
  | .session (.data chunk) =>
      link.session.conn.received ++ chunk <+: (link.client.conns 0).output
  | _ => True

instance (link : Link Value) : DecidablePred link.Delivers
  | .client (.data _ _) | .session (.data _) => inferInstanceAs (Decidable (_ <+: _))
  | .client .connect | .client .disconnect | .client (.call _ _ _ _ _)
  | .client (.connected _ _) | .client (.connectFailed _ _) | .client (.close _)
  | .client (.error _ _ _) | .client (.written _ _ _) | .client (.sleepOver _) | .client (.poll _)
  | .client (.timeout _) | .client (.resume _) | .client (.read _) | .session (.written _)
  | .session (.handled _) | .session .resume => inferInstanceAs (Decidable True)

def step (link : Link Value) (event : LinkEvent) : Option (Link Value) :=
  if link.Delivers event then
    match event with
    | .client event =>
        (link.client.step format decode event).map fun client => { link with client := client }
    | .session event =>
        (link.session.step services format event).map fun session =>
          { link with session := session }
  else none

/-- The calls are made one by one and never run out of time, nothing disturbs the
connection, and the handlers are functions. -/
def Allows (fine : Nat → Envelope → Prop) (link : Link Value) : LinkEvent → Prop
  | .client event => link.client.OneByOne fine event
  | .session event => link.session.HandledBy services event

/-- What the two ends do by themselves, once a call has been made. -/
def Own (link : Link Value) : LinkEvent → Prop
  | .client (.data _ chunk) => chunk ≠ []
  | .client (.written _ _ failure) => failure = none
  | .client (.resume _) | .client (.read _) => True
  | .session (.data chunk) => chunk ≠ []
  | .session event => link.session.HandledBy services event
  | _ => False

/-- The client is connected and free, the connection is open at both ends, and
the next call hands its request to the codec, if that has any bytes. -/
structure Ready (link : Link Value) : Prop where
  codec_eq : link.client.codec = some 0
  free : link.client.callInFlight = false
  connected : (link.client.conns 0).connected = true
  live : (link.client.conns 0).socket = .live
  serving : link.session.phase ≠ .ended
  session_live : link.session.conn.socket = .live
  accepts : ∀ i service method payload options bytes, (link.client.calls i).phase = .idle →
    format.serialize (Client.requestEnvelope
      ((link.client.called i service method (.ok payload) options).calls i)
      link.client.nextRequestId payload) = some bytes →
    ∃ next, link.step services format decode
        (.client (.call i service method (.ok payload) options)) = some next ∧
      (next.client.calls i).phase.InFlight

/-- Both ends go on as they should, and each has got what the other has written,
as far as it has come. -/
structure Linked (fine : Nat → Envelope → Prop) (link : Link Value) : Prop where
  sequenced : ∃ frames front requests,
    link.client.Sequenced format decode frames front requests
  steady : link.client.Steady format fine
  live : link.client.Live
  answering : link.session.Answering services format
  inbound : (link.client.conns 0).received <+: link.session.conn.output
  outbound : link.session.conn.received <+: (link.client.conns 0).output

variable {services format decode} {fine : Nat → Envelope → Prop} {link next : Link Value}

theorem step_client {event : ClientEvent}
    (hstep : link.step services format decode (.client event) = some next) :
    link.Delivers (.client event) ∧ ∃ client, link.client.step format decode event = some client ∧
      next = { link with client := client } := by
  unfold step at hstep
  split at hstep
  next hdelivers =>
    obtain ⟨client, hclient, rfl⟩ := Option.map_eq_some_iff.mp hstep
    exact ⟨hdelivers, client, hclient, rfl⟩
  · cases hstep

theorem step_client_some {event : ClientEvent} {client : Client Value}
    (hdelivers : link.Delivers (.client event))
    (hclient : link.client.step format decode event = some client) :
    link.step services format decode (.client event) = some { link with client := client } := by
  rw [step, if_pos hdelivers, hclient, Option.map_some]

theorem step_session {event : SessionEvent}
    (hstep : link.step services format decode (.session event) = some next) :
    link.Delivers (.session event) ∧ ∃ session,
      link.session.step services format event = some session ∧
        next = { link with session := session } := by
  unfold step at hstep
  split at hstep
  next hdelivers =>
    obtain ⟨session, hsession, rfl⟩ := Option.map_eq_some_iff.mp hstep
    exact ⟨hdelivers, session, hsession, rfl⟩
  · cases hstep

namespace Linked

variable (hlinked : link.Linked services format decode fine)

include hlinked

/-- What has come at the client has no frame that is too large. -/
theorem not_oversized {frames : List (List UInt8)} {front : List UInt8} {requests : List Envelope}
    (hseq : link.client.Sequenced format decode frames front requests) :
    frameHeader.scan front ≠ .stuck .oversized := by
  intro hscan
  obtain ⟨taken, behind, hkeeps⟩ := hlinked.answering.keeps
  obtain ⟨rest, hwrote⟩ := hkeeps.wrote hlinked.answering.fits
  obtain ⟨more, hmore⟩ := hlinked.inbound
  rw [← hmore, List.append_assoc] at hwrote
  apply hwrote.not_oversized
  rw [hseq.line.received_eq, frameHeader.parse_stream_append hseq.line.fits,
    frameHeader.parse_of_stuck hscan]

/-- The responses to the requests that have come at the session can be sent. -/
theorem sendable
    (hfine : ∀ i request, fine i request → Sendable format (Dispatch.reply services request)) :
    ∀ request ∈ format.envelopes link.session.conn.received,
      Sendable format (Dispatch.reply services request) := by
  obtain ⟨frames, front, requests, hseq⟩ := hlinked.sequenced
  intro request hrequest
  obtain ⟨i, hrequest⟩ :=
    hlinked.steady.fine_of_mem hseq
      ((EnvelopeFormat.envelopes_mono hlinked.outbound).subset hrequest)
  exact hfine i request hrequest

theorem not_ended (hinverse : format.Inverse) : link.session.phase ≠ .ended := by
  obtain ⟨frames, front, requests, hseq⟩ := hlinked.sequenced
  obtain ⟨rest, all, hwrote⟩ := hseq.wrote
  obtain ⟨more, hmore⟩ := hlinked.outbound
  rw [← hmore, List.append_assoc] at hwrote
  exact hlinked.answering.not_ended hinverse (hwrote.emitted hinverse)

theorem stepClient {event : ClientEvent} {client : Client Value} (hinverse : format.Inverse)
    (hsendable : ∀ i request, fine i request → Sendable format request)
    (hone : link.client.OneByOne fine event) (hdelivers : link.Delivers (.client event))
    (hstep : link.client.step format decode event = some client) :
    { link with client := client }.Linked services format decode fine := by
  obtain ⟨frames, front, requests, hseq⟩ := hlinked.sequenced
  have hproceeds := hlinked.steady.step_cases hinverse hsendable hseq hone hstep
  obtain ⟨hwritten, hcame⟩ := hproceeds.stream
  refine ⟨?_, hlinked.steady.step hinverse hseq hproceeds, Client.live_of_step hlinked.live hstep,
    hlinked.answering, ?_, hlinked.outbound.trans hwritten⟩
  · exact hseq.step (hlinked.not_oversized hseq) hone.undisturbed
      (hlinked.steady.joinsInOrder hseq) hstep
  · rcases hcame with ⟨chunk, rfl, hreceived⟩ | hsame
    · rw [hreceived]
      exact hdelivers
    · rw [hsame]
      exact hlinked.inbound

theorem stepSession {event : SessionEvent} {session : Session MethodHandler}
    (hsendable : ∀ i request, fine i request → Sendable format (Dispatch.reply services request))
    (hhandled : link.session.HandledBy services event) (hdelivers : link.Delivers (.session event))
    (hstep : link.session.step services format event = some session) :
    { link with session := session }.Linked services format decode fine := by
  obtain ⟨hwritten, hcame⟩ := Session.step_stream hstep
  refine ⟨hlinked.sequenced, hlinked.steady, hlinked.live, ?_, hlinked.inbound.trans hwritten, ?_⟩
  · exact hlinked.answering.step hhandled (hlinked.sendable hsendable) hstep
  · rcases hcame with ⟨chunk, rfl, hreceived⟩ | hsame
    · rw [hreceived]
      exact hdelivers
    · rw [hsame]
      exact hlinked.outbound

theorem step {event : LinkEvent} (hinverse : format.Inverse)
    (hfine : ∀ i request, fine i request →
      Sendable format request ∧ Sendable format (Dispatch.reply services request))
    (hallows : link.Allows services fine event)
    (hstep : link.step services format decode event = some next) :
    next.Linked services format decode fine := by
  cases event with
  | client event =>
      obtain ⟨hdelivers, client, hclient, rfl⟩ := step_client hstep
      exact hlinked.stepClient hinverse (fun i request h => (hfine i request h).1) hallows hdelivers
        hclient
  | session event =>
      obtain ⟨hdelivers, session, hsession, rfl⟩ := step_session hstep
      exact hlinked.stepSession (fun i request h => (hfine i request h).2) hallows hdelivers
        hsession

end Linked

/-- A client that has connected, and the session of its connection. -/
theorem onConnection_linked (config : ClientConfig) :
    (⟨Client.onConnection config, Session.fresh⟩ : Link Value).Linked services format decode fine where
  sequenced := ⟨[], [], [], Client.onConnection_sequenced config⟩
  steady := Client.onConnection_steady config
  live := by
    refine ⟨?_, fun _ _ => rfl⟩
    rintro c ⟨⟩
    exact ⟨Nat.zero_lt_one, rfl⟩
  answering := Session.fresh_answering
  inbound := List.prefix_rfl
  outbound := List.prefix_rfl

/-! ## Turns -/

/-- The bytes on their way, the writes that have yet to complete and the turns of
the reads. -/
def load (link : Link Value) : Nat :=
  ((link.client.conns 0).output.length - link.session.conn.received.length) +
    (link.session.conn.output.length - (link.client.conns 0).received.length) +
    link.client.load + pendings link.session.conn

variable (format) in
/-- What is left to do until call `i` has settled: the turns of the call, the
requests that the session has yet to take up, its turns for the one in hand, and
the load. -/
def rank (i : Nat) (link : Link Value) : ℕ ×ₗ ℕ ×ₗ ℕ ×ₗ ℕ :=
  toLex (link.client.turnsOf i,
    toLex ((format.envelopes (link.client.conns 0).output).length - link.session.log.requests.length,
      toLex (link.session.phase.turns, link.load)))

theorem turnsOf_congr {client client' : Client Value} (hcalls : client'.calls = client.calls)
    (i : Nat) : client'.turnsOf i = client.turnsOf i := by
  rw [Client.turnsOf, hcalls, Client.turnsOf]

/-- A chunk leaves less of what was written to be received. -/
theorem unreceived_lt {received written chunk : List UInt8}
    (hdelivers : received ++ chunk <+: written) (hchunk : chunk ≠ []) :
    written.length - (received ++ chunk).length < written.length - received.length := by
  have hroom := hdelivers.length_le
  have hpos := List.length_pos_of_ne_nil hchunk
  rw [List.length_append] at hroom ⊢
  omega

theorem Linked.rank_client {i : Nat} {event : ClientEvent} {client : Client Value}
    (hinverse : format.Inverse)
    (hsendable : ∀ i request, fine i request → Sendable format request)
    (hlinked : link.Linked services format decode fine)
    (hflying : (link.client.calls i).phase.InFlight) (hown : link.Own services (.client event))
    (hone : link.client.OneByOne fine event)
    (hdelivers : link.Delivers (.client event))
    (hstep : link.client.step format decode event = some client) :
    rank format i { link with client := client } < rank format i link := by
  obtain ⟨frames, front, requests, hseq⟩ := hlinked.sequenced
  have hproceeds := hlinked.steady.step_cases hinverse hsendable hseq hone hstep
  rcases hproceeds.turns hseq hflying with hturns | ⟨hcalls, houtput, hload⟩
  · exact Prod.Lex.toLex_lt_toLex.mpr (.inl hturns)
  · refine Prod.Lex.toLex_lt_toLex.mpr (.inr ⟨turnsOf_congr hcalls i, ?_⟩)
    refine Prod.Lex.toLex_lt_toLex.mpr (.inr ⟨by dsimp only; rw [houtput], ?_⟩)
    refine Prod.Lex.toLex_lt_toLex.mpr (.inr ⟨rfl, ?_⟩)
    dsimp only [load]
    rw [houtput]
    rcases hload with ⟨hload, hreceived⟩ | ⟨hload, chunk, rfl, hreceived⟩
    · rw [hreceived]
      omega
    · have hless := unreceived_lt hdelivers hown
      rw [hreceived, hload]
      omega

theorem Linked.rank_session {i : Nat} {event : SessionEvent} {session : Session MethodHandler}
    (hinverse : format.Inverse) (hlinked : link.Linked services format decode fine)
    (hnext : { link with session := session }.Linked services format decode fine)
    (hown : link.Own services (.session event)) (hdelivers : link.Delivers (.session event))
    (hstep : link.session.step services format event = some session) :
    rank format i { link with session := session } < rank format i link := by
  obtain ⟨frames, front, hkeeps⟩ := hlinked.answering.keeps
  obtain ⟨frames', front', hkeeps'⟩ := hnext.answering.keeps
  refine Prod.Lex.toLex_lt_toLex.mpr (.inr ⟨rfl, ?_⟩)
  rcases hkeeps.step_turns hstep with hmore | ⟨hsame, hturns | ⟨hphase, houtput, hload⟩⟩
  · -- the requests taken up are among those that are written
    obtain ⟨⟨-, htaken, -⟩, -, -⟩ := hkeeps'.serves hinverse hnext.answering.fits
    have hall := htaken.length_le
    have hwritten : (format.envelopes session.conn.received).length ≤
        (format.envelopes (link.client.conns 0).output).length :=
      (EnvelopeFormat.envelopes_mono hnext.outbound).length_le
    refine Prod.Lex.toLex_lt_toLex.mpr (.inl ?_)
    dsimp only at hall hwritten ⊢
    omega
  · refine Prod.Lex.toLex_lt_toLex.mpr (.inr ⟨by dsimp only; rw [hsame], ?_⟩)
    exact Prod.Lex.toLex_lt_toLex.mpr (.inl hturns)
  · refine Prod.Lex.toLex_lt_toLex.mpr (.inr ⟨by dsimp only; rw [hsame], ?_⟩)
    refine Prod.Lex.toLex_lt_toLex.mpr (.inr ⟨hphase, ?_⟩)
    dsimp only [load]
    rw [houtput]
    rcases hload with ⟨hload, hreceived⟩ | ⟨hload, chunk, rfl, hreceived⟩
    · rw [hreceived]
      omega
    · have hless := unreceived_lt hdelivers hown
      rw [hreceived, hload]
      omega

/-! ## Rest -/

theorem step_client_none {event : ClientEvent}
    (hdelivers : link.Delivers (.client event))
    (hnone : link.step services format decode (.client event) = none) :
    link.client.step format decode event = none := by
  rw [step, if_pos hdelivers] at hnone
  exact Option.map_eq_none_iff.mp hnone

theorem step_session_none {event : SessionEvent}
    (hdelivers : link.Delivers (.session event))
    (hnone : link.step services format decode (.session event) = none) :
    link.session.step services format event = none := by
  rw [step, if_pos hdelivers] at hnone
  exact Option.map_eq_none_iff.mp hnone

/-- Where neither end can go on by itself, everything that was written has come,
and the session rests. -/
theorem Linked.at_rest (hinverse : format.Inverse)
    (hlinked : link.Linked services format decode fine)
    (hrest : ∀ event, link.Own services event → link.step services format decode event = none) :
    (link.client.conns 0).received = link.session.conn.output ∧
      link.session.conn.received = (link.client.conns 0).output ∧
      link.session.AtRest services format := by
  obtain ⟨frames, front, requests, hseq⟩ := hlinked.sequenced
  obtain ⟨taken, behind, hkeeps⟩ := hlinked.answering.keeps
  obtain ⟨-, hlive⟩ := hlinked.answering.live (hlinked.not_ended hinverse)
  obtain ⟨hopened, hopen⟩ := hlinked.live.codec 0 hseq.codec_eq
  refine ⟨?_, ?_, ?_, ?_, ?_⟩
  · obtain ⟨chunk, hchunk⟩ := hlinked.inbound
    by_cases hall : chunk = []
    · rw [← hchunk, hall, List.append_nil]
    · have hdelivers : link.Delivers (.client (.data 0 chunk)) := by
        simp only [Delivers, hchunk, List.prefix_refl]
      have hnone := step_client_none hdelivers (hrest (.client (.data 0 chunk)) hall)
      rw [Client.step, if_pos ⟨hopened, hopen⟩] at hnone
      cases hnone
  · obtain ⟨chunk, hchunk⟩ := hlinked.outbound
    by_cases hall : chunk = []
    · rw [← hchunk, hall, List.append_nil]
    · have hdelivers : link.Delivers (.session (.data chunk)) := by
        simp only [Delivers, hchunk, List.prefix_refl]
      have hnone := step_session_none hdelivers (hrest (.session (.data chunk)) hall)
      rw [Session.step, if_pos hlive] at hnone
      cases hnone
  · exact step_session_none trivial (hrest (.session .resume) trivial)
  · intro request hphase
    obtain ⟨-, -, handler, hlocate⟩ := hkeeps.handling hphase
    have hown : link.Own services (.session (.handled (handler request.payload))) := by
      intro other handler' hother hlocate'
      rw [hphase] at hother
      cases hother
      rw [hlocate] at hlocate'
      cases hlocate'
      rfl
    have hnone : link.session.step services format (.handled (handler request.payload)) = none :=
      step_session_none trivial (hrest _ hown)
    simp only [Session.step, hphase] at hnone
    cases hnone
  · intro send hpending
    have hnone : link.session.step services format (.written send) = none :=
      step_session_none trivial (hrest (.session (.written send)) trivial)
    rw [Session.step, if_pos hpending] at hnone
    cases hnone

/-- A call in flight can go on: the session has answered every request, and the
client has got every response. -/
theorem Linked.goes_on {i : Nat} (hinverse : format.Inverse)
    (hlinked : link.Linked services format decode fine)
    (hflying : (link.client.calls i).phase.InFlight) :
    ∃ event next, link.Own services event ∧
      link.step services format decode event = some next := by
  by_contra hnowhere
  have hrest : ∀ event, link.Own services event →
      link.step services format decode event = none := by
    intro event hown
    apply Option.eq_none_iff_forall_ne_some.mpr
    exact fun next hnext => hnowhere ⟨event, next, hown, hnext⟩
  obtain ⟨hinbound, houtbound, hsession⟩ := hlinked.at_rest hinverse hrest
  obtain ⟨frames, front, requests, hseq⟩ := hlinked.sequenced
  obtain ⟨taken, behind, hkeeps⟩ := hlinked.answering.keeps
  have hresume : link.client.step format decode (.resume i) = none :=
    step_client_none trivial (hrest (.client (.resume i)) trivial)
  have hreads : ∀ r, link.client.step format decode (.read r) = none :=
    fun r => step_client_none trivial (hrest (.client (.read r)) trivial)
  have hwritten : ∀ send : Nat, (link.client.conns 0).sends[send]? ≠ some .pending := by
    intro send hpending
    have hnone : link.client.step format decode (.written 0 send none) = none :=
      step_client_none trivial (hrest (.client (.written 0 send none)) rfl)
    rw [Client.step, if_pos ⟨(hlinked.live.codec 0 hseq.codec_eq).1, hpending⟩] at hnone
    cases hnone
  obtain ⟨hsent, hlacks, hscan⟩ := hlinked.steady.awaits hinverse hseq hflying hresume hreads hwritten
  obtain ⟨-, hserved, -⟩ := hkeeps.serves hinverse hlinked.answering.fits
  obtain ⟨hrequests, hresponses⟩ := hserved hsession
  rw [houtbound, hsent.envelopes_eq] at hrequests
  rw [← hinbound, hseq.line.received_eq] at hresponses
  have hcount := hresponses.length_eq_of_stuck hseq.line.fits hscan
  rw [Log.responses, List.length_map, ← @List.length_map _ _ link.session.log.exchanges
    Exchange.request, hrequests] at hcount
  exact Nat.ne_of_lt hlacks hcount

theorem Own.allows {event : LinkEvent} (hown : link.Own services event) :
    link.Allows services fine event := by
  cases event with
  | session event =>
      cases event with
      | data => trivial
      | written | handled | resume => exact hown
  | client event =>
      cases event with
      | data | resume | read => trivial
      | written => exact hown
      | connect | disconnect | call | connected | connectFailed | close | error | sleepOver | poll
      | timeout => cases hown

/-- A call that has been made is in flight, or it has settled. -/
theorem Linked.inFlight_or_settled {i : Nat} (hlinked : link.Linked services format decode fine)
    (hmade : (link.client.calls i).phase ≠ .idle) :
    (link.client.calls i).phase.InFlight ∨
      ∃ result, (link.client.calls i).phase = .settled result := by
  have hsmooth := hlinked.steady.smooth i
  cases hphase : (link.client.calls i).phase with
  | idle => exact absurd hphase hmade
  | sending | receiving => exact .inl trivial
  | settled result => exact .inr ⟨result, rfl⟩
  | waiting | starting | failing =>
      rw [hphase] at hsmooth
      cases hsmooth

/-- A call that has been made is bound to settle. -/
theorem Linked.settles {i : Nat} (hinverse : format.Inverse)
    (hfine : ∀ i request, fine i request →
      Sendable format request ∧ Sendable format (Dispatch.reply services request))
    (hlinked : link.Linked services format decode fine)
    (hmade : (link.client.calls i).phase ≠ .idle) :
    Inevitable (Link.step services format decode) (Own services)
      (fun link => link.Linked services format decode fine ∧
        ∃ result, (link.client.calls i).phase = .settled result) link := by
  refine inevitable_of_rank (fun link : Link Value => link.Linked services format decode fine ∧
    (link.client.calls i).phase ≠ .idle) (rank format i) ?_ ?_ ⟨hlinked, hmade⟩
  · rintro link event next ⟨hlinked, hmade⟩ hunsettled hown hstep
    have hnext := hlinked.step hinverse hfine hown.allows hstep
    have hflying := (hlinked.inFlight_or_settled hmade).resolve_right
      fun hsettled => hunsettled ⟨hlinked, hsettled⟩
    cases event with
    | client event =>
        obtain ⟨hdelivers, client, hclient, rfl⟩ := step_client hstep
        obtain ⟨frames, front, requests, hseq⟩ := hlinked.sequenced
        have hone : link.client.OneByOne fine event := @Own.allows _ _ fine _ (.client event) hown
        have hproceeds := hlinked.steady.step_cases hinverse (fun i request h => (hfine i request h).1)
          hseq hone hclient
        refine ⟨⟨hnext, hproceeds.made hmade⟩, ?_⟩
        exact hlinked.rank_client hinverse (fun i request h => (hfine i request h).1) hflying hown
          hone hdelivers hclient
    | session event =>
        obtain ⟨hdelivers, session, hsession, rfl⟩ := step_session hstep
        exact ⟨⟨hnext, hmade⟩, hlinked.rank_session hinverse hnext hown hdelivers hsession⟩
  · rintro link ⟨hlinked, hmade⟩ hunsettled
    apply hlinked.goes_on hinverse
    exact (hlinked.inFlight_or_settled hmade).resolve_right
      fun hsettled => hunsettled ⟨hlinked, hsettled⟩

/-- Between the calls, both ends are ready for the next one. -/
theorem Linked.ready (hinverse : format.Inverse)
    (hlinked : link.Linked services format decode fine)
    (hnone : ∀ i, ¬ (link.client.calls i).phase.InFlight) : link.Ready services format decode := by
  obtain ⟨frames, front, requests, hseq⟩ := hlinked.sequenced
  have hgoes := hlinked.not_ended hinverse
  have hfree : link.client.callInFlight = false := by
    cases hseq.flight with
    | free hfree => exact hfree
    | sending i _ _ _ _ _ _ hphase => exact absurd (by rw [hphase]; trivial) (hnone i)
    | receiving i _ _ _ _ hphase => exact absurd (by rw [hphase]; trivial) (hnone i)
    | failing i _ hphase => exact absurd (by rw [hphase]; trivial) (hnone i)
  refine ⟨hseq.codec_eq, hfree, hseq.line.connected, (hlinked.live.codec 0 hseq.codec_eq).2, hgoes,
    (hlinked.answering.live hgoes).2, ?_⟩
  intro i service method payload options bytes hidle hserialize
  refine ⟨_, step_client_some trivial
    (Client.call_eq_some hidle hseq.codec_eq hfree rfl hserialize), ?_⟩
  dsimp only [Client.sending, Client.setPhase, Client.setCall]
  rw [Function.update_self]
  trivial

end Link

end Ibridger.Js
