import Ibridger.Cpp.ClientStep

/-! # What the calls of a client write

A call writes its request a second time only if the first write failed, and then
on a connection that nobody has written on.
-/

namespace Ibridger.Cpp

open LengthPrefix Transition Wire

variable (format : EnvelopeFormat)

/-- What was written contains the complete frame of the request. -/
def Write.Complete (write : Write) : Prop :=
  ∃ bytes, format.serialize write.request = some bytes ∧
    frameHeader.frame bytes <:+: write.written

namespace Client

/-- What a call has written, on one connection after the other. -/
def writesOf (client : Client) (i : Nat) : List Write :=
  client.writes.filter fun write => write.call = i

/-- What was written on a connection. -/
def writesOn (client : Client) (c : Nat) : List Write :=
  client.writes.filter fun write => write.conn = c

/-- The call has received, or tried to, and will not write any more. -/
def Past : CallPhase → Prop
  | .notifying (.recv _) => True
  | .returned _ => True
  | _ => False

/-- What the writes of the calls have come to. -/
structure AtMostOnce (client : Client) : Prop where
  codec_lt : ∀ c, client.codec = some c → c < client.opened
  conn_lt : ∀ write ∈ client.writes, write.conn < client.opened
  fresh : ∀ write ∈ client.writes, ¬ Fresh (client.calls write.call).phase
  request_eq : ∀ write ∈ client.writes, (client.calls write.call).request = some write.request
  unsent : ∀ write ∈ client.writes, (client.calls write.call).reachedRecv = false →
    write.error ≠ none
  past : ∀ i, (client.calls i).reachedRecv = true → Past (client.calls i).phase
  partly : ∀ write ∈ client.writes, write.error ≠ none → ¬ write.Complete format
  retried : client.writes.Pairwise fun first second =>
    first.call = second.call → first.conn ≠ second.conn ∧ first.error ≠ none

theorem Waits.fresh {before after : CallPhase} (hwaits : Waits before after)
    (hfresh : Fresh after) : Fresh before := by
  cases hwaits with
  | @again attempt delay resend => cases resend <;> exact hfresh
  | asleep attempt delay => trivial
  | refused => trivial
  | exhausted => cases hfresh
  | retried attempt delay => cases hfresh
  | unsent => cases hfresh
  | unresent => cases hfresh
  | unreceived => cases hfresh

theorem Waits.past {before after : CallPhase} (hwaits : Waits before after)
    (hpast : Past before) : Past after := by
  cases hwaits with
  | unreceived => trivial
  | asleep attempt delay => cases hpast
  | refused => cases hpast
  | again attempt delay => cases hpast
  | exhausted => cases hpast
  | retried attempt delay => cases hpast
  | unsent => cases hpast
  | unresent => cases hpast

theorem CallQuiet.fresh {before after : Call} (hquiet : CallQuiet before after)
    (hfresh : Fresh after.phase) : Fresh before.phase := by
  rcases hquiet.phase with hsame | hwaits
  · rwa [hsame] at hfresh
  · exact hwaits.fresh hfresh

theorem CallQuiet.past {before after : Call} (hquiet : CallQuiet before after)
    (hpast : Past before.phase) : Past after.phase := by
  rcases hquiet.phase with hsame | hwaits
  · rwa [hsame]
  · exact hwaits.past hpast

theorem Quiet.opened_le {client next : Client} (hquiet : Quiet client next) :
    client.opened ≤ next.opened := by
  rcases hquiet.codec with ⟨-, hopened⟩ | ⟨-, -, hopened⟩ <;> omega

theorem Quiet.codec_lt {client next : Client} (hquiet : Quiet client next)
    (hlt : ∀ c, client.codec = some c → c < client.opened) :
    ∀ c, next.codec = some c → c < next.opened := by
  intro c hc
  rcases hquiet.codec with ⟨hnone | hsame, hopened⟩ | ⟨-, hnew, hopened⟩
  · rw [hnone] at hc
    cases hc
  · rw [hopened]
    exact hlt c (hsame ▸ hc)
  · rw [hnew] at hc
    cases hc
    omega

variable {format}

theorem AtMostOnce.quiet {client next : Client} (honce : AtMostOnce format client)
    (hquiet : Quiet client next) : AtMostOnce format next := by
  refine ⟨hquiet.codec_lt honce.codec_lt, ?_, ?_, ?_, ?_, ?_, ?_, ?_⟩
  all_goals try rw [hquiet.writes_eq]
  · intro write hmem
    exact Nat.lt_of_lt_of_le (honce.conn_lt write hmem) hquiet.opened_le
  · intro write hmem hfresh
    exact honce.fresh write hmem ((hquiet.calls _).fresh hfresh)
  · intro write hmem
    rw [(hquiet.calls _).request_eq]
    exact honce.request_eq write hmem
  · intro write hmem hreached
    rw [(hquiet.calls _).reached_eq] at hreached
    exact honce.unsent write hmem hreached
  · intro i hreached
    rw [(hquiet.calls i).reached_eq] at hreached
    exact (hquiet.calls i).past (honce.past i hreached)
  · exact honce.partly
  · exact honce.retried

/-- A call that is about to send has sent nothing yet, or has failed to on an
earlier connection. -/
theorem AtMostOnce.prepared {client middle : Client} {i c : Nat} {traffic : Traffic}
    {request : Envelope} (honce : AtMostOnce format client)
    (hprepared : Prepared client i c traffic request middle) :
    (client.calls i).reachedRecv = false ∧
      (∀ write ∈ client.writes, write.call = i →
        write.request = request ∧ write.conn ≠ c ∧ write.error ≠ none) := by
  have hreached : (client.calls i).reachedRecv = false := by
    by_contra htrue
    rw [Bool.not_eq_false] at htrue
    have hpast := honce.past i htrue
    rcases hprepared.round with ⟨hfresh, -⟩ | ⟨⟨attempt, delay, err, hphase⟩, -⟩
    · cases hphase : (client.calls i).phase with
      | idle =>
          rw [hphase] at hpast
          cases hpast
      | sleeping attempt delay resend =>
          rw [hphase] at hpast
          cases hpast
      | notifying after =>
          rw [hphase] at hfresh
          cases hfresh
      | returned result =>
          rw [hphase] at hfresh
          cases hfresh
    · rw [hphase] at hpast
      cases hpast
  refine ⟨hreached, ?_⟩
  intro write hmem hcall
  rcases hprepared.round with ⟨hfresh, -⟩ | ⟨-, hrequest, hcodec, -⟩
  · have hnot := honce.fresh write hmem
    rw [hcall] at hnot
    exact absurd hfresh hnot
  · have hsame := honce.request_eq write hmem
    have herror := honce.unsent write hmem
    rw [hcall, hrequest] at hsame
    rw [hcall] at herror
    refine ⟨(Option.some.inj hsame).symm, ?_, herror hreached⟩
    rcases hprepared.conn with ⟨hopen, -⟩ | ⟨-, rfl, -⟩
    · rw [hcodec] at hopen
      cases hopen
    · exact Nat.ne_of_lt (honce.conn_lt write hmem)

/-- What is unopened behind an exchange was so before, and is not its connection. -/
theorem AtMostOnce.unopened_behind {client middle next : Client} {i c d : Nat} {traffic : Traffic}
    {request : Envelope} {after : ErrorCode → AfterDisconnect} {error : Option ErrorCode}
    {conn : UnixSocketConnection} (honce : AtMostOnce format client)
    (hprepared : Prepared client i c traffic request middle)
    (hexchanging : Exchanging format middle i c request after error conn next)
    (hd : next.opened ≤ d) : d ≠ c ∧ client.opened ≤ d := by
  rw [hexchanging.counters_eq.2.2] at hd
  rcases hprepared.conn with ⟨hopen, hopened⟩ | ⟨-, rfl, hopened⟩
  · have hlt := honce.codec_lt c hopen
    omega
  · omega

/-- An exchange adds one write to those on its connection. -/
theorem Exchanging.writesOn_self {client middle next : Client} {i c : Nat} {traffic : Traffic}
    {request : Envelope} {after : ErrorCode → AfterDisconnect} {error : Option ErrorCode}
    {conn : UnixSocketConnection}
    (hexchanging : Exchanging format middle i c request after error conn next)
    (hprepared : Prepared client i c traffic request middle) :
    next.writesOn c = client.writesOn c ++
      [⟨i, c, request, conn.wire.drop (middle.links c).conn.wire.length, error⟩] := by
  rw [writesOn, hexchanging.writes_eq, hprepared.writes_eq, List.filter_append,
    List.filter_cons_of_pos (by simp), List.filter_nil]
  rfl

theorem Exchanging.writesOn_other {client middle next : Client} {i c d : Nat}
    {traffic : Traffic} {request : Envelope} {after : ErrorCode → AfterDisconnect}
    {error : Option ErrorCode} {conn : UnixSocketConnection}
    (hexchanging : Exchanging format middle i c request after error conn next)
    (hprepared : Prepared client i c traffic request middle) (hd : d ≠ c) :
    next.writesOn d = client.writesOn d := by
  rw [writesOn, hexchanging.writes_eq, hprepared.writes_eq, List.filter_append,
    List.filter_cons_of_neg (by simpa using hd.symm), List.filter_nil, List.append_nil]
  rfl

/-- An exchange writes for its call what that call may still write. -/
theorem AtMostOnce.exchanging {client middle next : Client} {i c : Nat} {traffic : Traffic}
    {request : Envelope} {after : ErrorCode → AfterDisconnect} {error : Option ErrorCode}
    {conn : UnixSocketConnection} (honce : AtMostOnce format client)
    (hprepared : Prepared client i c traffic request middle)
    (hexchanging : Exchanging format middle i c request after error conn next) :
    AtMostOnce format next := by
  obtain ⟨hreached, hearlier⟩ := honce.prepared hprepared
  obtain ⟨hlt, hle⟩ : c < next.opened ∧ client.opened ≤ next.opened := by
    rw [hexchanging.counters_eq.2.2]
    rcases hprepared.conn with ⟨hopen, hopened⟩ | ⟨-, rfl, hopened⟩
    · rw [hopened]
      exact ⟨honce.codec_lt c hopen, Nat.le_refl _⟩
    · omega
  have hcodec : ∀ d, next.codec = some d → d = c := by
    intro d hd
    rcases hexchanging.codec_or with hnone | ⟨-, hsame⟩
    · rw [hnone] at hd
      cases hd
    · rw [hsame, hprepared.codec_eq] at hd
      cases hd
      rfl
  have hphase := hexchanging.not_fresh
  have hrequest := hexchanging.own_request hprepared
  -- the calls of the earlier writes, other than this one, are as before
  have hothers : ∀ j, j ≠ i → next.calls j = client.calls j :=
    fun j hj => hexchanging.others hprepared hj
  refine ⟨?_, ?_, ?_, ?_, ?_, ?_, ?_, ?_⟩
  · intro d hd
    rw [hcodec d hd]
    exact hlt
  all_goals try rw [hexchanging.writes_eq, hprepared.writes_eq]
  · rw [List.forall_mem_append, List.forall_mem_singleton]
    exact ⟨fun write hmem => Nat.lt_of_lt_of_le (honce.conn_lt write hmem) hle, hlt⟩
  · rw [List.forall_mem_append, List.forall_mem_singleton]
    refine ⟨?_, hphase⟩
    intro write hmem
    by_cases hcall : write.call = i
    · rwa [hcall]
    · rw [hothers _ hcall]
      exact honce.fresh write hmem
  · rw [List.forall_mem_append, List.forall_mem_singleton]
    refine ⟨?_, hrequest⟩
    intro write hmem
    by_cases hcall : write.call = i
    · rw [hcall, hrequest, (hearlier write hmem hcall).1]
    · rw [hothers _ hcall]
      exact honce.request_eq write hmem
  · rw [List.forall_mem_append, List.forall_mem_singleton]
    constructor
    · intro write hmem hunreached
      by_cases hcall : write.call = i
      · exact (hearlier write hmem hcall).2.2
      · rw [hothers _ hcall] at hunreached
        exact honce.unsent write hmem hunreached
    · intro hunreached hnone
      rw [(hexchanging.sent hnone).1] at hunreached
      cases hunreached
  · intro j hj
    by_cases hcall : j = i
    · subst hcall
      cases error with
      | some err =>
          rw [(hexchanging.unsent err rfl).2.1, hprepared.reached_eq, hreached] at hj
          cases hj
      | none =>
          rcases (hexchanging.sent rfl).2 with ⟨err, last, -, hphase, -⟩ | ⟨response, last, -, hphase, -⟩
          · rw [hphase]
            trivial
          · rw [hphase]
            trivial
    · rw [hothers j hcall] at hj ⊢
      exact honce.past j hj
  · rw [List.forall_mem_append, List.forall_mem_singleton]
    refine ⟨honce.partly, ?_⟩
    rintro herror ⟨bytes, hserialize, hinfix⟩
    obtain ⟨err, herr⟩ := Option.ne_none_iff_exists'.mp herror
    have hsend := hexchanging.send_eq
    rw [show error = some err from herr] at hsend
    have hshort := EnvelopeCodec.send_short hserialize hsend
    exact absurd hinfix.length_le (Nat.not_le_of_lt hshort)
  · rw [List.pairwise_append]
    refine ⟨honce.retried, List.pairwise_singleton _ _, ?_⟩
    intro write hmem last hlast hcall
    rw [List.mem_singleton] at hlast
    subst hlast
    exact (hearlier write hmem hcall).2

theorem AtMostOnce.step {client next : Client} {event : ClientEvent}
    (honce : AtMostOnce format client) (hstep : client.step format event = some next) :
    AtMostOnce format next := by
  rcases step_cases hstep with hquiet | ⟨i, c, request, after, middle, error, conn, hprepared, -,
    hexchanging⟩
  · exact honce.quiet hquiet
  · exact honce.exchanging hprepared hexchanging

theorem atMostOnce_init (config : ClientConfig) : AtMostOnce format (init config) := by
  refine ⟨fun c h => (by cases h), ?_, ?_, ?_, ?_, fun i h => (by cases h), ?_, .nil⟩
  all_goals
    intro write hmem
    cases hmem

theorem run_atMostOnce {config : ClientConfig} {events : List ClientEvent} {client : Client}
    (hrun : run (step format) (init config) events = some client) : AtMostOnce format client :=
  run_invariant (AtMostOnce format) (fun _ _ _ honce hstep => honce.step hstep)
    (atMostOnce_init config) hrun

/-- A call that has got to its receive never writes again. -/
theorem writesOf_of_reached {client next : Client} {event : ClientEvent} {i : Nat}
    (honce : AtMostOnce format client) (hreached : (client.calls i).reachedRecv = true)
    (hstep : client.step format event = some next) :
    (next.calls i).reachedRecv = true ∧ next.writesOf i = client.writesOf i := by
  rcases step_cases hstep with hquiet | ⟨j, c, request, after, middle, error, conn, hprepared, -,
    hexchanging⟩
  · rw [(hquiet.calls i).reached_eq, writesOf, writesOf, hquiet.writes_eq]
    exact ⟨hreached, rfl⟩
  · have hne : i ≠ j := by
      rintro rfl
      rw [(honce.prepared hprepared).1] at hreached
      cases hreached
    rw [hexchanging.calls_eq i hne, hprepared.calls_eq i hne, writesOf, writesOf,
      hexchanging.writes_eq, hprepared.writes_eq, List.filter_append]
    refine ⟨hreached, ?_⟩
    rw [List.filter_cons_of_neg (by simpa using hne.symm), List.filter_nil, List.append_nil]

end Client

end Ibridger.Cpp
