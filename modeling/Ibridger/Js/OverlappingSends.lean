import Ibridger.Foundation.Runs
import Ibridger.Foundation.WriteLog
import Ibridger.Js.FrameWriter
import Mathlib.Logic.Function.Basic

/-! # Overlapping `sendFrame` calls in JS

`sendFrame` awaits the write of its header before it writes the payload, and nothing
keeps other calls from writing in between.
-/

namespace Ibridger.Js

open LengthPrefix Transition Wire

/-- A call of `sendFrame`. -/
structure SendCall where
  payload : List UInt8
  send : FrameSend
deriving DecidableEq

/-- The calls on one connection. -/
structure Writers where
  conn : UnixSocketConnection
  /-- A `socket.write` has failed, and so do all that come later. -/
  broken : Bool
  calls : Nat → SendCall
  made : Nat
  /-- What the calls have written on a socket that takes it. -/
  log : List (Chunk UInt8)

inductive WriteEvent where
  /-- A call of `sendFrame`, which `EnvelopeCodec.send` makes with the bytes of its
  envelope. -/
  | sendFrame (payload : List UInt8)
  /-- The callback of a `socket.write`. -/
  | written (send : Nat) (failure : Option (String × Option String))
  | resume (call : Nat)
  | close
  | onClose
  | onError (message : String) (code : Option String)
deriving DecidableEq

namespace Writers

def init : Writers where
  conn := .fromSocket
  broken := false
  calls := fun _ => ⟨[], .settled (.ok ())⟩
  made := 0
  log := []

/-- The socket takes what is written. -/
def live (writers : Writers) : Bool := writers.conn.connected && !writers.broken

/-- What a turn of a call adds to the log. -/
def record (writers : Writers) (chunk : Chunk UInt8) : List (Chunk UInt8) :=
  if writers.live then writers.log ++ [chunk] else writers.log

def sendFrame (writers : Writers) (payload : List UInt8) : Writers :=
  { writers with
    conn := (Js.sendFrame writers.conn payload).2
    calls := Function.update writers.calls writers.made
      ⟨payload, (Js.sendFrame writers.conn payload).1⟩
    made := writers.made + 1
    log :=
      if MAX_FRAME_SIZE < payload.length then writers.log
      else writers.record (.header writers.made payload) }

/-- A call goes on. -/
def advance (writers : Writers) (k : Nat) (result : FrameSend × UnixSocketConnection) : Writers :=
  { writers with
    conn := result.2
    calls := Function.update writers.calls k ⟨(writers.calls k).payload, result.1⟩
    log :=
      match (writers.calls k).send, result.1 with
      | .header _ data, .body _ => writers.record (.body k data)
      | _, _ => writers.log }

def step (writers : Writers) : WriteEvent → Option Writers
  | .sendFrame payload => some (writers.sendFrame payload)
  | .written send failure =>
      if writers.conn.sends[send]? = some .pending ∧ (failure = none → writers.broken = false) then
        some { writers with
          conn := writers.conn.onWritten send failure
          broken := writers.broken || failure.isSome }
      else none
  | .resume k =>
      if k < writers.made then
        ((writers.calls k).send.resume writers.conn).map fun result => writers.advance k result
      else none
  | .close => some { writers with conn := writers.conn.close }
  | .onClose => some { writers with conn := writers.conn.onClose }
  | .onError message code => some { writers with conn := writers.conn.onError message code }

/-! ## Whole frames -/

/-- The call has come to this result. -/
def Ended (writers : Writers) (k : Nat) (result : Except TransportError Unit) : Prop :=
  k < writers.made ∧ (writers.calls k).send = .settled result

/-- Each header is directly followed by its own payload, so that a reader finds the
payloads of the calls that have succeeded. -/
structure Atomic (writers : Writers) : Prop where
  whole : ∃ assembly, assemble writers.log = some assembly ∧
    (∀ k, writers.Ended k (.ok ()) → (k, (writers.calls k).payload) ∈ assembly.frames) ∧
    (writers.broken = false → writers.conn.output =
      frameHeader.stream assembly.payloads ++ frameHeader.halfBytes assembly.half)
  decoded : writers.broken = false → (∀ k < writers.made, ∃ result, writers.Ended k result) →
    ∃ sent : List Nat, sent.Pairwise (· < ·) ∧ (∀ k, k ∈ sent ↔ writers.Ended k (.ok ())) ∧
      (frameHeader.parse writers.conn.output).frames =
        sent.map fun k => (writers.calls k).payload

/-- A call is made while another has written its header, but not yet its payload. -/
def Interleaves (writers : Writers) : WriteEvent → Prop
  | .sendFrame payload =>
      payload.length ≤ MAX_FRAME_SIZE ∧ writers.live = true ∧
        ∃ k < writers.made, ∃ send data, (writers.calls k).send = .header send data ∧ data ≠ []
  | _ => False

/-! ## What becomes of a write -/

/-- The write has not failed. -/
def Certain (writers : Writers) (send : Nat) : Prop :=
  writers.conn.sends[send]? = some (.resolved ()) ∨
    writers.broken = false ∧ writers.conn.sends[send]? = some .pending

def Refused (writers : Writers) (send : Nat) : Prop :=
  ∃ error, writers.conn.sends[send]? = some (.rejected error)

def NoFrame (assembly : Assembly UInt8) (k : Nat) : Prop :=
  ∀ payload, (k, payload) ∉ assembly.frames

/-- What the log has of a call, by where the call is. -/
inductive Tracks (writers : Writers) (assembly : Assembly UInt8) (k : Nat)
    (payload : List UInt8) : FrameSend → Prop where
  | empty (send : Nat) (hpayload : payload = []) (hsend : send < writers.conn.sends.length)
      (hlogged : writers.Certain send → (k, payload) ∈ assembly.frames)
      (hlost : writers.broken = false → writers.Refused send → NoFrame assembly k) :
      Tracks writers assembly k payload (.header send payload)
  | header (send : Nat) (hpayload : payload ≠ []) (hsend : send < writers.conn.sends.length)
      (hlogged : writers.Certain send → assembly.half = some (k, payload))
      (hnone : NoFrame assembly k) : Tracks writers assembly k payload (.header send payload)
  | body (send : Nat) (hsend : send < writers.conn.sends.length)
      (hlogged : writers.Certain send → (k, payload) ∈ assembly.frames)
      (hlost : writers.broken = false → writers.Refused send → NoFrame assembly k) :
      Tracks writers assembly k payload (.body send)
  | succeeded (hframe : (k, payload) ∈ assembly.frames) :
      Tracks writers assembly k payload (.settled (.ok ()))
  | failed (error : TransportError) (hnone : writers.broken = false → NoFrame assembly k) :
      Tracks writers assembly k payload (.settled (.error error))

/-- The frames in the log are those of calls, in their order. -/
structure Assembled (writers : Writers) (assembly : Assembly UInt8) : Prop where
  assemble_eq : assemble writers.log = some assembly
  framed : ∀ k payload, (k, payload) ∈ assembly.frames →
    k < writers.made ∧ payload = (writers.calls k).payload ∧ payload.length ≤ MAX_FRAME_SIZE
  half : ∀ k payload, assembly.half = some (k, payload) →
    k < writers.made ∧ payload = (writers.calls k).payload ∧ payload.length ≤ MAX_FRAME_SIZE ∧
      payload ≠ [] ∧ (∀ frame ∈ assembly.frames, frame.1 < k) ∧
      (writers.live = true → ∃ send, (writers.calls k).send = .header send payload)
  sorted : (assembly.frames.map Prod.fst).Pairwise (· < ·)

structure Orderly (writers : Writers) (assembly : Assembly UInt8) : Prop where
  assembled : Assembled writers assembly
  accepted : writers.live = true → Accepted writers.conn
  tracks : ∀ k < writers.made,
    Tracks writers assembly k (writers.calls k).payload (writers.calls k).send
  output_eq : writers.broken = false → writers.conn.output = frameHeader.written writers.log

section Orderly

variable {writers next : Writers} {assembly after : Assembly UInt8}

theorem live_iff : writers.live = true ↔ writers.conn.connected = true ∧ writers.broken = false := by
  simp [live]

theorem init_orderly : Orderly init .empty where
  assembled :=
    { assemble_eq := rfl
      framed := fun _ _ h => (by cases h)
      half := fun _ _ h => (by cases h)
      sorted := List.Pairwise.nil }
  accepted := fun _ _ h => (by cases h)
  tracks := fun _ h => absurd h (Nat.not_lt_zero _)
  output_eq := fun _ => rfl

/-- On a live socket no write has failed. -/
theorem Orderly.certain (horderly : Orderly writers assembly) (hlive : writers.live = true)
    {send : Nat} (hsend : send < writers.conn.sends.length) : writers.Certain send := by
  have haccepted := horderly.accepted hlive
  have hget := List.getElem?_eq_getElem hsend
  unfold Certain
  cases hpromise : writers.conn.sends[send] with
  | pending =>
      rw [hpromise] at hget
      exact .inr ⟨(live_iff.mp hlive).2, hget⟩
  | resolved value =>
      rw [hpromise] at hget
      exact .inl hget
  | rejected error =>
      exact absurd (hpromise ▸ List.getElem_mem hsend) (haccepted error)

/-- A call that a turn of others leaves where it is. -/
structure Keeps (writers next : Writers) (assembly after : Assembly UInt8) (k : Nat) : Prop where
  length_le : writers.conn.sends.length ≤ next.conn.sends.length
  certain : ∀ send < writers.conn.sends.length, next.Certain send → writers.Certain send
  refused : ∀ send < writers.conn.sends.length, next.broken = false → next.Refused send →
    writers.Refused send
  unbroken : next.broken = false → writers.broken = false
  frames : ∀ payload, (k, payload) ∈ after.frames ↔ (k, payload) ∈ assembly.frames
  half : ∀ payload, assembly.half = some (k, payload) → after.half = some (k, payload)

theorem Tracks.keeps {k : Nat} {payload : List UInt8} {send : FrameSend}
    (htracks : Tracks writers assembly k payload send)
    (hkeeps : Keeps writers next assembly after k) : Tracks next after k payload send := by
  have hnone : NoFrame assembly k → NoFrame after k :=
    fun h data hdata => h data ((hkeeps.frames data).mp hdata)
  cases htracks with
  | empty send hpayload hsend hlogged hlost =>
      apply Tracks.empty send hpayload (Nat.lt_of_lt_of_le hsend hkeeps.length_le)
      · intro hcertain
        exact (hkeeps.frames _).mpr (hlogged (hkeeps.certain send hsend hcertain))
      · intro hbroken hrefused
        exact hnone (hlost (hkeeps.unbroken hbroken) (hkeeps.refused send hsend hbroken hrefused))
  | header send hpayload hsend hlogged hno =>
      apply Tracks.header send hpayload (Nat.lt_of_lt_of_le hsend hkeeps.length_le) _ (hnone hno)
      intro hcertain
      exact hkeeps.half _ (hlogged (hkeeps.certain send hsend hcertain))
  | body send hsend hlogged hlost =>
      apply Tracks.body send (Nat.lt_of_lt_of_le hsend hkeeps.length_le)
      · intro hcertain
        exact (hkeeps.frames _).mpr (hlogged (hkeeps.certain send hsend hcertain))
      · intro hbroken hrefused
        exact hnone (hlost (hkeeps.unbroken hbroken) (hkeeps.refused send hsend hbroken hrefused))
  | succeeded hframe => exact .succeeded ((hkeeps.frames _).mpr hframe)
  | failed error hno => exact .failed error fun hbroken => hnone (hno (hkeeps.unbroken hbroken))

/-! ## What a step keeps -/

/-- A call keeps its place when the writes of its socket end or the socket fails. -/
theorem Orderly.of_conn (horderly : Orderly writers assembly)
    (hkeeps : ∀ k, Keeps writers next assembly assembly k) (hcalls : next.calls = writers.calls)
    (hmade : next.made = writers.made) (hlog : next.log = writers.log)
    (hlive : next.live = true → writers.live = true ∧ Accepted next.conn)
    (houtput : next.conn.output = writers.conn.output) : Orderly next assembly := by
  obtain ⟨⟨hassemble, hframed, hhalf, hsorted⟩, haccepted, htracks, houtputEq⟩ := horderly
  refine ⟨⟨?_, ?_, ?_, hsorted⟩, fun h => (hlive h).2, ?_, ?_⟩
  · rw [hlog, hassemble]
  · rw [hmade, hcalls]
    exact hframed
  · rw [hmade, hcalls]
    intro k payload h
    obtain ⟨hk, hpayload, hfits, hne, hbefore, hheader⟩ := hhalf k payload h
    exact ⟨hk, hpayload, hfits, hne, hbefore, fun hnow => hheader (hlive hnow).1⟩
  · rw [hmade, hcalls]
    intro k hk
    exact (htracks k hk).keeps (hkeeps k)
  · intro hbroken
    rw [houtput, hlog]
    exact houtputEq ((hkeeps 0).unbroken hbroken)

theorem Orderly.disconnect (horderly : Orderly writers assembly) {conn : UnixSocketConnection}
    (hconnected : conn.connected = false) (hsends : conn.sends = writers.conn.sends)
    (houtput : conn.output = writers.conn.output) :
    Orderly { writers with conn := conn } assembly := by
  refine horderly.of_conn ?_ rfl rfl rfl ?_ houtput
  · intro k
    refine ⟨?_, ?_, ?_, id, fun _ => Iff.rfl, fun _ h => h⟩
    · exact Nat.le_of_eq (congrArg List.length hsends.symm)
    · intro send _ hcertain
      simpa only [Certain, hsends] using hcertain
    · intro send _ _ hrefused
      simpa only [Refused, hsends] using hrefused
  · intro hlive
    cases hconnected.symm.trans (live_iff.mp hlive).1

theorem onWritten_sends (conn : UnixSocketConnection) (send : Nat)
    (failure : Option (String × Option String)) :
    ∃ outcome : Promise Unit, (failure = none ↔ outcome = .resolved ()) ∧ outcome ≠ .pending ∧
      (conn.onWritten send failure).sends =
        conn.sends.modify send fun call => call.settle outcome := by
  cases failure with
  | none => exact ⟨.resolved (), by simp, by simp, rfl⟩
  | some failure =>
      obtain ⟨message, code⟩ := failure
      exact ⟨.rejected ⟨message, code.getD "EUNKNOWN"⟩, by simp, by simp, rfl⟩

theorem onWritten_frame (conn : UnixSocketConnection) (send : Nat)
    (failure : Option (String × Option String)) :
    (conn.onWritten send failure).connected = conn.connected ∧
      (conn.onWritten send failure).output = conn.output := by
  cases failure with
  | none => exact ⟨rfl, rfl⟩
  | some failure => exact ⟨rfl, rfl⟩

theorem Orderly.written (horderly : Orderly writers assembly) {send : Nat}
    {failure : Option (String × Option String)}
    (hpending : writers.conn.sends[send]? = some .pending)
    (hfailure : failure = none → writers.broken = false) :
    Orderly { writers with
      conn := writers.conn.onWritten send failure
      broken := writers.broken || failure.isSome } assembly := by
  obtain ⟨hconnected, houtput⟩ := onWritten_frame writers.conn send failure
  obtain ⟨outcome, hsuccess, hsettled, hsends⟩ := onWritten_sends writers.conn send failure
  have hbroken : (writers.broken || failure.isSome) = false →
      writers.broken = false ∧ failure = none := by
    intro h
    simpa using h
  have hself : (writers.conn.onWritten send failure).sends[send]? = some outcome := by
    rw [hsends, List.getElem?_modify_eq, hpending]
    rfl
  have hother : ∀ {other}, send ≠ other →
      (writers.conn.onWritten send failure).sends[other]? = writers.conn.sends[other]? := by
    intro other hne
    rw [hsends, List.getElem?_modify_ne _ _ hne]
  refine horderly.of_conn ?_ rfl rfl rfl ?_ houtput
  · intro k
    refine ⟨?_, ?_, ?_, fun h => (hbroken h).1, fun _ => Iff.rfl, fun _ h => h⟩
    · dsimp only
      rw [hsends, List.length_modify]
    · rintro other - (hresolved | ⟨hunbroken, hstill⟩)
      · by_cases hsame : send = other
        · subst hsame
          have houtcome := Option.some.inj (hself.symm.trans hresolved)
          exact .inr ⟨hfailure (hsuccess.mpr houtcome), hpending⟩
        · exact .inl ((hother hsame).symm.trans hresolved)
      · by_cases hsame : send = other
        · subst hsame
          exact absurd (Option.some.inj (hself.symm.trans hstill)) hsettled
        · exact .inr ⟨(hbroken hunbroken).1, (hother hsame).symm.trans hstill⟩
    · rintro other - hunbroken ⟨error, hrejected⟩
      by_cases hsame : send = other
      · subst hsame
        have houtcome := hsuccess.mp (hbroken hunbroken).2
        rw [houtcome] at hself
        cases hself.symm.trans hrejected
      · exact ⟨error, (hother hsame).symm.trans hrejected⟩
  · intro hlive
    obtain ⟨hconn, hunbroken⟩ := live_iff.mp hlive
    obtain ⟨hold, rfl⟩ := hbroken hunbroken
    have hwas : writers.live = true := live_iff.mpr ⟨hconnected.symm.trans hconn, hold⟩
    exact ⟨hwas, (horderly.accepted hwas).onWritten hpending⟩

/-! ## Turns that write -/

/-- What `send` does to the connection. -/
structure Sends (conn : UnixSocketConnection) (data : List UInt8) (next : UnixSocketConnection)
    (promise : Promise Unit) : Prop where
  sends_eq : next.sends = conn.sends ++ [promise]
  connected_eq : next.connected = conn.connected
  taken : conn.connected = true → promise = .pending ∧ next.output = conn.output ++ data
  refused : conn.connected = false → (∃ error, promise = .rejected error) ∧
    next.output = conn.output

theorem send_sends (conn : UnixSocketConnection) (data : List UInt8) :
    (conn.send data).1 = conn.sends.length ∧ ∃ promise, Sends conn data (conn.send data).2 promise := by
  unfold UnixSocketConnection.send
  split
  next hconnected =>
    exact ⟨rfl, _, rfl, rfl, fun _ => ⟨rfl, rfl⟩, fun h => (by cases hconnected.symm.trans h)⟩
  next hconnected =>
    exact ⟨rfl, _, rfl, rfl, fun h => absurd h hconnected, fun _ => ⟨⟨_, rfl⟩, rfl⟩⟩

/-- A turn that writes leaves earlier writes as they are, and its own is certain exactly
on a live socket. -/
structure Wrote (writers next : Writers) : Prop where
  length_eq : next.conn.sends.length = writers.conn.sends.length + 1
  certain : ∀ send < writers.conn.sends.length, next.Certain send ↔ writers.Certain send
  refused : ∀ send < writers.conn.sends.length, next.Refused send ↔ writers.Refused send
  live_eq : next.live = writers.live
  broken_eq : next.broken = writers.broken
  certain_new : next.Certain writers.conn.sends.length → writers.live = true
  refused_new : writers.live = true → ¬ next.Refused writers.conn.sends.length
  accepted : Accepted writers.conn → writers.live = true → Accepted next.conn

theorem Sends.wrote {data : List UInt8} {promise : Promise Unit}
    (hsends : Sends writers.conn data next.conn promise) (hbroken : next.broken = writers.broken) :
    Wrote writers next := by
  have hold : ∀ {send}, send < writers.conn.sends.length →
      next.conn.sends[send]? = writers.conn.sends[send]? := by
    intro send hsend
    rw [hsends.sends_eq, List.getElem?_append_left hsend]
  have hnew : next.conn.sends[writers.conn.sends.length]? = some promise := by
    rw [hsends.sends_eq, List.getElem?_append_right (Nat.le_refl _), Nat.sub_self]
    rfl
  have htaken : writers.conn.connected = true → promise = .pending := fun h => (hsends.taken h).1
  refine ⟨?_, ?_, ?_, ?_, hbroken, ?_, ?_, ?_⟩
  · rw [hsends.sends_eq, List.length_append]
    rfl
  · intro send hsend
    rw [Certain, Certain, hold hsend, hbroken]
  · intro send hsend
    rw [Refused, Refused, hold hsend]
  · rw [live, live, hsends.connected_eq, hbroken]
  · rintro (hresolved | ⟨hunbroken, hpending⟩)
    · by_cases hconnected : writers.conn.connected = true
      · cases (htaken hconnected).symm.trans (Option.some.inj (hnew.symm.trans hresolved))
      · obtain ⟨⟨error, herror⟩, -⟩ := hsends.refused (by simpa using hconnected)
        cases herror.symm.trans (Option.some.inj (hnew.symm.trans hresolved))
    · apply live_iff.mpr
      refine ⟨?_, hbroken.symm.trans hunbroken⟩
      by_contra hconnected
      obtain ⟨⟨error, herror⟩, -⟩ := hsends.refused (by simpa using hconnected)
      cases herror.symm.trans (Option.some.inj (hnew.symm.trans hpending))
  · rintro hlive ⟨error, hrejected⟩
    have hpending := htaken (live_iff.mp hlive).1
    cases hpending.symm.trans (Option.some.inj (hnew.symm.trans hrejected))
  · intro haccepted hlive error hmem
    rw [hsends.sends_eq, htaken (live_iff.mp hlive).1] at hmem
    rcases List.mem_append.mp hmem with hmem | hmem
    · exact haccepted error hmem
    · cases List.mem_singleton.mp hmem

/-- A call that has written, or not, is kept by the turn of another. -/
theorem Wrote.keeps (hwrote : Wrote writers next) {k : Nat}
    (hframes : ∀ payload, (k, payload) ∈ after.frames ↔ (k, payload) ∈ assembly.frames)
    (hhalf : ∀ payload, assembly.half = some (k, payload) → after.half = some (k, payload)) :
    Keeps writers next assembly after k where
  length_le := hwrote.length_eq ▸ Nat.le_succ _
  certain := fun send hsend => (hwrote.certain send hsend).mp
  refused := fun send hsend _ => (hwrote.refused send hsend).mp
  unbroken := fun h => hwrote.broken_eq.symm.trans h
  frames := hframes
  half := hhalf

/-- The log that a turn leaves, and what a live socket has got. -/
theorem Sends.output_eq {data : List UInt8} {promise : Promise Unit} {chunk : Chunk UInt8}
    (hsends : Sends writers.conn data next.conn promise) (hbroken : next.broken = writers.broken)
    (hlog : next.log = writers.record chunk) (hbytes : frameHeader.chunkBytes chunk = data)
    (houtput : writers.broken = false → writers.conn.output = frameHeader.written writers.log) :
    next.broken = false → next.conn.output = frameHeader.written next.log := by
  intro hunbroken
  have hold := houtput (hbroken.symm.trans hunbroken)
  rw [hlog, record]
  by_cases hconnected : writers.conn.connected = true
  · rw [if_pos (live_iff.mpr ⟨hconnected, hbroken.symm.trans hunbroken⟩),
      (hsends.taken hconnected).2, hold, Header.written_append]
    simp [Header.written, hbytes]
  · rw [if_neg (fun h => hconnected (live_iff.mp h).1),
      (hsends.refused (by simpa using hconnected)).2, hold]

theorem forall_lt_succ {n : Nat} {property : Nat → Prop} (hold : ∀ k < n, property k)
    (hnew : property n) : ∀ k < n + 1, property k := by
  intro k hk
  rcases Nat.lt_succ_iff_lt_or_eq.mp hk with hlt | rfl
  · exact hold k hlt
  · exact hnew

/-- A call whose frame is too large writes nothing. -/
theorem Orderly.sendFrame_oversized (horderly : Orderly writers assembly) {payload : List UInt8}
    (hlimit : MAX_FRAME_SIZE < payload.length) :
    Orderly (writers.sendFrame payload) assembly := by
  have hsend : Js.sendFrame writers.conn payload =
      (.settled (.error (frameTooLargeError payload.length)), writers.conn) := by
    rw [Js.sendFrame, if_pos hlimit]
  have hcalls : ∀ {k}, k ≠ writers.made → (writers.sendFrame payload).calls k = writers.calls k :=
    fun hk => Function.update_of_ne hk ..
  have hself : (writers.sendFrame payload).calls writers.made =
      ⟨payload, .settled (.error (frameTooLargeError payload.length))⟩ := by
    rw [sendFrame, hsend]
    exact Function.update_self ..
  have hconn : (writers.sendFrame payload).conn = writers.conn := by rw [sendFrame, hsend]
  have hlog : (writers.sendFrame payload).log = writers.log := by
    rw [sendFrame]
    exact if_pos hlimit
  have hlive : (writers.sendFrame payload).live = writers.live := by
    rw [live, hconn, live]
    rfl
  obtain ⟨⟨hassemble, hframed, hhalf, hsorted⟩, haccepted, htracks, houtput⟩ := horderly
  refine ⟨⟨?_, ?_, ?_, hsorted⟩, ?_, ?_, ?_⟩
  · rw [hlog, hassemble]
  · intro k data hdata
    obtain ⟨hk, hpayload, hfits⟩ := hframed k data hdata
    rw [hcalls (Nat.ne_of_lt hk)]
    exact ⟨Nat.lt_succ_of_lt hk, hpayload, hfits⟩
  · intro k data hdata
    obtain ⟨hk, hpayload, hfits, hne, hbefore, hheader⟩ := hhalf k data hdata
    rw [hcalls (Nat.ne_of_lt hk), hlive]
    exact ⟨Nat.lt_succ_of_lt hk, hpayload, hfits, hne, hbefore, hheader⟩
  · rw [hlive, hconn]
    exact haccepted
  · apply forall_lt_succ
    · intro k hk
      rw [hcalls (Nat.ne_of_lt hk)]
      apply (htracks k hk).keeps
      rw [sendFrame, hsend]
      exact ⟨Nat.le_refl _, fun _ _ h => h, fun _ _ _ h => h, id, fun _ => Iff.rfl, fun _ h => h⟩
    · rw [hself]
      apply Tracks.failed
      intro _ data hdata
      exact absurd (hframed writers.made data hdata).1 (Nat.lt_irrefl _)
  · rw [hconn, hlog]
    exact houtput

/-- What a call whose frame fits does at once. -/
structure Begins (writers next : Writers) (payload : List UInt8) : Prop where
  sends : ∃ promise, Sends writers.conn (writeUInt32BE payload.length) next.conn promise
  broken_eq : next.broken = writers.broken
  made_eq : next.made = writers.made + 1
  log_eq : next.log = writers.record (.header writers.made payload)
  self : next.calls writers.made = ⟨payload, .header writers.conn.sends.length payload⟩
  others : ∀ k, k ≠ writers.made → next.calls k = writers.calls k

theorem sendFrame_begins {payload : List UInt8} (hfits : payload.length ≤ MAX_FRAME_SIZE) :
    Begins writers (writers.sendFrame payload) payload := by
  have hlimit : ¬ MAX_FRAME_SIZE < payload.length := Nat.not_lt.mpr hfits
  obtain ⟨hticket, hsends⟩ := send_sends writers.conn (writeUInt32BE payload.length)
  have hsend : Js.sendFrame writers.conn payload =
      (.header writers.conn.sends.length payload,
        (writers.conn.send (writeUInt32BE payload.length)).2) := by
    rw [Js.sendFrame, if_neg hlimit, hticket]
  refine ⟨?_, rfl, rfl, ?_, ?_, fun k hk => Function.update_of_ne hk ..⟩
  · rw [sendFrame, hsend]
    exact hsends
  · rw [sendFrame]
    exact if_neg hlimit
  · rw [sendFrame, hsend]
    exact Function.update_self ..

section Begins

variable {payload : List UInt8}

theorem Begins.wrote (hbegins : Begins writers next payload) : Wrote writers next := by
  obtain ⟨promise, hsends⟩ := hbegins.sends
  exact hsends.wrote hbegins.broken_eq

/-- The writes and the bytes are in order whatever the log has of the new call. -/
theorem Begins.orderly (hbegins : Begins writers next payload)
    (horderly : Orderly writers assembly) (hassembled : Assembled next after)
    (hkeeps : ∀ k < writers.made, Keeps writers next assembly after k)
    (hself : Tracks next after writers.made payload
      (.header writers.conn.sends.length payload)) : Orderly next after where
  assembled := hassembled
  accepted := by
    intro hlive
    rw [hbegins.wrote.live_eq] at hlive
    exact hbegins.wrote.accepted (horderly.accepted hlive) hlive
  tracks := by
    rw [hbegins.made_eq]
    apply forall_lt_succ
    · intro k hk
      rw [hbegins.others k (Nat.ne_of_lt hk)]
      exact (horderly.tracks k hk).keeps (hkeeps k hk)
    · rw [hbegins.self]
      exact hself
  output_eq := by
    obtain ⟨promise, hsends⟩ := hbegins.sends
    exact hsends.output_eq hbegins.broken_eq hbegins.log_eq rfl horderly.output_eq

theorem Begins.framed (hbegins : Begins writers next payload)
    (hassembled : Assembled writers assembly) {k : Nat} {data : List UInt8}
    (hdata : (k, data) ∈ assembly.frames) :
    k < next.made ∧ data = (next.calls k).payload ∧ data.length ≤ MAX_FRAME_SIZE := by
  obtain ⟨hk, hpayload, hfits⟩ := hassembled.framed k data hdata
  rw [hbegins.others k (Nat.ne_of_lt hk), hbegins.made_eq]
  exact ⟨Nat.lt_succ_of_lt hk, hpayload, hfits⟩

theorem Assembled.noFrame (hassembled : Assembled writers assembly) :
    NoFrame assembly writers.made :=
  fun _ hdata => Nat.lt_irrefl _ (hassembled.framed _ _ hdata).1

/-- On a live socket, a frame without a payload is whole at once. -/
theorem Orderly.begins_empty (horderly : Orderly writers assembly)
    (hbegins : Begins writers next []) (hlive : writers.live = true)
    (hnone : assembly.half = none) : ∃ after, Orderly next after := by
  have hassembled := horderly.assembled
  have hlog : next.log = writers.log ++ [.header writers.made []] := by
    rw [hbegins.log_eq, record, if_pos hlive]
  let after : Assembly UInt8 :=
    { frames := assembly.frames ++ [(writers.made, [])], half := none }
  have hmem : ∀ k data, (k, data) ∈ after.frames ↔
      (k, data) ∈ assembly.frames ∨ k = writers.made ∧ data = [] := by
    intro k data
    simp [after]
  refine ⟨after, hbegins.orderly horderly ⟨?_, ?_, fun _ _ h => (by cases h), ?_⟩ ?_ ?_⟩
  · rw [hlog, assemble_concat, hassembled.assemble_eq, Option.bind_some, Assembly.add_empty hnone]
  · intro k data hdata
    rcases (hmem k data).mp hdata with hdata | ⟨rfl, rfl⟩
    · exact hbegins.framed hassembled hdata
    · rw [hbegins.self, hbegins.made_eq]
      exact ⟨Nat.lt_succ_self _, rfl, Nat.zero_le _⟩
  · rw [List.map_append, List.pairwise_append]
    refine ⟨hassembled.sorted, List.pairwise_singleton _ _, ?_⟩
    intro k hk made hmade
    obtain ⟨⟨call, data⟩, hdata, rfl⟩ := List.mem_map.mp hk
    cases List.mem_singleton.mp hmade
    exact (hassembled.framed call data hdata).1
  · intro k hk
    apply hbegins.wrote.keeps
    · intro data
      rw [hmem]
      simp [Nat.ne_of_lt hk]
    · intro data hdata
      cases hnone.symm.trans hdata
  · apply Tracks.empty _ rfl (hbegins.wrote.length_eq ▸ Nat.lt_succ_self _)
    · intro _
      exact (hmem _ _).mpr (.inr ⟨rfl, rfl⟩)
    · intro _ hrefused
      exact absurd hrefused (hbegins.wrote.refused_new hlive)

/-- On a live socket, a header waits for its payload. -/
theorem Orderly.begins_header (horderly : Orderly writers assembly)
    (hbegins : Begins writers next payload) (hfits : payload.length ≤ MAX_FRAME_SIZE)
    (hpayload : payload ≠ []) (hlive : writers.live = true) (hnone : assembly.half = none) :
    ∃ after, Orderly next after := by
  have hassembled := horderly.assembled
  have hlog : next.log = writers.log ++ [.header writers.made payload] := by
    rw [hbegins.log_eq, record, if_pos hlive]
  let after : Assembly UInt8 :=
    { frames := assembly.frames, half := some (writers.made, payload) }
  refine ⟨after, hbegins.orderly horderly ⟨?_, fun _ _ h => hbegins.framed hassembled h, ?_,
    hassembled.sorted⟩ ?_ ?_⟩
  · rw [hlog, assemble_concat, hassembled.assemble_eq, Option.bind_some,
      Assembly.add_header hnone hpayload]
  · intro k data hdata
    cases hdata
    rw [hbegins.self, hbegins.made_eq]
    refine ⟨Nat.lt_succ_self _, rfl, hfits, hpayload, ?_, fun _ => ⟨_, rfl⟩⟩
    intro frame hframe
    exact (hassembled.framed frame.1 frame.2 hframe).1
  · intro k hk
    apply hbegins.wrote.keeps
    · intro data
      exact Iff.rfl
    · intro data hdata
      cases hnone.symm.trans hdata
  · apply Tracks.header _ hpayload (hbegins.wrote.length_eq ▸ Nat.lt_succ_self _)
    · intro _
      rfl
    · exact hassembled.noFrame

/-- On a socket that takes nothing, the log stays. -/
theorem Orderly.begins_dead (horderly : Orderly writers assembly)
    (hbegins : Begins writers next payload) (hdead : ¬ writers.live = true) :
    Orderly next assembly := by
  have hassembled := horderly.assembled
  have hlog : next.log = writers.log := by rw [hbegins.log_eq, record, if_neg hdead]
  have hticket : writers.conn.sends.length < next.conn.sends.length :=
    hbegins.wrote.length_eq ▸ Nat.lt_succ_self _
  have huncertain : ¬ next.Certain writers.conn.sends.length :=
    fun h => hdead (hbegins.wrote.certain_new h)
  apply hbegins.orderly horderly
  · refine ⟨hlog ▸ hassembled.assemble_eq, fun _ _ h => hbegins.framed hassembled h, ?_,
      hassembled.sorted⟩
    intro k data hdata
    obtain ⟨hk, hpayload, hshort, hne, hbefore, -⟩ := hassembled.half k data hdata
    rw [hbegins.others k (Nat.ne_of_lt hk), hbegins.made_eq, hbegins.wrote.live_eq]
    exact ⟨Nat.lt_succ_of_lt hk, hpayload, hshort, hne, hbefore, fun h => absurd h hdead⟩
  · intro k _
    exact hbegins.wrote.keeps (fun _ => Iff.rfl) fun _ h => h
  · by_cases hempty : payload = []
    · apply Tracks.empty _ hempty hticket
      · intro hcertain
        exact absurd hcertain huncertain
      · intro _ _
        exact hassembled.noFrame
    · apply Tracks.header _ hempty hticket
      · intro hcertain
        exact absurd hcertain huncertain
      · exact hassembled.noFrame

theorem Orderly.begins (horderly : Orderly writers assembly)
    (hbegins : Begins writers next payload) (hfits : payload.length ≤ MAX_FRAME_SIZE)
    (halone : writers.live = true → assembly.half = none) : ∃ after, Orderly next after := by
  by_cases hlive : writers.live = true
  · by_cases hempty : payload = []
    · subst hempty
      exact horderly.begins_empty hbegins hlive (halone hlive)
    · exact horderly.begins_header hbegins hfits hempty hlive (halone hlive)
  · exact ⟨assembly, horderly.begins_dead hbegins hlive⟩

end Begins

/-! ## Turns of a call that goes on -/

section Resume

variable {k : Nat} {send : FrameSend} {conn : UnixSocketConnection}

theorem sendOutcome_eq {ticket : Nat} {outcome : Promise Unit}
    (hticket : ticket < writers.conn.sends.length)
    (houtcome : writers.conn.sendOutcome ticket = outcome) :
    writers.conn.sends[ticket]? = some outcome := by
  rw [UnixSocketConnection.sendOutcome, List.getElem?_eq_getElem hticket] at houtcome
  rw [List.getElem?_eq_getElem hticket, ← houtcome]
  rfl

/-- A call ends, and the log has its frame if it succeeds. -/
theorem Orderly.ends (horderly : Orderly writers assembly) {result : Except TransportError Unit}
    (htracks : Tracks writers assembly k (writers.calls k).payload (.settled result))
    (hhalf : writers.live = true → ∀ payload, assembly.half ≠ some (k, payload)) :
    Orderly { writers with
      calls := Function.update writers.calls k
        ⟨(writers.calls k).payload, .settled result⟩ } assembly := by
  obtain ⟨⟨hassemble, hframed, hhalves, hsorted⟩, haccepted, hall, houtput⟩ := horderly
  have hpayload : ∀ j, (Function.update writers.calls k
      ⟨(writers.calls k).payload, .settled result⟩ j).payload = (writers.calls j).payload := by
    intro j
    by_cases hj : j = k
    · rw [hj, Function.update_self]
    · rw [Function.update_of_ne hj]
  have hsame : ∀ j, Keeps writers { writers with
      calls := Function.update writers.calls k ⟨(writers.calls k).payload, .settled result⟩ }
      assembly assembly j :=
    fun j => ⟨Nat.le_refl _, fun _ _ h => h, fun _ _ _ h => h, id, fun _ => Iff.rfl, fun _ h => h⟩
  refine ⟨⟨hassemble, ?_, ?_, hsorted⟩, haccepted, ?_, houtput⟩
  · intro j payload hframe
    dsimp only
    rw [hpayload]
    exact hframed j payload hframe
  · intro j payload hopen
    obtain ⟨hj, hown, hfits, hne, hbefore, hheader⟩ := hhalves j payload hopen
    dsimp only
    rw [hpayload]
    refine ⟨hj, hown, hfits, hne, hbefore, ?_⟩
    intro hlive
    by_cases hjk : j = k
    · subst hjk
      exact absurd hopen (hhalf hlive payload)
    · rw [Function.update_of_ne hjk]
      exact hheader hlive
  · intro j hj
    dsimp only
    by_cases hjk : j = k
    · subst hjk
      rw [Function.update_self]
      exact htracks.keeps (hsame j)
    · rw [Function.update_of_ne hjk]
      exact (hall j hj).keeps (hsame j)

/-- What a call that has written its header does next. -/
structure Proceeds (writers next : Writers) (k : Nat) (payload : List UInt8) : Prop where
  sends : ∃ promise, Sends writers.conn payload next.conn promise
  broken_eq : next.broken = writers.broken
  made_eq : next.made = writers.made
  log_eq : next.log = writers.record (.body k payload)
  self : next.calls k = ⟨(writers.calls k).payload, .body writers.conn.sends.length⟩
  others : ∀ j, j ≠ k → next.calls j = writers.calls j

section Proceeds

variable {payload : List UInt8}

theorem Proceeds.wrote (hproceeds : Proceeds writers next k payload) : Wrote writers next := by
  obtain ⟨promise, hsends⟩ := hproceeds.sends
  exact hsends.wrote hproceeds.broken_eq

theorem Proceeds.payload_eq (hproceeds : Proceeds writers next k payload) (j : Nat) :
    (next.calls j).payload = (writers.calls j).payload := by
  by_cases hj : j = k
  · rw [hj, hproceeds.self]
  · rw [hproceeds.others j hj]

theorem Proceeds.orderly (hproceeds : Proceeds writers next k payload)
    (horderly : Orderly writers assembly) (hassembled : Assembled next after)
    (hkeeps : ∀ j, j ≠ k → Keeps writers next assembly after j)
    (hself : Tracks next after k (writers.calls k).payload (.body writers.conn.sends.length)) :
    Orderly next after where
  assembled := hassembled
  accepted := by
    intro hlive
    rw [hproceeds.wrote.live_eq] at hlive
    exact hproceeds.wrote.accepted (horderly.accepted hlive) hlive
  tracks := by
    rw [hproceeds.made_eq]
    intro j hj
    by_cases hjk : j = k
    · rw [hjk, hproceeds.self]
      exact hself
    · rw [hproceeds.others j hjk]
      exact (horderly.tracks j hj).keeps (hkeeps j hjk)
  output_eq := by
    obtain ⟨promise, hsends⟩ := hproceeds.sends
    exact hsends.output_eq hproceeds.broken_eq hproceeds.log_eq rfl horderly.output_eq

/-- On a live socket, the payload follows its header. -/
theorem Orderly.proceeds_live (horderly : Orderly writers assembly)
    (hproceeds : Proceeds writers next k payload) (hlive : writers.live = true)
    (hhalf : assembly.half = some (k, payload)) : ∃ after, Orderly next after := by
  have hassembled := horderly.assembled
  obtain ⟨hk, hpayload, hfits, -, hbefore, -⟩ := hassembled.half k payload hhalf
  have hlog : next.log = writers.log ++ [.body k payload] := by
    rw [hproceeds.log_eq, record, if_pos hlive]
  let after : Assembly UInt8 := { frames := assembly.frames ++ [(k, payload)], half := none }
  have hmem : ∀ j data, (j, data) ∈ after.frames ↔
      (j, data) ∈ assembly.frames ∨ j = k ∧ data = payload := by
    intro j data
    simp [after]
  refine ⟨after, hproceeds.orderly horderly ⟨?_, ?_, fun _ _ h => (by cases h), ?_⟩ ?_ ?_⟩
  · rw [hlog, assemble_concat, hassembled.assemble_eq, Option.bind_some, Assembly.add_body hhalf]
  · intro j data hdata
    rw [hproceeds.made_eq, hproceeds.payload_eq]
    rcases (hmem j data).mp hdata with hdata | ⟨rfl, rfl⟩
    · exact hassembled.framed j data hdata
    · exact ⟨hk, hpayload, hfits⟩
  · rw [List.map_append, List.pairwise_append]
    refine ⟨hassembled.sorted, List.pairwise_singleton _ _, ?_⟩
    intro j hj own hown
    obtain ⟨frame, hframe, rfl⟩ := List.mem_map.mp hj
    cases List.mem_singleton.mp hown
    exact hbefore frame hframe
  · intro j hj
    apply hproceeds.wrote.keeps
    · intro data
      rw [hmem]
      simp [hj]
    · intro data hdata
      cases hhalf.symm.trans hdata
      exact absurd rfl hj
  · rw [← hpayload]
    apply Tracks.body _ (hproceeds.wrote.length_eq ▸ Nat.lt_succ_self _)
    · intro _
      exact (hmem _ _).mpr (.inr ⟨rfl, rfl⟩)
    · intro _ hrefused
      exact absurd hrefused (hproceeds.wrote.refused_new hlive)

/-- On a socket that takes nothing, the log stays. -/
theorem Orderly.proceeds_dead (horderly : Orderly writers assembly)
    (hproceeds : Proceeds writers next k payload) (hdead : ¬ writers.live = true)
    (hnone : NoFrame assembly k) : Orderly next assembly := by
  have hassembled := horderly.assembled
  have hlog : next.log = writers.log := by rw [hproceeds.log_eq, record, if_neg hdead]
  apply hproceeds.orderly horderly
  · refine ⟨hlog ▸ hassembled.assemble_eq, ?_, ?_, hassembled.sorted⟩
    · rw [hproceeds.made_eq]
      intro j data hdata
      rw [hproceeds.payload_eq]
      exact hassembled.framed j data hdata
    · rw [hproceeds.made_eq, hproceeds.wrote.live_eq]
      intro j data hdata
      obtain ⟨hj, hown, hshort, hne, hbefore, -⟩ := hassembled.half j data hdata
      rw [hproceeds.payload_eq]
      exact ⟨hj, hown, hshort, hne, hbefore, fun h => absurd h hdead⟩
  · intro j _
    exact hproceeds.wrote.keeps (fun _ => Iff.rfl) fun _ h => h
  · apply Tracks.body _ (hproceeds.wrote.length_eq ▸ Nat.lt_succ_self _)
    · intro hcertain
      exact absurd (hproceeds.wrote.certain_new hcertain) hdead
    · intro _ _
      exact hnone

end Proceeds

theorem advance_proceeds {ticket : Nat} {data : List UInt8}
    (hsend : (writers.calls k).send = .header ticket data) :
    Proceeds writers
      (writers.advance k (.body (writers.conn.send data).1, (writers.conn.send data).2)) k data := by
  obtain ⟨hticket, hsends⟩ := send_sends writers.conn data
  rw [hticket]
  refine ⟨hsends, rfl, rfl, ?_, Function.update_self .., fun j hj => Function.update_of_ne hj ..⟩
  rw [advance, hsend]

theorem advance_settled (result : Except TransportError Unit) :
    writers.advance k (.settled result, writers.conn) =
      { writers with
        calls := Function.update writers.calls k
          ⟨(writers.calls k).payload, .settled result⟩ } := by
  rw [advance]
  cases (writers.calls k).send <;> rfl

/-- Where the log stands when the header of a call is written. -/
theorem Tracks.of_header {ticket : Nat} {data payload : List UInt8}
    (htracks : Tracks writers assembly k payload (.header ticket data)) :
    data = payload ∧ ticket < writers.conn.sends.length ∧
      (payload = [] → (writers.Certain ticket → (k, payload) ∈ assembly.frames) ∧
        (writers.broken = false → writers.Refused ticket → NoFrame assembly k)) ∧
      (payload ≠ [] → (writers.Certain ticket → assembly.half = some (k, payload)) ∧
        NoFrame assembly k) := by
  cases htracks with
  | empty _ hpayload hticket hlogged hlost =>
      exact ⟨rfl, hticket, fun _ => ⟨hlogged, hlost⟩, fun h => absurd hpayload h⟩
  | header _ hpayload hticket hlogged hnone =>
      exact ⟨rfl, hticket, fun h => absurd h hpayload, fun _ => ⟨hlogged, hnone⟩⟩

theorem Tracks.of_body {ticket : Nat} {payload : List UInt8}
    (htracks : Tracks writers assembly k payload (.body ticket)) :
    ticket < writers.conn.sends.length ∧
      (writers.Certain ticket → (k, payload) ∈ assembly.frames) ∧
        (writers.broken = false → writers.Refused ticket → NoFrame assembly k) := by
  cases htracks with
  | body _ hticket hlogged hlost => exact ⟨hticket, hlogged, hlost⟩

/-- The half-written frame is that of a call that awaits its header. -/
theorem Assembled.half_ne (hassembled : Assembled writers assembly) (hlive : writers.live = true)
    (hsend : ∀ ticket data, (writers.calls k).send = .header ticket data → data = [])
    (payload : List UInt8) : assembly.half ≠ some (k, payload) := by
  intro hhalf
  obtain ⟨-, -, -, hne, -, hheader⟩ := hassembled.half k payload hhalf
  obtain ⟨ticket, hticket⟩ := hheader hlive
  exact hne (hsend ticket payload hticket)

theorem Orderly.resume (horderly : Orderly writers assembly) (hk : k < writers.made)
    (hresumes : FrameSend.Resumes writers.conn (writers.calls k).send send conn) :
    ∃ after, Orderly (writers.advance k (send, conn)) after := by
  have htracks := horderly.tracks k hk
  have hassembled := horderly.assembled
  generalize hsend : (writers.calls k).send = current at hresumes htracks
  cases hresumes with
  | writes ticket data hdata hresolved =>
      obtain ⟨rfl, hticket, -, hwaits⟩ := htracks.of_header
      obtain ⟨hhalf, hnone⟩ := hwaits hdata
      have hproceeds := advance_proceeds hsend
      by_cases hlive : writers.live = true
      · exact horderly.proceeds_live hproceeds hlive
          (hhalf (.inl (sendOutcome_eq hticket hresolved)))
      · exact ⟨assembly, horderly.proceeds_dead hproceeds hlive hnone⟩
  | finishes ticket _ hfinal hresolved =>
      rw [advance_settled]
      refine ⟨assembly, horderly.ends (.succeeded ?_) ?_⟩
      · rcases hfinal with rfl | rfl
        · obtain ⟨hempty, hticket, hlogged, -⟩ := htracks.of_header
          exact (hlogged hempty.symm).1 (.inl (sendOutcome_eq hticket hresolved))
        · obtain ⟨hticket, hlogged, -⟩ := htracks.of_body
          exact hlogged (.inl (sendOutcome_eq hticket hresolved))
      · intro hlive
        apply hassembled.half_ne hlive
        intro other data hheader
        rw [hsend] at hheader
        rcases hfinal with rfl | rfl <;> cases hheader
        rfl
  | fails ticket _ error hfinal hrejected =>
      rw [advance_settled]
      -- a write fails on a dead socket only
      have hdead : ticket < writers.conn.sends.length → ¬ writers.live = true := by
        intro hticket hlive
        exact horderly.accepted hlive error
          (List.mem_of_getElem? (sendOutcome_eq hticket hrejected))
      refine ⟨assembly, horderly.ends (.failed error ?_) ?_⟩
      · intro hunbroken
        rcases hfinal with ⟨data, rfl⟩ | rfl
        · obtain ⟨-, hticket, hempty, hwaits⟩ := htracks.of_header
          by_cases hpayload : (writers.calls k).payload = []
          · exact (hempty hpayload).2 hunbroken ⟨error, sendOutcome_eq hticket hrejected⟩
          · exact (hwaits hpayload).2
        · obtain ⟨hticket, -, hlost⟩ := htracks.of_body
          exact hlost hunbroken ⟨error, sendOutcome_eq hticket hrejected⟩
      · intro hlive
        rcases hfinal with ⟨data, rfl⟩ | rfl
        · exact absurd hlive (hdead htracks.of_header.2.1)
        · exact absurd hlive (hdead htracks.of_body.1)

end Resume

/-! ## Runs -/

theorem Orderly.step (horderly : Orderly writers assembly) {event : WriteEvent}
    (hapart : ¬ Interleaves writers event) (hstep : writers.step event = some next) :
    ∃ after, Orderly next after := by
  cases event with
  | sendFrame payload =>
      cases hstep
      by_cases hlimit : MAX_FRAME_SIZE < payload.length
      · exact ⟨assembly, horderly.sendFrame_oversized hlimit⟩
      · have hfits := Nat.le_of_not_lt hlimit
        apply horderly.begins (sendFrame_begins hfits) hfits
        intro hlive
        cases hhalf : assembly.half with
        | none => rfl
        | some frame =>
            obtain ⟨k, data⟩ := frame
            obtain ⟨hk, -, -, hne, -, hheader⟩ := horderly.assembled.half k data hhalf
            obtain ⟨ticket, hsend⟩ := hheader hlive
            exact absurd ⟨hfits, hlive, k, hk, ticket, data, hsend, hne⟩ hapart
  | written send failure =>
      obtain ⟨⟨hpending, hfailure⟩, hnext⟩ := Option.ite_none_right_eq_some.mp hstep
      cases hnext
      exact ⟨assembly, horderly.written hpending hfailure⟩
  | resume k =>
      obtain ⟨hk, hnext⟩ := Option.ite_none_right_eq_some.mp hstep
      obtain ⟨result, hresume, rfl⟩ := Option.map_eq_some_iff.mp hnext
      exact horderly.resume hk (FrameSend.resume_cases hresume)
  | close =>
      cases hstep
      exact ⟨assembly, horderly.disconnect rfl rfl rfl⟩
  | onClose =>
      cases hstep
      have hframe := writers.conn.onClose_eq
      refine ⟨assembly, horderly.disconnect ?_ ?_ ?_⟩
      all_goals
        rw [hframe]
  | onError message code =>
      cases hstep
      have hframe := writers.conn.onError_eq message code
      refine ⟨assembly, horderly.disconnect ?_ ?_ ?_⟩
      all_goals
        rw [hframe]

end Orderly

end Writers

end Ibridger.Js
