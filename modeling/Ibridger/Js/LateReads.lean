import Ibridger.Js.FrameReader

/-! # Reads that outlive their callers

A caller may give up a `recvFrame` that goes on to wait, and the next caller
calls `recvFrame` again. As long as the earlier call has its header by then, and
no bytes lie ready that the later one would take past it, the calls read one
frame each, in turn.
-/

namespace Ibridger.Js

open LengthPrefix UnixSocketConnection Wire

/-! ## Promises that have resolved -/

namespace UnixSocketConnection

/-- What has been handed to a caller is not changed. -/
def KeepsPromises (conn next : UnixSocketConnection) : Prop :=
  ∀ (recv need : Nat) bytes, conn.recvs[recv]? = some ⟨need, .resolved bytes⟩ →
    next.recvs[recv]? = some ⟨need, .resolved bytes⟩

namespace KeepsPromises

theorem of_recvs_eq {conn next : UnixSocketConnection} (hrecvs : next.recvs = conn.recvs) :
    KeepsPromises conn next := by
  intro recv need bytes hcall
  rw [hrecvs]
  exact hcall

theorem settleRecv (conn : UnixSocketConnection) (recv : Nat) (outcome : Promise (List UInt8)) :
    KeepsPromises conn (conn.settleRecv recv outcome) := by
  intro other need bytes hcall
  simp only [UnixSocketConnection.settleRecv, List.getElem?_modify, hcall]
  split <;> rfl

theorem trans {conn middle next : UnixSocketConnection} (hfirst : KeepsPromises conn middle)
    (hsecond : KeepsPromises middle next) : KeepsPromises conn next :=
  fun recv need bytes hcall => hsecond recv need bytes (hfirst recv need bytes hcall)

theorem drain (conn : UnixSocketConnection) (waiters : List Waiter) :
    KeepsPromises conn (conn.drain waiters) := by
  induction waiters generalizing conn with
  | nil => exact of_recvs_eq rfl
  | cons w rest ih =>
      rw [UnixSocketConnection.drain]
      split
      · exact of_recvs_eq rfl
      · exact (settleRecv (conn.splice w.need).2 w.recv _).trans (ih _)

theorem onData (conn : UnixSocketConnection) (chunk : List UInt8) :
    KeepsPromises conn (conn.onData chunk) :=
  drain { conn with buffer := conn.buffer ++ chunk, received := conn.received ++ chunk } _

theorem recv (conn : UnixSocketConnection) (length : Nat) :
    KeepsPromises conn (conn.recv length).2 := by
  have hgrown : ∃ call, (conn.recv length).2.recvs = conn.recvs ++ [call] := by
    unfold UnixSocketConnection.recv
    split
    · exact ⟨_, rfl⟩
    · split <;> exact ⟨_, rfl⟩
  obtain ⟨call, hcall⟩ := hgrown
  intro other need bytes hresolved
  rw [hcall, List.getElem?_append_left (List.getElem?_eq_some_iff.mp hresolved).1]
  exact hresolved

end KeepsPromises

end UnixSocketConnection

/-! ## Bytes and frames -/

/-- With the bytes `more`, the frames that have been read and the bytes in front
become others of the same stream. -/
structure Advance (frames : List (List UInt8)) (front more : List UInt8)
    (frames' : List (List UInt8)) (front' : List UInt8) : Prop where
  grown : frames <+: frames'
  stream_eq : frameHeader.stream frames' ++ front' = frameHeader.stream frames ++ (front ++ more)
  fits : frameHeader.Fits frames → frameHeader.Fits frames'

namespace Advance

variable {frames : List (List UInt8)} {front more : List UInt8}

theorem stay : Advance frames front more frames (front ++ more) :=
  ⟨List.prefix_rfl, rfl, id⟩

theorem frame {payload rest : List UInt8}
    (hscan : frameHeader.scan (front ++ more) = .frame payload rest) :
    Advance frames front more (frames ++ [payload]) rest := by
  obtain ⟨hfront, hpayload⟩ := frameHeader.eq_of_scan_frame hscan
  refine ⟨List.prefix_append _ _, ?_, ?_⟩
  · rw [hfront, Header.stream_append, Header.stream_cons, Header.stream_nil, List.append_nil,
      List.append_assoc]
  · intro hfits
    exact frameHeader.fits_append.mpr ⟨hfits, frameHeader.fits_cons.mpr ⟨hpayload, frameHeader.fits_nil⟩⟩

end Advance

/-! ## The calls of `recvFrame` -/

/-- The `recvFrame` has its frame: it has returned it, or its body has come. -/
inductive Served (conn : UnixSocketConnection) (payload : List UInt8) : FrameRead → Prop where
  | body (recv : Nat) (hcall : conn.recvs[recv]? = some ⟨payload.length, .resolved payload⟩) :
      Served conn payload (.body recv)
  | returned : Served conn payload (.settled (.ok payload))

theorem Served.keeps {conn next : UnixSocketConnection} {payload : List UInt8} {read : FrameRead}
    (hserved : Served conn payload read) (hkeeps : KeepsPromises conn next) : Served next payload read := by
  cases hserved with
  | body recv hcall => exact .body recv (hkeeps _ _ _ hcall)
  | returned => exact .returned

theorem FrameRead.resume_keeps {conn next : UnixSocketConnection} {read read' : FrameRead}
    (hresume : read.resume conn = some (read', next)) : KeepsPromises conn next := by
  cases FrameRead.resume_cases hresume with
  | reads recv head hresolved hpos hfits => exact .recv _ _
  | refuses | empty | returns | fails => exact .of_recvs_eq rfl

/-- A call whose body has come returns it. -/
theorem Served.resume {conn next : UnixSocketConnection} {payload : List UInt8}
    {read read' : FrameRead} (hserved : Served conn payload read)
    (hresume : read.resume conn = some (read', next)) :
    read' = .settled (.ok payload) ∧ next = conn := by
  cases hserved with
  | body recv hcall =>
      simp only [FrameRead.resume, recvOutcome, hcall, Option.map_some, Option.getD_some] at hresume
      cases hresume
      exact ⟨rfl, rfl⟩
  | returned => cases hresume

/-- The `recvFrame` calls that lack bytes: none, one, or one for its header
behind one for its body. -/
inductive Lacking (conn : UnixSocketConnection) (front : List UInt8) : List FrameRead → Prop where
  | idle (hwaiters : conn.waiters = []) (hfront : front = conn.buffer) : Lacking conn front []
  | one (read : FrameRead) (hreading : Reading conn front read) : Lacking conn front [read]
  | two (body header : Nat) (head : List UInt8) (hwidth : head.length = 4)
      (hlimit : BigEndian.ofBytes head ≤ MAX_FRAME_SIZE) (hdistinct : body ≠ header)
      (hbody : conn.recvs[body]? = some ⟨BigEndian.ofBytes head, .pending⟩)
      (hheader : conn.recvs[header]? = some ⟨4, .pending⟩)
      (hwaiters : conn.waiters = [⟨BigEndian.ofBytes head, body⟩, ⟨4, header⟩])
      (hshort : conn.buffer.length < BigEndian.ofBytes head)
      (hfront : front = head ++ conn.buffer) :
      Lacking conn front [.body body, .header header]

/-- The calls have read the frames, one each, and the last ones still read. -/
structure Lined (conn : UnixSocketConnection) (front : List UInt8) (reads : List FrameRead)
    (frames : List (List UInt8)) : Prop where
  served : ∀ (r : Nat) payload, frames[r]? = some payload →
    ∃ read, reads[r]? = some read ∧ Served conn payload read
  lacking : Lacking conn front (reads.drop frames.length)

/-- The calls that may be joined by another: each has its header, and where one
waits for its body, no other header lies ready. -/
def Joinable (conn : UnixSocketConnection) (reads : List FrameRead) : Prop :=
  (∀ recv, .header recv ∉ reads) ∧ (conn.waiters = [] ∨ conn.buffer.length < 4)

namespace Lacking

variable {conn : UnixSocketConnection} {front : List UInt8} {reads : List FrameRead}

/-- Only what is received matters. -/
theorem congr {next : UnixSocketConnection} (hlacking : Lacking conn front reads)
    (hrecvs : next.recvs = conn.recvs) (hwaiters : next.waiters = conn.waiters)
    (hconnected : next.connected = conn.connected) (hbuffer : next.buffer = conn.buffer) :
    Lacking next front reads := by
  cases hlacking with
  | idle hwait hfront => exact .idle (by rwa [hwaiters]) (by rwa [hbuffer])
  | one read hreading => exact .one read (hreading.congr hrecvs hwaiters hconnected hbuffer)
  | two body header head hwidth hlimit hdistinct hbody hheader hwait hshort hfront =>
      exact .two body header head hwidth hlimit hdistinct (by rwa [hrecvs]) (by rwa [hrecvs])
        (by rwa [hwaiters]) (by rwa [hbuffer]) (by rwa [hbuffer])

end Lacking

theorem Lacking.not_settled {conn : UnixSocketConnection} {front : List UInt8}
    {reads : List FrameRead} (hlacking : Lacking conn front reads)
    (result : Except TransportError (List UInt8)) : .settled result ∉ reads := by
  intro hmem
  cases hlacking with
  | idle => cases hmem
  | one read hreading =>
      rw [← List.mem_singleton.mp hmem] at hreading
      cases hreading
  | two body header =>
      rcases List.mem_cons.mp hmem with hbody | hheader
      · cases hbody
      · cases List.mem_singleton.mp hheader

/-- Calls that cannot go on lack bytes of the frame in front. -/
theorem Lacking.truncated {conn : UnixSocketConnection} {front : List UInt8}
    {reads : List FrameRead} (hlacking : Lacking conn front reads) (hlacks : reads ≠ [])
    (hstuck : ∀ read ∈ reads, read.resume conn = none) :
    frameHeader.scan front = .stuck .truncated := by
  cases hlacking with
  | idle => exact absurd rfl hlacks
  | one read hreading =>
      exact (hreading.of_resume_eq_none (hstuck read List.mem_cons_self)).2
  | two body header head hwidth hlimit hdistinct hbody hheader hwaiters hshort hfront =>
      rw [hfront]
      exact scan_short_body hwidth hlimit hshort

/-- How the calls stand when bytes have come or a call has gone on: they still
lack the same frames, or the first of them has the frame in front. -/
inductive Moved (conn : UnixSocketConnection) (front : List UInt8) (reads : List FrameRead) :
    Prop where
  | stay (hlacking : Lacking conn front reads)
  | frame (payload rest : List UInt8) (read : FrameRead) (others : List FrameRead)
      (hreads : reads = read :: others) (hserved : Served conn payload read)
      (hscan : frameHeader.scan front = .frame payload rest) (hlacking : Lacking conn rest others)

namespace Lacking

variable {conn : UnixSocketConnection} {front : List UInt8} {reads : List FrameRead}

/-- The bytes go to the call for a body first, and then to the one for a header. -/
theorem onData (hlacking : Lacking conn front reads) (hconnected : conn.connected = true)
    (chunk : List UInt8) : Moved (conn.onData chunk) (front ++ chunk) reads := by
  cases hlacking with
  | idle hwaiters hfront =>
      rw [onData_of_no_waiters hwaiters]
      refine .stay (.idle hwaiters ?_)
      rw [hfront]
  | one read hreading => exact .stay (.one read (hreading.onData hconnected chunk))
  | two body header head hwidth hlimit hdistinct hbody hheader hwaiters hshort hfront =>
      by_cases hstill : (conn.buffer ++ chunk).length < BigEndian.ofBytes head
      · have hnext : conn.onData chunk =
            { conn with buffer := conn.buffer ++ chunk, received := conn.received ++ chunk } := by
          simp only [UnixSocketConnection.onData, drainWaiters, hwaiters, drain, if_pos hstill]
        rw [hnext]
        refine .stay (.two body header head hwidth hlimit hdistinct hbody hheader hwaiters hstill ?_)
        rw [hfront, List.append_assoc]
      · -- the body has come, and the call for the header is next
        let bytes := (conn.buffer ++ chunk).take (BigEndian.ofBytes head)
        let rest := (conn.buffer ++ chunk).drop (BigEndian.ofBytes head)
        let served := { conn with
          buffer := rest
          received := conn.received ++ chunk
          recvs := conn.recvs.modify body fun call => call.settle (.resolved bytes) }
        have hnext : conn.onData chunk = served.drain [⟨4, header⟩] := by
          simp only [UnixSocketConnection.onData, drainWaiters, hwaiters]
          rw [drain, if_neg hstill]
          rfl
        have hlength : bytes.length = BigEndian.ofBytes head :=
          List.length_take_of_le (Nat.le_of_not_lt hstill)
        have hbytes : served.recvs[body]? = some ⟨bytes.length, .resolved bytes⟩ := by
          simp only [served, List.getElem?_modify_eq, hbody, hlength]
          rfl
        have hnextHeader : served.recvs[header]? = some ⟨4, .pending⟩ := by
          simp only [served, List.getElem?_modify_ne _ _ hdistinct]
          exact hheader
        rw [hnext]
        refine .frame bytes rest (.body body) [.header header] rfl
          (.body body (KeepsPromises.drain _ _ _ _ _ hbytes)) ?_
          (.one _ (.header header (drain_awaits hnextHeader hconnected)))
        rw [hfront, List.append_assoc, ← List.take_append_drop (BigEndian.ofBytes head) (_ ++ chunk)]
        exact scan_append_body hwidth hlimit hlength

/-- Another call reads behind calls that may be joined. -/
theorem recvFrame (hlacking : Lacking conn front reads) (hconnected : conn.connected = true)
    (hjoinable : Joinable conn reads) :
    Moved (recvFrame conn).2 front (reads ++ [(recvFrame conn).1]) := by
  obtain ⟨hheaders, hready⟩ := hjoinable
  cases hlacking with
  | idle hwaiters hfront =>
      rw [hfront]
      exact .stay (.one _ (recvFrame_reading hwaiters))
  | two body header => exact absurd (List.mem_cons_of_mem _ List.mem_cons_self) (hheaders header)
  | one read hreading =>
      cases hreading with
      | header recv => exact absurd List.mem_cons_self (hheaders recv)
      | body recv head behind hwidth hpositive hlimit hawaits hfront =>
          cases hawaits with
          | pending hcall hwaiters _ hshort hbehind =>
              have hfew : conn.buffer.length < 4 := by
                rcases hready with hnone | hfew
                · rw [hnone] at hwaiters
                  cases hwaiters
                · exact hfew
              have hrecv : recv < conn.recvs.length := (List.getElem?_eq_some_iff.mp hcall).1
              have hnext : Js.recvFrame conn = (.header conn.recvs.length,
                  { conn with
                    recvs := conn.recvs ++ [⟨4, .pending⟩]
                    waiters := conn.waiters ++ [⟨4, conn.recvs.length⟩] }) := by
                rw [Js.recvFrame, UnixSocketConnection.recv, if_neg (Nat.not_le.mpr hfew),
                  if_neg (by rw [hconnected]; decide)]
              rw [hnext]
              refine .stay (.two recv conn.recvs.length head hwidth hlimit (Nat.ne_of_lt hrecv)
                ?_ List.getElem?_concat_length ?_ hshort ?_)
              · rw [List.getElem?_append_left hrecv]
                exact hcall
              · rw [hwaiters]
                rfl
              · rw [hfront, hbehind]
          | resolved bytes hcall hwaiters hlength hbehind =>
              rw [← hlength] at hcall
              refine .frame bytes conn.buffer (.body recv) [(Js.recvFrame conn).1] rfl
                (.body recv (KeepsPromises.recv conn 4 _ _ _ hcall)) ?_
                (.one _ (recvFrame_reading hwaiters))
              rw [hfront, hbehind]
              exact scan_append_body hwidth hlimit hlength
          | closed _ _ hclosed =>
              rw [hconnected] at hclosed
              cases hclosed

/-- A call goes on. On a connection that is open it can fail only for the length
its header announces. -/
theorem resume {next : UnixSocketConnection} {read read' : FrameRead} {r : Nat}
    (hlacking : Lacking conn front reads) (hconnected : conn.connected = true)
    (hfits : frameHeader.scan front ≠ .stuck .oversized) (hread : reads[r]? = some read)
    (hresume : read.resume conn = some (read', next)) : Moved next front (reads.set r read') := by
  cases hlacking with
  | idle => cases hread
  | one other hreading =>
      cases r with
      | succ r => cases hread
      | zero =>
          cases hread
          obtain ⟨hresumed, hframe⟩ := hreading.resume hresume
          cases hresumed with
          | reading recv hreading' => exact .stay (.one _ hreading')
          | frame payload hwaiters hscan =>
              exact .frame payload next.buffer _ [] rfl .returned hscan (.idle hwaiters rfl)
          | refused error hwaiters hrefused =>
              cases hrefused with
              | oversized hscan => exact absurd hscan hfits
              | closed hscan hclosed =>
                  rw [hframe, hconnected] at hclosed
                  cases hclosed
  | two body header head hwidth hlimit hdistinct hbody hheader hwaiters hshort hfront =>
      -- both calls still wait
      have hpending : read.resume conn = none := by
        rcases List.mem_cons.mp (List.mem_of_getElem? hread) with rfl | hmem
        · simp only [FrameRead.resume, recvOutcome, hbody, Option.map_some, Option.getD_some]
        · rw [List.mem_singleton.mp hmem]
          simp only [FrameRead.resume, recvOutcome, hheader, Option.map_some, Option.getD_some]
      rw [hpending] at hresume
      cases hresume

end Lacking

/-- The frame with this index begins at `front`. -/
def FrameAt (stream : List UInt8) (r : Nat) (front : List UInt8) : Prop :=
  ∃ frames, frameHeader.Fits frames ∧ frames.length = r ∧
    stream = frameHeader.stream frames ++ front

/-- What the call has parsed of the stream is its own frame: of its header when
it asks for its body, and all of it when it returns. -/
def OwnFrame (conn : UnixSocketConnection) (r : Nat) : FrameRead → Prop
  | .header _ => True
  | .body recv => ∃ front call, FrameAt conn.received r front ∧ conn.recvs[recv]? = some call ∧
      4 ≤ front.length ∧ frameHeader.announced front = call.need
  | .settled result => ∃ front payload rest, FrameAt conn.received r front ∧
      frameHeader.scan front = .frame payload rest ∧ result = .ok payload

/-- The first call that lacks bytes reads the frame in front. -/
theorem Lacking.own {conn : UnixSocketConnection} {front : List UInt8} {reads : List FrameRead}
    {r j : Nat} {read : FrameRead} (hlacking : Lacking conn front reads)
    (hfront : FrameAt conn.received r front) (hread : reads[j]? = some read) :
    OwnFrame conn (r + j) read := by
  cases hlacking with
  | idle => cases hread
  | one other hreading =>
      cases j with
      | succ j => cases hread
      | zero =>
          cases hread
          cases hreading with
          | header => trivial
          | body recv head behind hwidth hpositive hlimit hawaits hbytes =>
              obtain ⟨outcome, hcall⟩ := hawaits.call
              refine ⟨front, _, hfront, hcall, ?_, ?_⟩
              · rw [hbytes, List.length_append, hwidth]
                exact Nat.le_add_right _ _
              · rw [hbytes, announced_append hwidth]
  | two body header head hwidth hlimit hdistinct hbody hheader hwaiters hshort hbytes =>
      match j with
      | 0 =>
          cases hread
          refine ⟨front, _, hfront, hbody, ?_, ?_⟩
          · rw [hbytes, List.length_append, hwidth]
            exact Nat.le_add_right _ _
          · rw [hbytes, announced_append hwidth]
      | 1 =>
          cases hread
          trivial
      | j + 2 => cases hread

namespace Lined

variable {conn : UnixSocketConnection} {front : List UInt8} {reads : List FrameRead}
  {frames : List (List UInt8)}

theorem length_le (hlined : Lined conn front reads frames) : frames.length ≤ reads.length := by
  by_contra hlt
  obtain ⟨read, hread, -⟩ := hlined.served reads.length _
    (List.getElem?_eq_getElem (Nat.lt_of_not_le hlt))
  rw [List.getElem?_eq_none (Nat.le_refl _)] at hread
  cases hread

theorem congr {next : UnixSocketConnection} (hlined : Lined conn front reads frames)
    (hrecvs : next.recvs = conn.recvs) (hwaiters : next.waiters = conn.waiters)
    (hconnected : next.connected = conn.connected) (hbuffer : next.buffer = conn.buffer) :
    Lined next front reads frames := by
  refine ⟨?_, hlined.lacking.congr hrecvs hwaiters hconnected hbuffer⟩
  intro r payload hframe
  obtain ⟨read, hread, hserved⟩ := hlined.served r payload hframe
  exact ⟨read, hread, hserved.keeps (.of_recvs_eq hrecvs)⟩

theorem keeps {next : UnixSocketConnection} (hlined : Lined conn front reads frames)
    (hkeeps : KeepsPromises conn next) : ∀ (r : Nat) payload, frames[r]? = some payload →
    ∃ read, reads[r]? = some read ∧ Served next payload read := by
  intro r payload hframe
  obtain ⟨read, hread, hserved⟩ := hlined.served r payload hframe
  exact ⟨read, hread, hserved.keeps hkeeps⟩

theorem set {r : Nat} {payload : List UInt8} {read : FrameRead}
    (hlined : Lined conn front reads frames) (hframe : frames[r]? = some payload)
    (hread : Served conn payload read) : Lined conn front (reads.set r read) frames := by
  have hr := (List.getElem?_eq_some_iff.mp hframe).1
  refine ⟨?_, ?_⟩
  · intro q other hother
    by_cases hsame : r = q
    · subst hsame
      cases hframe.symm.trans hother
      refine ⟨read, ?_, hread⟩
      rw [List.getElem?_set_self (Nat.lt_of_lt_of_le hr hlined.length_le)]
    · rw [List.getElem?_set_ne hsame]
      exact hlined.served q other hother
  · rw [List.drop_set, if_pos hr]
    exact hlined.lacking

/-- The frame in front goes to the first call that lacks one. -/
theorem of_moved {more : List UInt8}
    (hserved : ∀ (r : Nat) payload, frames[r]? = some payload →
      ∃ read, reads[r]? = some read ∧ Served conn payload read)
    (hmoved : Moved conn (front ++ more) (reads.drop frames.length)) :
    ∃ frames' front', Lined conn front' reads frames' ∧
      Advance frames front more frames' front' := by
  cases hmoved with
  | stay hlacking => exact ⟨frames, front ++ more, ⟨hserved, hlacking⟩, .stay⟩
  | frame payload rest read others hreads hread hscan hlacking =>
      refine ⟨frames ++ [payload], rest, ⟨?_, ?_⟩, .frame hscan⟩
      · intro r other hother
        rcases Nat.lt_trichotomy r frames.length with hlt | heq | hgt
        · rw [List.getElem?_append_left hlt] at hother
          exact hserved r other hother
        · subst heq
          rw [List.getElem?_concat_length] at hother
          cases hother
          refine ⟨read, ?_, hread⟩
          rw [← List.head?_drop, hreads]
          rfl
        · rw [List.getElem?_eq_none (by rw [List.length_append, List.length_singleton]; omega)]
            at hother
          cases hother
      · rw [List.length_append, List.length_singleton, ← List.drop_drop, hreads]
        exact hlacking

theorem onData (hlined : Lined conn front reads frames) (hconnected : conn.connected = true)
    (chunk : List UInt8) : ∃ frames' front', Lined (conn.onData chunk) front' reads frames' ∧
      Advance frames front chunk frames' front' :=
  of_moved (hlined.keeps (.onData conn chunk)) (hlined.lacking.onData hconnected chunk)

theorem recvFrame (hlined : Lined conn front reads frames) (hconnected : conn.connected = true)
    (hjoinable : Joinable conn reads) :
    ∃ frames' front', Lined (recvFrame conn).2 front' (reads ++ [(recvFrame conn).1]) frames' ∧
      Advance frames front [] frames' front' := by
  apply of_moved
  · intro r payload hframe
    obtain ⟨read, hread, hserved⟩ := hlined.served r payload hframe
    refine ⟨read, ?_, hserved.keeps (.recv conn 4)⟩
    rw [List.getElem?_append_left (List.getElem?_eq_some_iff.mp hread).1]
    exact hread
  · rw [List.append_nil, List.drop_append_of_le_length hlined.length_le]
    apply hlined.lacking.recvFrame hconnected
    exact ⟨fun recv hmem => hjoinable.1 recv (List.mem_of_mem_drop hmem), hjoinable.2⟩

theorem resume {next : UnixSocketConnection} {read read' : FrameRead} {r : Nat}
    (hlined : Lined conn front reads frames) (hconnected : conn.connected = true)
    (hfits : frameHeader.scan front ≠ .stuck .oversized) (hread : reads[r]? = some read)
    (hresume : read.resume conn = some (read', next)) :
    ∃ frames' front', Lined next front' (reads.set r read') frames' ∧
      Advance frames front [] frames' front' := by
  by_cases hserved : r < frames.length
  · obtain ⟨other, hother, hhas⟩ := hlined.served r _ (List.getElem?_eq_getElem hserved)
    cases hread.symm.trans hother
    obtain ⟨rfl, rfl⟩ := hhas.resume hresume
    refine ⟨frames, front, hlined.set (List.getElem?_eq_getElem hserved) .returned, ?_⟩
    exact ⟨List.prefix_rfl, by rw [List.append_nil], id⟩
  · apply of_moved
    · intro q payload hframe
      obtain ⟨other, hother, hhas⟩ := hlined.served q payload hframe
      refine ⟨other, ?_, hhas.keeps (FrameRead.resume_keeps hresume)⟩
      have hne : r ≠ q := by
        rintro rfl
        exact hserved (List.getElem?_eq_some_iff.mp hframe).1
      rw [List.getElem?_set_ne hne]
      exact hother
    · rw [List.append_nil, List.drop_set, if_neg hserved]
      apply hlined.lacking.resume hconnected hfits _ hresume
      rw [List.getElem?_drop, Nat.add_sub_cancel' (Nat.le_of_not_lt hserved)]
      exact hread

/-- A call has parsed nothing but the frame whose turn it is. -/
theorem own {r : Nat} {read : FrameRead} (hlined : Lined conn front reads frames)
    (hreceived : conn.received = frameHeader.stream frames ++ front)
    (hfits : frameHeader.Fits frames) (hread : reads[r]? = some read) : OwnFrame conn r read := by
  by_cases hserved : r < frames.length
  · obtain ⟨other, hother, hhas⟩ := hlined.served r _ (List.getElem?_eq_getElem hserved)
    cases hread.symm.trans hother
    have hsplit : frames = frames.take r ++ frames[r] :: frames.drop (r + 1) := by
      rw [List.getElem_cons_drop, List.take_append_drop]
    have hframe : frames[r].length ≤ MAX_FRAME_SIZE := hfits _ (List.getElem_mem hserved)
    have hfront : FrameAt conn.received r
        (frameHeader.frame frames[r] ++ (frameHeader.stream (frames.drop (r + 1)) ++ front)) := by
      refine ⟨frames.take r, ?_, List.length_take_of_le (Nat.le_of_lt hserved), ?_⟩
      · intro payload hmem
        exact hfits payload (List.mem_of_mem_take hmem)
      · rw [hreceived]
        conv_lhs => rw [hsplit]
        rw [Header.stream_append, Header.stream_cons, List.append_assoc, List.append_assoc]
    cases hhas with
    | body recv hcall =>
        refine ⟨_, _, hfront, hcall, ?_, frameHeader.announced_frame_append hframe _⟩
        rw [List.length_append, Header.length_frame, frameHeader_width]
        omega
    | returned => exact ⟨_, _, _, hfront, frameHeader.scan_frame_append hframe _, rfl⟩
  · have hlacks : (reads.drop frames.length)[r - frames.length]? = some read := by
      rw [List.getElem?_drop, Nat.add_sub_cancel' (Nat.le_of_not_lt hserved)]
      exact hread
    have hown := hlined.lacking.own ⟨frames, hfits, rfl, hreceived⟩ hlacks
    rwa [Nat.add_sub_cancel' (Nat.le_of_not_lt hserved)] at hown

/-- What a call has returned is the frame whose turn it was. -/
theorem returned {r : Nat} {result : Except TransportError (List UInt8)}
    (hlined : Lined conn front reads frames) (hread : reads[r]? = some (.settled result)) :
    ∃ payload, frames[r]? = some payload ∧ result = .ok payload := by
  by_cases hserved : r < frames.length
  · obtain ⟨read, hother, hserved'⟩ := hlined.served r _ (List.getElem?_eq_getElem hserved)
    rw [hread] at hother
    cases hother
    cases hserved' with
    | returned => exact ⟨_, List.getElem?_eq_getElem hserved, rfl⟩
  · -- those behind have not returned
    have hmem : .settled result ∈ reads.drop frames.length := by
      apply List.mem_of_getElem?
      rw [List.getElem?_drop, Nat.add_sub_cancel' (Nat.le_of_not_lt hserved)]
      exact hread
    exact absurd hmem (hlined.lacking.not_settled result)

end Lined

end Ibridger.Js
