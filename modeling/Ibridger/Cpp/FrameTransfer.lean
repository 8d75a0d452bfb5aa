import Ibridger.Cpp.Dispatcher
import Ibridger.Cpp.FrameStream

/-! # What a single transfer of a frame does

Whatever the kernel answers, a `send_frame` has put a beginning of its frame on
the wire, and the whole frame exactly if it reports success; a `recv_frame` that
succeeds has taken exactly one frame from the bytes that its reads found.
-/

namespace Ibridger.Cpp

open LengthPrefix Wire

/-! ## Sending -/

/-- A `::send` of a nonempty buffer never accepts nothing. -/
def Progressing (outcomes : List SendOutcome) : Prop :=
  ∀ outcome ∈ outcomes, outcome ≠ .accepted 0

instance (outcomes : List SendOutcome) : Decidable (Progressing outcomes) :=
  inferInstanceAs (Decidable (∀ outcome ∈ outcomes, outcome ≠ .accepted 0))

theorem Progressing.append {first second : List SendOutcome} (hfirst : Progressing first)
    (hsecond : Progressing second) : Progressing (first ++ second) := by
  intro outcome hmem
  rcases List.mem_append.mp hmem with h | h
  · exact hfirst outcome h
  · exact hsecond outcome h

namespace UnixSocketConnection

/-- A `send` without an error has sent everything. -/
theorem sendLoop_progressing {conn next : UnixSocketConnection} {data : List UInt8}
    {total sent : Nat} {error : Option ErrorCode} {outcomes : List SendOutcome}
    (hprogress : Progressing outcomes) (htotal : total ≤ data.length)
    (hrun : conn.sendLoop data total outcomes = some ((sent, error), next)) :
    Progressing next.sends ∧ (error = none → sent = data.length) ∧
      error ≠ some (.ibridger .protocolError) := by
  induction outcomes generalizing conn total with
  | nil =>
      simp only [sendLoop] at hrun
      split at hrun
      · cases hrun
      · cases hrun
        exact ⟨hprogress, fun _ => by omega, by simp⟩
  | cons outcome rest ih =>
      have hrest : Progressing rest := fun other hmem => hprogress other (List.mem_cons_of_mem _ hmem)
      simp only [sendLoop] at hrun
      split at hrun
      next hmore =>
        cases outcome with
        | failed errno =>
            simp only at hrun
            split at hrun
            · exact ih hrest htotal hrun
            · cases hrun
              exact ⟨hrest, fun h => (by cases h), by simp⟩
        | accepted count =>
            have hcount : count ≠ 0 := by
              rintro rfl
              exact hprogress _ List.mem_cons_self rfl
            simp only at hrun
            rw [if_neg (by omega)] at hrun
            exact ih hrest (by omega) hrun
      next hend =>
        cases hrun
        exact ⟨hprogress, fun _ => by omega, by simp⟩

end UnixSocketConnection

/-- What a `send_frame` of the payload has done to its connection. -/
structure FrameSent (conn : UnixSocketConnection) (payload : List UInt8)
    (error : Option ErrorCode) (next : UnixSocketConnection) (written : List UInt8) : Prop where
  wire_eq : next.wire = conn.wire ++ written
  written_prefix : written <+: frameHeader.frame payload
  complete_iff : error = none ↔ written = frameHeader.frame payload
  oversized : MAX_FRAME_SIZE < payload.length → written = []
  progressing : Progressing next.sends
  reads_eq : next.reads = conn.reads
  connected_eq : error = none → next.connected = conn.connected
  error_ne : error ≠ some (.ibridger .protocolError)

namespace FramedConnection

theorem sendFrame_sent {conn next : UnixSocketConnection} {payload : List UInt8}
    {error : Option ErrorCode} (hprogress : Progressing conn.sends)
    (hrun : sendFrame conn payload = some (error, next)) :
    ∃ written, FrameSent conn payload error next written := by
  have hframe : (frameHeader.frame payload).length = 4 + payload.length := by
    rw [Header.length_frame, frameHeader_width]
  cases sendFrame_eq_some.mp hrun with
  | oversized hlarge =>
      refine ⟨[], (List.append_nil _).symm, List.nil_prefix, ?_, fun _ => rfl, hprogress, rfl,
        fun _ => rfl, by simp⟩
      constructor
      · intro h
        cases h
      · intro h
        have hnone := congrArg List.length h
        rw [hframe, List.length_nil] at hnone
        omega
  | header sent err _ hfits hsend =>
      have hheader := UnixSocketConnection.send_sent hsend
      obtain ⟨hmiddle, -, hcode⟩ :=
        UnixSocketConnection.sendLoop_progressing hprogress (Nat.zero_le _) hsend
      have hshort := hheader.short_of_error (by simp)
      refine ⟨(encodeHeader payload.length).take sent, hheader.wire_eq, ?_, ?_,
        fun h => absurd hfits (Nat.not_le_of_lt h), hmiddle, hheader.reads_eq,
        fun h => (by cases h), hcode⟩
      · rw [frame_eq hfits]
        exact (List.take_prefix _ _).trans (List.prefix_append _ _)
      · constructor
        · intro h
          cases h
        · intro h
          have hwhole := congrArg List.length h
          rw [hframe, List.length_take] at hwhole
          rw [encodeHeader_length] at hshort
          omega
  | empty sent _ hfits hempty hsend =>
      have hheader := UnixSocketConnection.send_sent hsend
      obtain ⟨hmiddle, hall, -⟩ :=
        UnixSocketConnection.sendLoop_progressing hprogress (Nat.zero_le _) hsend
      have hwritten : frameHeader.frame payload = encodeHeader payload.length := by
        rw [frame_eq hfits, hempty, List.append_nil]
      refine ⟨encodeHeader payload.length, ?_, ?_, ⟨fun _ => hwritten.symm, fun _ => rfl⟩,
        fun h => absurd hfits (Nat.not_le_of_lt h), hmiddle, hheader.reads_eq, ?_, by simp⟩
      · rw [hheader.wire_eq, hall rfl, List.take_length]
      · exact ⟨[], (List.append_nil _).trans hwritten.symm⟩
      · intro _
        rw [hheader.connected_eq]
        exact Bool.and_true _
  | body sent count middle _ _ hfits hdata hsend hbody =>
      have hheader := UnixSocketConnection.send_sent hsend
      have hpayload := UnixSocketConnection.send_sent hbody
      obtain ⟨hmiddle, hall, -⟩ :=
        UnixSocketConnection.sendLoop_progressing hprogress (Nat.zero_le _) hsend
      obtain ⟨hlast, hall', hcode⟩ :=
        UnixSocketConnection.sendLoop_progressing hmiddle (Nat.zero_le _) hbody
      refine ⟨encodeHeader payload.length ++ payload.take count, ?_, ?_, ?_,
        fun h => absurd hfits (Nat.not_le_of_lt h), hlast, ?_, ?_, hcode⟩
      · rw [hpayload.wire_eq, hheader.wire_eq, hall rfl, List.take_length, List.append_assoc]
      · rw [frame_eq hfits]
        exact (List.prefix_append_right_inj _).mpr (List.take_prefix _ _)
      · rw [frame_eq hfits, List.append_right_inj]
        constructor
        · intro hnone
          rw [hall' hnone, List.take_length]
        · -- an error leaves a part of the payload unsent
          intro htake
          by_contra herror
          have hshort := hpayload.short_of_error herror
          have hwhole := congrArg List.length htake
          rw [List.length_take] at hwhole
          omega
      · rw [hpayload.reads_eq, hheader.reads_eq]
      · intro hnone
        rw [hpayload.connected_eq, hheader.connected_eq, hnone]
        simp

/-- A `send_frame` that fails has put fewer bytes on the wire than the frame has,
even if the kernel accepted no bytes without an error. -/
theorem sendFrame_short {conn next : UnixSocketConnection} {payload : List UInt8}
    {err : ErrorCode} (hrun : sendFrame conn payload = some (some err, next)) :
    ∃ written, next.wire = conn.wire ++ written ∧
      written.length < (frameHeader.frame payload).length := by
  have hframe : (frameHeader.frame payload).length = 4 + payload.length := by
    rw [Header.length_frame, frameHeader_width]
  cases sendFrame_eq_some.mp hrun with
  | oversized hlarge =>
      exact ⟨[], (List.append_nil _).symm, by rw [hframe, List.length_nil]; omega⟩
  | header sent _ _ hfits hsend =>
      have hheader := UnixSocketConnection.send_sent hsend
      have hshort := hheader.short_of_error (by simp)
      refine ⟨_, hheader.wire_eq, ?_⟩
      rw [hframe, List.length_take]
      rw [encodeHeader_length] at hshort
      omega
  | body sent count middle _ _ hfits hdata hsend hbody =>
      have hheader := UnixSocketConnection.send_sent hsend
      have hpayload := UnixSocketConnection.send_sent hbody
      have hshort := hpayload.short_of_error (by simp)
      refine ⟨(encodeHeader payload.length).take sent ++ payload.take count, ?_, ?_⟩
      · rw [hpayload.wire_eq, hheader.wire_eq, List.append_assoc]
      · rw [hframe, List.length_append, List.length_take, List.length_take, encodeHeader_length]
        omega

end FramedConnection

/-! ## Receiving -/

theorem bytesOf_append (first second : List ReadOutcome) :
    bytesOf (first ++ second) = bytesOf first ++ bytesOf second :=
  List.flatMap_append

@[simp] theorem bytesOf_got (bytes : List UInt8) (rest : List ReadOutcome) :
    bytesOf (.got bytes :: rest) = bytes ++ bytesOf rest := rfl

@[simp] theorem bytesOf_failed (errno : Errno) (rest : List ReadOutcome) :
    bytesOf (.failed errno :: rest) = bytesOf rest := rfl

@[simp] theorem bytesOf_unread (bytes : List UInt8) (rest : List ReadOutcome) :
    bytesOf (unread bytes rest) = bytes ++ bytesOf rest := by
  unfold unread
  split
  next hnil => rw [hnil, List.nil_append]
  next => rfl

namespace UnixSocketConnection

/-- A `recv` changes nothing but the flag and what is left to read, and it
returns the bytes it has taken. -/
theorem recvLoop_taken {conn next : UnixSocketConnection} {len : Nat} {received : List UInt8}
    {error : Option ErrorCode} {outcomes : List ReadOutcome}
    (hrun : conn.recvLoop len outcomes = some ((received, error), next)) :
    next = { conn with connected := next.connected, reads := next.reads } ∧
      error ≠ some (.ibridger .protocolError) ∧ received.length ≤ len ∧
      (error = none → received ≠ [] →
        bytesOf outcomes = received ++ bytesOf next.reads ∧ next.connected = conn.connected) := by
  induction outcomes with
  | nil => cases hrun
  | cons outcome rest ih =>
      cases outcome with
      | failed errno =>
          simp only [recvLoop] at hrun
          split at hrun
          · exact ih hrun
          · cases hrun
            exact ⟨rfl, by simp, Nat.zero_le _, fun h => (by cases h)⟩
      | got bytes =>
          simp only [recvLoop] at hrun
          split at hrun
          · cases hrun
            exact ⟨rfl, by simp, Nat.zero_le _, fun _ h => absurd rfl h⟩
          · cases hrun
            refine ⟨rfl, by simp, ?_, fun _ _ => ⟨?_, rfl⟩⟩
            · rw [List.length_take]
              exact Nat.min_le_left _ _
            · rw [bytesOf_got, bytesOf_unread, ← List.append_assoc, List.take_append_drop]

end UnixSocketConnection

namespace FramedConnection

theorem readExact_taken {conn next : UnixSocketConnection} {n : Nat}
    {result : Except ErrorCode (List UInt8)} (hrun : readExact conn n = some (result, next)) :
    next = { conn with connected := next.connected, reads := next.reads } ∧
      result ≠ .error (.ibridger .protocolError) ∧
      (∀ bytes, result = .ok bytes →
        bytes.length = n ∧ bytesOf conn.reads = bytes ++ bytesOf next.reads ∧
          next.connected = conn.connected) := by
  induction n using Nat.strongRecOn generalizing conn result next with
  | ind n ih =>
      rw [readExact] at hrun
      split at hrun
      next hzero =>
        cases hrun
        refine ⟨rfl, by simp, ?_⟩
        intro bytes hbytes
        cases hbytes
        exact ⟨hzero.symm, rfl, rfl⟩
      next hpos =>
        cases hrecv : conn.recvLoop n conn.reads with
        | none =>
            simp only [IConnection.recv, UnixSocketConnection.recv, hrecv] at hrun
            cases hrun
        | some result' =>
            obtain ⟨⟨received, error⟩, middle⟩ := result'
            obtain ⟨hmiddle, hcode, hlen, htaken⟩ := UnixSocketConnection.recvLoop_taken hrecv
            simp only [IConnection.recv, UnixSocketConnection.recv, hrecv] at hrun
            cases error with
            | some err =>
                cases hrun
                refine ⟨hmiddle, ?_, fun bytes h => (by cases h)⟩
                intro h
                cases h
                exact hcode rfl
            | none =>
                dsimp only at hrun
                split at hrun
                next hnil =>
                  cases hrun
                  exact ⟨hmiddle, by simp, fun bytes h => (by cases h)⟩
                next hsome =>
                  obtain ⟨hbytes, hflag⟩ := htaken rfl hsome
                  have hpositive := List.length_pos_of_ne_nil hsome
                  cases hrest : readExact middle (n - received.length) with
                  | none =>
                      rw [hrest] at hrun
                      cases hrun
                  | some result' =>
                      obtain ⟨result', last⟩ := result'
                      obtain ⟨hlast, hcode', hall⟩ := ih (n - received.length) (by omega) hrest
                      have hboth : last =
                          { conn with connected := last.connected, reads := last.reads } := by
                        rw [hlast, hmiddle]
                      rw [hrest] at hrun
                      cases result' with
                      | error err =>
                          cases hrun
                          exact ⟨hboth, hcode', fun bytes h => (by cases h)⟩
                      | ok behind =>
                          cases hrun
                          refine ⟨hboth, by simp, ?_⟩
                          intro bytes h
                          cases h
                          obtain ⟨hlength, hbehind, hflag'⟩ := hall behind rfl
                          refine ⟨?_, ?_, by rw [hflag', hflag]⟩
                          · rw [List.length_append, hlength]
                            omega
                          · rw [hbytes, hbehind, List.append_assoc]

/-- A `recv_frame` changes nothing but the flag and what is left to read, and it
returns a frame that it has taken. -/
theorem recvFrame_taken {conn next : UnixSocketConnection}
    {result : Except ErrorCode (List UInt8)} (hrun : recvFrame conn = some (result, next)) :
    next = { conn with connected := next.connected, reads := next.reads } ∧
      result ≠ .error (.ibridger .protocolError) ∧
      (∀ payload, result = .ok payload →
        payload.length ≤ MAX_FRAME_SIZE ∧
          bytesOf conn.reads = frameHeader.frame payload ++ bytesOf next.reads ∧
          next.connected = conn.connected) := by
  rw [recvFrame] at hrun
  cases hheader : readExact conn 4 with
  | none =>
      rw [hheader] at hrun
      cases hrun
  | some result' =>
      obtain ⟨result', middle⟩ := result'
      obtain ⟨hmiddle, hcode, htaken⟩ := readExact_taken hheader
      rw [hheader] at hrun
      cases result' with
      | error err =>
          cases hrun
          refine ⟨hmiddle, ?_, fun payload h => (by cases h)⟩
          intro h
          cases h
          exact hcode rfl
      | ok header =>
          obtain ⟨hwidth, hbytes, hflag⟩ := htaken header rfl
          have hdecode := decodeHeader_toNat hwidth
          -- the header is the one that announces the length it decodes to
          have hencode : ∀ payload : List UInt8, payload.length = (decodeHeader header).toNat →
              frameHeader.frame payload = header ++ payload := by
            intro payload hlength
            rw [frameHeader_frame, hlength, hdecode, ← hwidth, BigEndian.toBytes_ofBytes]
          dsimp only at hrun
          split at hrun
          · cases hrun
            exact ⟨hmiddle, by simp, fun payload h => (by cases h)⟩
          next hlimit =>
            split at hrun
            next hzero =>
              cases hrun
              refine ⟨hmiddle, by simp, ?_⟩
              intro payload h
              cases h
              refine ⟨Nat.zero_le _, ?_, hflag⟩
              rw [hencode [] (by rw [hzero]; rfl), hbytes, List.append_nil]
            next hpositive =>
              obtain ⟨hlast, hcode', hall⟩ := readExact_taken hrun
              refine ⟨by rw [hlast, hmiddle], hcode', ?_⟩
              intro payload h
              obtain ⟨hlength, hbody, hflag'⟩ := hall payload h
              refine ⟨by omega, ?_, by rw [hflag', hflag]⟩
              rw [hencode payload hlength, hbytes, hbody, List.append_assoc]

end FramedConnection

namespace EnvelopeCodec

variable {format : EnvelopeFormat} {conn next : UnixSocketConnection}

/-- A `send` of an envelope is the `send_frame` of its serialization, or fails
without one. -/
theorem send_sent {envelope : Envelope} {error : Option ErrorCode}
    (hprogress : Progressing conn.sends) (hrun : send format conn envelope = some (error, next)) :
    (format.serialize envelope = none ∧ next = conn ∧
        error = some (.ibridger .serializationError)) ∨
      ∃ bytes written, format.serialize envelope = some bytes ∧
        FrameSent conn bytes error next written := by
  unfold send at hrun
  cases hserialize : format.serialize envelope with
  | none =>
      rw [hserialize] at hrun
      cases hrun
      exact .inl ⟨rfl, rfl, rfl⟩
  | some bytes =>
      rw [hserialize] at hrun
      obtain ⟨written, hsent⟩ := FramedConnection.sendFrame_sent hprogress hrun
      exact .inr ⟨bytes, written, rfl, hsent⟩

/-- A `send` that fails has not put the whole frame on the wire. -/
theorem send_short {envelope : Envelope} {err : ErrorCode} {bytes : List UInt8}
    (hserialize : format.serialize envelope = some bytes)
    (hrun : send format conn envelope = some (some err, next)) :
    (next.wire.drop conn.wire.length).length < (frameHeader.frame bytes).length := by
  unfold send at hrun
  rw [hserialize] at hrun
  obtain ⟨written, hwire, hshort⟩ := FramedConnection.sendFrame_short hrun
  rwa [hwire, List.drop_left]

theorem recv_taken {result : Except ErrorCode Envelope}
    (hrun : recv format conn = some (result, next)) :
    next = { conn with connected := next.connected, reads := next.reads } ∧
      result ≠ .error (.ibridger .protocolError) ∧
      (∀ envelope, result = .ok envelope →
        ∃ payload, format.parse payload = .ok envelope ∧ payload.length ≤ MAX_FRAME_SIZE ∧
          bytesOf conn.reads = frameHeader.frame payload ++ bytesOf next.reads ∧
          next.connected = conn.connected) := by
  unfold recv at hrun
  cases hframe : FramedConnection.recvFrame conn with
  | none =>
      rw [hframe] at hrun
      cases hrun
  | some result' =>
      obtain ⟨result', last⟩ := result'
      obtain ⟨hlast, hcode, htaken⟩ := FramedConnection.recvFrame_taken hframe
      rw [hframe] at hrun
      cases result' with
      | error err =>
          cases hrun
          refine ⟨hlast, ?_, fun envelope h => (by cases h)⟩
          intro h
          cases h
          exact hcode rfl
      | ok payload =>
          dsimp only at hrun
          cases hparse : format.parse payload with
          | error message =>
              rw [hparse] at hrun
              cases hrun
              exact ⟨hlast, by simp, fun envelope h => (by cases h)⟩
          | ok envelope =>
              rw [hparse] at hrun
              cases hrun
              refine ⟨hlast, by simp, ?_⟩
              intro other h
              cases h
              exact ⟨payload, hparse, htaken payload rfl⟩

/-- A `send` that the kernel accepts puts the frame of the envelope on the wire. -/
theorem send_accepting {envelope : Envelope} {bytes : List UInt8}
    (hserialize : format.serialize envelope = some bytes) (hfits : bytes.length ≤ MAX_FRAME_SIZE)
    (haccept : Accepting conn.sends)
    (henough : (frameHeader.frame bytes).length ≤ acceptances conn.sends) :
    ∃ rest, send format conn envelope = some (none,
        { conn with wire := conn.wire ++ frameHeader.frame bytes, sends := rest }) ∧
      Accepting rest := by
  obtain ⟨rest, hsend, hrest, -⟩ := FramedConnection.sendFrame_accepting hfits haccept henough
  refine ⟨rest, ?_, hrest⟩
  unfold send
  rw [hserialize]
  exact hsend

/-- A `send` that returns while the kernel accepts what it is offered has put the frame of
the envelope on the wire. -/
theorem send_of_accepting {next : UnixSocketConnection} {envelope : Envelope}
    {bytes : List UInt8} {error : Option ErrorCode}
    (hserialize : format.serialize envelope = some bytes) (hfits : bytes.length ≤ MAX_FRAME_SIZE)
    (haccept : Accepting conn.sends) (hrun : send format conn envelope = some (error, next)) :
    ∃ rest, error = none ∧ Accepting rest ∧
      next = { conn with wire := conn.wire ++ frameHeader.frame bytes, sends := rest } := by
  unfold send at hrun
  rw [hserialize] at hrun
  exact FramedConnection.sendFrame_of_accepting hfits haccept hrun

/-- A `send` fails, and changes nothing on the wire, if the first `::send` does. -/
theorem send_refused (hrefused : conn.sends = [.failed .EPIPE]) (envelope : Envelope) :
    ∃ err next, send format conn envelope = some (some err, next) ∧ next.wire = conn.wire := by
  unfold send
  cases format.serialize envelope with
  | none => exact ⟨_, _, rfl, rfl⟩
  | some bytes =>
      dsimp only
      rw [FramedConnection.sendFrame]
      by_cases hfits : bytes.length ≤ MAX_FRAME_SIZE
      · rw [if_neg (Nat.not_lt.mpr hfits),
          encodeHeader_eq (Nat.lt_of_le_of_lt hfits (by decide))]
        have hsend : conn.send (BigEndian.toBytes 4 bytes.length) =
            some ((0, some (.system .EPIPE)), { conn with connected := false, sends := [] }) := by
          rw [UnixSocketConnection.send, hrefused, UnixSocketConnection.sendLoop,
            BigEndian.length_toBytes]
          rfl
        simp only [IConnection.send, hsend]
        exact ⟨_, _, rfl, rfl⟩
      · rw [if_pos (Nat.lt_of_not_le hfits)]
        exact ⟨_, _, rfl, rfl⟩

/-- Once the peer has gone, a `recv` between two frames is a reset. -/
theorem recv_of_end (hend : conn.reads = [.got []]) :
    recv format conn = some (.error .connectionReset, { conn with connected := false, reads := [] }) := by
  have hdelivers : Delivers [.got []] conn.reads [] := by
    rw [hend]
    exact .nil
  unfold recv
  rw [FramedConnection.recvFrame_of_truncated conn hdelivers rfl]

/-- A `recv` returns the envelope in the frame that comes first. -/
theorem recv_of_frame {behind : List ReadOutcome} {bytes payload rest : List UInt8}
    {envelope : Envelope} (hdelivers : Delivers behind conn.reads bytes)
    (hscan : frameHeader.scan bytes = .frame payload rest)
    (hparse : format.parse payload = .ok envelope) :
    ∃ left, recv format conn = some (.ok envelope, { conn with reads := left }) ∧
      Delivers behind left rest := by
  obtain ⟨left, hrecv, hleft⟩ := FramedConnection.recvFrame_of_frame conn hdelivers hscan
  refine ⟨left, ?_, hleft⟩
  unfold recv
  rw [hrecv]
  dsimp only
  rw [hparse]

end EnvelopeCodec

end Ibridger.Cpp
