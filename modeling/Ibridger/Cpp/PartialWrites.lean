import Ibridger.Cpp.FrameTransfer
import Ibridger.Cpp.NamedPipe

/-! # Partial writes

`IConnection::send` may accept fewer bytes than it is given without an error.
`send_frame` does not look at the count, so a frame whose write is cut short that way
is reported as sent.
-/

namespace Ibridger.Cpp

open LengthPrefix Wire

/-- A connection whose `send` accepts a beginning of the data, and says how much. -/
class LawfulConnection (Conn : Type) extends IConnection Conn where
  accepted : Conn → List UInt8
  send_le : ∀ {conn next : Conn} {data : List UInt8} {sent : Nat} {error : Option ErrorCode},
    send conn data = some ((sent, error), next) → sent ≤ data.length
  send_accepted : ∀ {conn next : Conn} {data : List UInt8} {sent : Nat} {error : Option ErrorCode},
    send conn data = some ((sent, error), next) → accepted next = accepted conn ++ data.take sent

instance : LawfulConnection UnixSocketConnection where
  accepted := UnixSocketConnection.wire
  send_le := fun h => (UnixSocketConnection.send_sent h).sent_le
  send_accepted := fun h => (UnixSocketConnection.send_sent h).wire_eq

namespace NamedPipeConnection

instance : IConnection NamedPipeConnection where
  send := send
  recv := recv
  close := close
  isConnected := connected

theorem sendLoop_sent {conn next : NamedPipeConnection} {data : List UInt8} {total sent : Nat}
    {error : Option ErrorCode} {outcomes : List SendOutcome} (htotal : total ≤ data.length)
    (hrun : conn.sendLoop data total outcomes = some ((sent, error), next)) :
    total ≤ sent ∧ sent ≤ data.length ∧
      next.wire = conn.wire ++ (data.drop total).take (sent - total) := by
  induction outcomes generalizing conn total with
  | nil =>
      simp only [sendLoop] at hrun
      split at hrun
      · cases hrun
      · cases hrun
        simp [htotal]
  | cons outcome rest ih =>
      simp only [sendLoop] at hrun
      split at hrun
      next hmore =>
        cases outcome with
        | failed code =>
            cases hrun
            simp [htotal]
        | accepted count =>
            have hcut : (data.length - total) % 2 ^ 32 ≤ data.length - total := Nat.mod_le _ _
            obtain ⟨hle, hsent, hwire⟩ := ih (by omega) hrun
            refine ⟨by omega, hsent, ?_⟩
            rw [hwire, List.append_assoc, ← List.drop_drop]
            congr 1
            rw [← List.take_add]
            congr 1
            omega
      next hend =>
        cases hrun
        simp [htotal]

/-- The loop returns without an error when it has sent everything. -/
theorem sendLoop_whole {conn next : NamedPipeConnection} {data : List UInt8} {total sent : Nat}
    {outcomes : List SendOutcome} (htotal : total ≤ data.length)
    (hrun : conn.sendLoop data total outcomes = some ((sent, none), next)) :
    sent = data.length := by
  induction outcomes generalizing conn total with
  | nil =>
      simp only [sendLoop] at hrun
      split at hrun
      · cases hrun
      · cases hrun
        omega
  | cons outcome rest ih =>
      simp only [sendLoop] at hrun
      split at hrun
      next hmore =>
        cases outcome with
        | failed code => cases hrun
        | accepted count =>
            have hcut : (data.length - total) % 2 ^ 32 ≤ data.length - total := Nat.mod_le _ _
            exact ih (by omega) hrun
      next hend =>
        cases hrun
        omega

theorem send_sent {conn next : NamedPipeConnection} {data : List UInt8} {sent : Nat}
    {error : Option ErrorCode} (hrun : conn.send data = some ((sent, error), next)) :
    sent ≤ data.length ∧ next.wire = conn.wire ++ data.take sent := by
  unfold send at hrun
  split at hrun
  · cases hrun
    simp
  · obtain ⟨-, hsent, hwire⟩ := sendLoop_sent (Nat.zero_le _) hrun
    exact ⟨hsent, by simpa using hwire⟩

instance : LawfulConnection NamedPipeConnection where
  accepted := wire
  send_le := fun h => (send_sent h).1
  send_accepted := fun h => (send_sent h).2

end NamedPipeConnection

namespace FramedConnection

/-! ## One call -/

section SendFrame

variable {Conn : Type} [LawfulConnection Conn] {conn next : Conn} {data : List UInt8}

/-- What is accepted of the header and of the payload. -/
theorem accepted_of_sends {n m : Nat} {between : Conn}
    (hheader : IConnection.send conn (encodeHeader data.length) = some ((n, none), between))
    (hbody : IConnection.send between data = some ((m, none), next)) :
    LawfulConnection.accepted next =
      LawfulConnection.accepted conn ++ (encodeHeader data.length).take n ++ data.take m := by
  rw [LawfulConnection.send_accepted hbody, LawfulConnection.send_accepted hheader]

end SendFrame

/-- No `send` of the frame returns an error, but one of them accepts less than it is given. -/
def SilentlyShort {Conn : Type} [IConnection Conn] (conn : Conn) (data : List UInt8) : Prop :=
  data.length ≤ MAX_FRAME_SIZE ∧
    ∃ n between, IConnection.send conn (encodeHeader data.length) = some ((n, none), between) ∧
      (data = [] ∧ n < 4 ∨
        data ≠ [] ∧ ∃ m next, IConnection.send between data = some ((m, none), next) ∧
          (n < 4 ∨ m < data.length))

/-- A `send_frame` succeeds only if the connection has accepted the whole frame. -/
def Complete {Conn : Type} [LawfulConnection Conn] (conn : Conn) (data : List UInt8) : Prop :=
  ∀ next, sendFrame conn data = some (none, next) →
    LawfulConnection.accepted next = LawfulConnection.accepted conn ++ frameHeader.frame data

/-- A frame that is accepted whole is accepted in both parts. -/
theorem take_append_take_eq {first second : List UInt8} {n m : Nat}
    (heq : first.take n ++ second.take m = first ++ second) :
    first.length ≤ n ∧ second.length ≤ m := by
  have hlength := congrArg List.length heq
  simp only [List.length_append, List.length_take] at hlength
  omega

/-- A reported success is a whole frame exactly where no write is short without an error. -/
theorem sendFrame_complete_iff {Conn : Type} [LawfulConnection Conn] (conn : Conn)
    (data : List UInt8) : Complete conn data ↔ ¬ SilentlyShort conn data := by
  constructor
  · rintro hcomplete ⟨hfits, n, between, hheader, hshort⟩
    have hn := LawfulConnection.send_le hheader
    rw [encodeHeader_length] at hn
    rcases hshort with ⟨hempty, hshort⟩ | ⟨hdata, m, next, hbody, hshort⟩
    · have hrun := sendFrame_eq_some.mpr (.empty n between hfits hempty hheader)
      have hwhole := hcomplete between hrun
      rw [LawfulConnection.send_accepted hheader, frame_eq hfits, hempty, List.append_nil,
        List.append_right_inj] at hwhole
      have hlength := congrArg List.length hwhole
      rw [List.length_take, encodeHeader_length] at hlength
      omega
    · have hrun := sendFrame_eq_some.mpr (.body n m between none next hfits hdata hheader hbody)
      have hwhole := hcomplete next hrun
      rw [accepted_of_sends hheader hbody, frame_eq hfits, List.append_assoc,
        List.append_right_inj] at hwhole
      obtain ⟨hheaderLe, hbodyLe⟩ := take_append_take_eq hwhole
      rw [encodeHeader_length] at hheaderLe
      omega
  · intro hnot next hrun
    cases sendFrame_eq_some.mp hrun with
    | empty n _ hfits hempty hheader =>
        have hfull : 4 ≤ n := by
          by_contra hshort
          exact hnot ⟨hfits, n, next, hheader, .inl ⟨hempty, by omega⟩⟩
        have hall : (encodeHeader data.length).take n = encodeHeader data.length :=
          List.take_of_length_le hfull
        rw [LawfulConnection.send_accepted hheader, hall, frame_eq hfits, hempty, List.append_nil]
    | body n m between _ _ hfits hdata hheader hbody =>
        have hfull : 4 ≤ n ∧ data.length ≤ m := by
          by_contra hshort
          exact hnot ⟨hfits, n, between, hheader, .inr ⟨hdata, m, next, hbody, by omega⟩⟩
        have hall : (encodeHeader data.length).take n = encodeHeader data.length :=
          List.take_of_length_le hfull.1
        rw [accepted_of_sends hheader hbody, hall, List.take_of_length_le hfull.2, frame_eq hfits,
          List.append_assoc]

/-- A connection that accepts three bytes a call. -/
structure NarrowConnection where
  wire : List UInt8
deriving DecidableEq

instance : LawfulConnection NarrowConnection where
  send conn data := some ((min 3 data.length, none), ⟨conn.wire ++ data.take 3⟩)
  recv conn _ := some (([], none), conn)
  close := id
  isConnected _ := true
  accepted := NarrowConnection.wire
  send_le := by
    intro conn next data sent error hrun
    cases hrun
    exact Nat.min_le_right _ _
  send_accepted := by
    intro conn next data sent error hrun
    cases hrun
    rw [List.take_eq_take_min]

/-- A frame with gaps in the header and in the payload, and a header without its payload,
are reported as sent. -/
theorem short_frame_succeeds :
    sendFrame (NarrowConnection.mk []) [7, 8, 9, 10, 11] = some (none, ⟨[0, 0, 0, 7, 8, 9]⟩) ∧
      (∃ next, sendFrame
        { UnixSocketConnection.ofFd 3 1 with sends := [.accepted 4, .accepted 0] } [7] =
          some (none, next) ∧ next.wire = [0, 0, 0, 1]) ∧
      ¬ Complete (NarrowConnection.mk []) [7, 8, 9, 10, 11] := by
  refine ⟨rfl, ⟨_, rfl, rfl⟩, ?_⟩
  intro hcomplete
  cases hcomplete _ rfl

/-! ## The connections of the SDK -/

/-- On a Unix socket only a `::send` that accepts nothing cuts a write short. -/
theorem not_silentlyShort_of_progressing {conn : UnixSocketConnection}
    (hprogress : Progressing conn.sends) (data : List UInt8) : ¬ SilentlyShort conn data := by
  rintro ⟨-, n, between, hheader, hshort⟩
  obtain ⟨hbetween, hall, -⟩ :=
    UnixSocketConnection.sendLoop_progressing hprogress (Nat.zero_le _) hheader
  have hn := hall rfl
  rw [encodeHeader_length] at hn
  rcases hshort with ⟨-, hshort⟩ | ⟨-, m, next, hbody, hshort⟩
  · omega
  · obtain ⟨-, hall', -⟩ :=
      UnixSocketConnection.sendLoop_progressing hbetween (Nat.zero_le _) hbody
    have hm := hall' rfl
    omega

/-- A named pipe never cuts a write short without an error. -/
theorem not_silentlyShort_namedPipe (conn : NamedPipeConnection) (data : List UInt8) :
    ¬ SilentlyShort conn data := by
  have hwhole : ∀ {conn next : NamedPipeConnection} {data : List UInt8} {sent : Nat},
      conn.send data = some ((sent, none), next) → sent = data.length := by
    intro conn next data sent hrun
    unfold NamedPipeConnection.send at hrun
    split at hrun
    · cases hrun
    · exact NamedPipeConnection.sendLoop_whole (Nat.zero_le _) hrun
  rintro ⟨-, n, between, hheader, hshort⟩
  have hn := hwhole hheader
  rw [encodeHeader_length] at hn
  rcases hshort with ⟨-, hshort⟩ | ⟨-, m, next, hbody, hshort⟩
  · omega
  · have hm := hwhole hbody
    omega

end FramedConnection

end Ibridger.Cpp
