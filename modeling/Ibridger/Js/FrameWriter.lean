import Ibridger.Js.Framing

/-! # One writer on a JS framed connection

Code that awaits each `sendFrame` before it calls the next has at most one frame
half written. `Writing` says what such a call has put out, on a connection on
which no write fails.
-/

namespace Ibridger.Js

open LengthPrefix Wire

/-- No `send` on the connection has failed. -/
def Accepted (conn : UnixSocketConnection) : Prop :=
  ∀ error, .rejected error ∉ conn.sends

theorem send_connected {conn : UnixSocketConnection} (hconnected : conn.connected = true)
    (data : List UInt8) :
    conn.send data = (conn.sends.length,
      { conn with sends := conn.sends ++ [.pending], output := conn.output ++ data }) := by
  rw [UnixSocketConnection.send, if_pos hconnected]

namespace Accepted

variable {conn : UnixSocketConnection}

theorem sendOutcome (haccepted : Accepted conn) {send : Nat} (hsend : send < conn.sends.length) :
    conn.sends[send]? = some .pending ∨ conn.sendOutcome send = .resolved () := by
  have hmem := List.getElem_mem hsend
  rw [UnixSocketConnection.sendOutcome, List.getElem?_eq_getElem hsend]
  cases hpromise : conn.sends[send] with
  | pending => exact .inl rfl
  | resolved value => exact .inr rfl
  | rejected error =>
      rw [hpromise] at hmem
      exact absurd hmem (haccepted error)

theorem send (haccepted : Accepted conn) (hconnected : conn.connected = true)
    (data : List UInt8) : Accepted (conn.send data).2 := by
  intro error hmem
  rw [send_connected hconnected] at hmem
  rcases List.mem_append.mp hmem with hold | hnew
  · exact haccepted error hold
  · cases List.mem_singleton.mp hnew

theorem onWritten (haccepted : Accepted conn) {send : Nat}
    (hpending : conn.sends[send]? = some .pending) : Accepted (conn.onWritten send none) := by
  intro error hmem
  obtain ⟨i, hi⟩ := List.mem_iff_getElem?.mp hmem
  simp only [UnixSocketConnection.onWritten] at hi
  by_cases hsame : send = i
  · subst hsame
    rw [List.getElem?_modify_eq, hpending] at hi
    cases hi
  · rw [List.getElem?_modify_ne _ _ hsame] at hi
    exact haccepted error (List.mem_of_getElem? hi)

end Accepted

/-- The `sendFrame` of `payload` has written its header, or all of its frame,
behind the bytes `before`. -/
inductive Writing (conn : UnixSocketConnection) (before payload : List UInt8) :
    FrameSend → Prop where
  | header (send : Nat) (hsend : send < conn.sends.length)
      (houtput : conn.output = before ++ BigEndian.toBytes 4 payload.length) :
      Writing conn before payload (.header send payload)
  | body (send : Nat) (hsend : send < conn.sends.length)
      (houtput : conn.output = before ++ frameHeader.frame payload) :
      Writing conn before payload (.body send)

theorem sendFrame_writing {conn : UnixSocketConnection} (hconnected : conn.connected = true)
    {payload : List UInt8} (hfits : payload.length ≤ MAX_FRAME_SIZE) :
    Writing (sendFrame conn payload).2 conn.output payload (sendFrame conn payload).1 ∧
      (sendFrame conn payload).2 = (conn.send (writeUInt32BE payload.length)).2 := by
  rw [sendFrame, if_neg (Nat.not_lt.mpr hfits), send_connected hconnected]
  exact ⟨.header _ (by simp) rfl, rfl⟩

namespace Writing

variable {conn next : UnixSocketConnection} {before payload : List UInt8} {send send' : FrameSend}

/-- Only what is sent matters. -/
theorem congr (hwriting : Writing conn before payload send)
    (hsends : next.sends.length = conn.sends.length) (houtput : next.output = conn.output) :
    Writing next before payload send := by
  cases hwriting with
  | header send hsend hout => exact .header send (by rwa [hsends]) (by rw [houtput, hout])
  | body send hsend hout => exact .body send (by rwa [hsends]) (by rw [houtput, hout])

/-- A `sendFrame` that goes on writes its body or has written its frame. -/
theorem resume (hwriting : Writing conn before payload send) (haccepted : Accepted conn)
    (hconnected : conn.connected = true) (hresume : send.resume conn = some (send', next)) :
    (Writing next before payload send' ∧ next = (conn.send payload).2) ∨
      (send' = .settled (.ok ()) ∧ next = conn ∧
        conn.output = before ++ frameHeader.frame payload) := by
  cases hwriting with
  | header ticket hsend houtput =>
      rcases haccepted.sendOutcome hsend with hpending | hresolved
      · simp only [FrameSend.resume, UnixSocketConnection.sendOutcome, hpending,
          Option.getD_some] at hresume
        cases hresume
      · simp only [FrameSend.resume, hresolved] at hresume
        split at hresume
        · cases hresume
          rw [send_connected hconnected]
          refine .inl ⟨.body _ (by simp) ?_, rfl⟩
          rw [frameHeader_frame, ← List.append_assoc, ← houtput]
        next hempty =>
          cases hresume
          have hnil : payload = [] := List.length_eq_zero_iff.mp (by omega)
          refine .inr ⟨rfl, rfl, ?_⟩
          rw [houtput, frameHeader_frame, hnil, List.append_nil]
  | body ticket hsend houtput =>
      rcases haccepted.sendOutcome hsend with hpending | hresolved
      · simp only [FrameSend.resume, UnixSocketConnection.sendOutcome, hpending,
          Option.getD_some] at hresume
        cases hresume
      · simp only [FrameSend.resume, hresolved] at hresume
        cases hresume
        exact .inr ⟨rfl, rfl, houtput⟩

/-- A `sendFrame` that cannot go on has a write to complete. -/
theorem of_resume_eq_none (hwriting : Writing conn before payload send)
    (haccepted : Accepted conn) (hnone : send.resume conn = none) :
    ∃ ticket : Nat, conn.sends[ticket]? = some .pending := by
  cases hwriting with
  | header ticket hsend houtput =>
      rcases haccepted.sendOutcome hsend with hpending | hresolved
      · exact ⟨ticket, hpending⟩
      · simp only [FrameSend.resume, hresolved] at hnone
        split at hnone <;> cases hnone
  | body ticket hsend houtput =>
      rcases haccepted.sendOutcome hsend with hpending | hresolved
      · exact ⟨ticket, hpending⟩
      · simp only [FrameSend.resume, hresolved] at hnone
        cases hnone

end Writing

/-- How many steps a `sendFrame` may still take, the writes it has yet to make
counted with their completion. -/
def FrameSend.turns : FrameSend → Nat
  | .header _ _ => 3
  | .body _ => 1
  | .settled _ => 0

/-- How many writes have yet to complete. -/
def pendings (conn : UnixSocketConnection) : Nat :=
  conn.sends.countP (· = .pending)

theorem pendings_send (conn : UnixSocketConnection) (data : List UInt8) :
    pendings (conn.send data).2 ≤ pendings conn + 1 := by
  unfold UnixSocketConnection.send pendings
  split <;> simp

theorem pendings_onWritten {conn : UnixSocketConnection} {send : Nat}
    (hpending : conn.sends[send]? = some .pending) :
    pendings (conn.onWritten send none) < pendings conn := by
  obtain ⟨hsend, hpromise⟩ := List.getElem?_eq_some_iff.mp hpending
  have hsplit : conn.sends = conn.sends.take send ++ .pending :: conn.sends.drop (send + 1) := by
    rw [← hpromise, List.getElem_cons_drop, List.take_append_drop]
  have hmodify : (conn.onWritten send none).sends =
      conn.sends.take send ++ .resolved () :: conn.sends.drop (send + 1) := by
    rw [UnixSocketConnection.onWritten, List.modify_eq_take_cons_drop hsend, hpromise]
    rfl
  rw [pendings, hmodify, pendings]
  conv_rhs => rw [hsplit]
  simp

/-- A turn of a `sendFrame`, with the write it may start, is a step forward. -/
theorem FrameSend.turns_of_resume {conn next : UnixSocketConnection} {send send' : FrameSend}
    (hresume : send.resume conn = some (send', next)) :
    send'.turns + pendings next < send.turns + pendings conn := by
  cases FrameSend.resume_cases hresume with
  | writes ticket data hdata hresolved =>
      have hpendings := pendings_send conn data
      simp only [turns]
      omega
  | finishes ticket _ hsend _ => rcases hsend with rfl | rfl <;> simp [turns]
  | fails ticket _ error hsend _ => rcases hsend with ⟨data, rfl⟩ | rfl <;> simp [turns]

theorem FrameSend.turns_lt_of_resume {conn next : UnixSocketConnection} {send send' : FrameSend}
    (hresume : send.resume conn = some (send', next)) : send'.turns < send.turns := by
  cases FrameSend.resume_cases hresume with
  | writes ticket data hdata hresolved => simp [turns]
  | finishes ticket _ hsend _ => rcases hsend with rfl | rfl <;> simp [turns]
  | fails ticket _ error hsend _ => rcases hsend with ⟨data, rfl⟩ | rfl <;> simp [turns]

theorem sendFrame_turns_le (conn : UnixSocketConnection) (data : List UInt8) :
    (sendFrame conn data).1.turns ≤ 3 := by
  unfold sendFrame
  split
  · exact Nat.zero_le _
  · exact Nat.le_refl _

end Ibridger.Js
