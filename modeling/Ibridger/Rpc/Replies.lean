import Ibridger.Foundation.Spacing
import Ibridger.Rpc.ResultSize
import Mathlib.Data.List.TakeWhile

/-! # Servers whose handlers are functions

Where a handler always ends in the same way on the same payload, the response
to a request is a function of the request, and what a session sends is a
function of the frames that it receives.
-/

namespace Ibridger.Rpc

open Spacing Wire

variable (format : EnvelopeFormat)

variable (reply : Envelope → Envelope)

/-- The responses to the requests, up to the first that cannot be sent. -/
def repliesTo (requests : List Envelope) : List Envelope :=
  (requests.map reply).takeWhile fun response => Sendable format response

/-- The frame is a request, and the response to it can be sent. -/
def GoesOn (frame : List UInt8) : Prop :=
  ∃ request, format.parse frame = .ok request ∧ Sendable format (reply request)

variable {Handler : Type} in
/-- Every request has had its response. -/
def Log.Replied (log : Log Handler) : Prop :=
  ∀ exchange ∈ log.exchanges, exchange.response = reply exchange.request

/-- The responses have gone out up to one that cannot be sent. -/
def StopsShort (received output : List UInt8) : Prop :=
  ∃ requests request more, format.envelopes received = requests ++ request :: more ∧
    (∀ earlier ∈ requests, Sendable format (reply earlier)) ∧
    ¬ Sendable format (reply request) ∧ format.Emitted output (requests.map reply)

/-- Empty frames that a server does not notice: none comes before it stops to
read, or the first one makes it stop where it would have stopped anyway. -/
def Unnoticed : List (Option (List UInt8)) → Prop
  | [] => True
  | some frame :: rest => GoesOn format reply frame → Unnoticed rest
  | none :: rest =>
      ¬ GoesOn format reply [] ∧ ∀ frame ∈ (plain rest).head?, ¬ GoesOn format reply frame

variable {format reply}

theorem repliesTo_of_sendable {requests : List Envelope}
    (hsendable : ∀ request ∈ requests, Sendable format (reply request)) :
    repliesTo format reply requests = requests.map reply := by
  rw [repliesTo, List.takeWhile_eq_self_iff]
  intro response hresponse
  obtain ⟨request, hrequest, rfl⟩ := List.mem_map.mp hresponse
  exact decide_eq_true (hsendable request hrequest)

/-- Nothing is sent from a response that cannot be sent on. -/
theorem repliesTo_of_refused {requests : List Envelope} {request : Envelope}
    (hsendable : ∀ request ∈ requests, Sendable format (reply request))
    (hrefused : ¬ Sendable format (reply request)) (more : List Envelope) :
    repliesTo format reply (requests ++ request :: more) = requests.map reply := by
  have hall : ∀ response ∈ requests.map reply, decide (Sendable format response) = true := by
    intro response hresponse
    obtain ⟨request, hrequest, rfl⟩ := List.mem_map.mp hresponse
    exact decide_eq_true (hsendable request hrequest)
  rw [repliesTo, List.map_append, List.map_cons, List.takeWhile_append_of_pos hall,
    List.takeWhile_cons_of_neg (by simpa using hrefused), List.append_nil]

/-- What comes behind a refused response is not looked at. -/
theorem StopsShort.emitted {received output : List UInt8}
    (hshort : StopsShort format reply received output) (more : List UInt8) :
    format.Emitted output (repliesTo format reply (format.envelopes (received ++ more))) := by
  obtain ⟨requests, request, behind, henvelopes, hsendable, hlarge, houtput⟩ := hshort
  obtain ⟨rest, hrest⟩ := @EnvelopeFormat.envelopes_prefix format received more
  rw [← hrest, henvelopes, List.append_assoc, List.cons_append, repliesTo_of_refused hsendable hlarge]
  exact houtput

section Log

variable {Handler : Type} {log : Log Handler}

theorem Log.replied_empty : (Log.empty : Log Handler).Replied reply :=
  fun _ hmem => absurd hmem List.not_mem_nil

theorem Log.Replied.answer (hreplied : log.Replied reply) {exchange : Exchange}
    (hresponse : exchange.response = reply exchange.request) :
    (log.answer exchange).Replied reply := by
  intro other hother
  rcases List.mem_append.mp hother with hold | hnew
  · exact hreplied other hold
  · rw [List.mem_singleton.mp hnew]
    exact hresponse

theorem Log.Replied.responses_eq (hreplied : log.Replied reply) :
    log.responses = (log.exchanges.map Exchange.request).map reply := by
  rw [Log.responses, List.map_map]
  exact List.map_congr_left hreplied

theorem Log.Replied.sendable (hreplied : log.Replied reply) (hfits : log.Fits format) :
    ∀ request ∈ log.exchanges.map Exchange.request, Sendable format (reply request) := by
  intro request hrequest
  apply hfits
  rw [hreplied.responses_eq]
  exact List.mem_map_of_mem hrequest

/-- A session in which every request has its response has sent them all. -/
theorem Served.emitted {received output : List UInt8} (hserved : Served format received output log)
    (hreplied : log.Replied reply) (hfits : log.Fits format) :
    format.Emitted output (repliesTo format reply (format.envelopes received)) := by
  rw [← hserved.requests_eq, repliesTo_of_sendable (hreplied.sendable hfits), ← hreplied.responses_eq]
  exact hserved.output_eq

end Log

theorem repliesTo_cons_of_goesOn {frame : List UInt8} (hgoes : GoesOn format reply frame) :
    ∃ response, ∀ rest, repliesTo format reply (format.readable (frame :: rest)) =
      response :: repliesTo format reply (format.readable rest) := by
  obtain ⟨request, hparse, hsendable⟩ := hgoes
  refine ⟨reply request, ?_⟩
  intro rest
  rw [EnvelopeFormat.readable, hparse]
  exact List.takeWhile_cons_of_pos (decide_eq_true hsendable)

theorem repliesTo_cons_of_not_goesOn {frame : List UInt8} {rest : List (List UInt8)}
    (hstops : ¬ GoesOn format reply frame) :
    repliesTo format reply (format.readable (frame :: rest)) = [] := by
  rw [EnvelopeFormat.readable]
  cases hparse : format.parse frame with
  | error message => rfl
  | ok request =>
      dsimp only
      rw [repliesTo, List.map_cons, List.takeWhile_cons_of_neg]
      intro hsendable
      exact hstops ⟨request, hparse, of_decide_eq_true hsendable⟩

theorem repliesTo_eq_nil_iff {frames : List (List UInt8)} :
    repliesTo format reply (format.readable frames) = [] ↔
      ∀ frame ∈ frames.head?, ¬ GoesOn format reply frame := by
  cases frames with
  | nil => exact ⟨fun _ _ hmem => (by cases hmem), fun _ => rfl⟩
  | cons frame rest =>
      rw [List.head?_cons]
      constructor
      · rintro hnothing _ ⟨⟩ hgoes
        obtain ⟨response, hsent⟩ := repliesTo_cons_of_goesOn hgoes
        rw [hsent] at hnothing
        cases hnothing
      · exact fun hstops => repliesTo_cons_of_not_goesOn (hstops frame rfl)

/-- Fillers that are answered only add responses. -/
theorem length_repliesTo_le (hgoes : GoesOn format reply []) (spaced : List (Option (List UInt8))) :
    (repliesTo format reply (format.readable (plain spaced))).length ≤
      (repliesTo format reply (format.readable (filled [] spaced))).length := by
  induction spaced with
  | nil => exact Nat.le_refl _
  | cons slot spaced ih =>
      cases slot with
      | none =>
          obtain ⟨response, hsent⟩ := repliesTo_cons_of_goesOn hgoes
          rw [plain_cons_none, filled_cons_none, hsent]
          exact Nat.le_succ_of_le ih
      | some frame =>
          rw [plain_cons_some, filled_cons_some]
          by_cases hframe : GoesOn format reply frame
          · obtain ⟨response, hsent⟩ := repliesTo_cons_of_goesOn hframe
            rw [hsent, hsent]
            exact Nat.succ_le_succ ih
          · rw [repliesTo_cons_of_not_goesOn hframe]
            exact Nat.zero_le _

/-- The responses are the same with and without the empty frames exactly where
these go unnoticed. -/
theorem repliesTo_filled_eq_iff (spaced : List (Option (List UInt8))) :
    repliesTo format reply (format.readable (plain spaced)) =
        repliesTo format reply (format.readable (filled [] spaced)) ↔
      Unnoticed format reply spaced := by
  induction spaced with
  | nil => exact ⟨fun _ => trivial, fun _ => rfl⟩
  | cons slot spaced ih =>
      cases slot with
      | some frame =>
          rw [plain_cons_some, filled_cons_some, Unnoticed, ← ih]
          by_cases hframe : GoesOn format reply frame
          · obtain ⟨response, hsent⟩ := repliesTo_cons_of_goesOn hframe
            rw [hsent, hsent, List.cons_inj_right]
            exact ⟨fun hsame _ => hsame, fun hsame => hsame hframe⟩
          · rw [repliesTo_cons_of_not_goesOn hframe, repliesTo_cons_of_not_goesOn hframe]
            exact ⟨fun _ hgoes => absurd hgoes hframe, fun _ => rfl⟩
      | none =>
          rw [plain_cons_none, filled_cons_none, Unnoticed, ← repliesTo_eq_nil_iff]
          by_cases hgoes : GoesOn format reply []
          · -- one more response goes out than without the empty frame
            obtain ⟨response, hsent⟩ := repliesTo_cons_of_goesOn hgoes
            refine ⟨fun hsame => ?_, fun hnone => absurd hgoes hnone.1⟩
            have hlength := congrArg List.length hsame
            rw [hsent, List.length_cons] at hlength
            have hle := length_repliesTo_le hgoes spaced
            omega
          · rw [repliesTo_cons_of_not_goesOn hgoes]
            exact ⟨fun hnothing => ⟨hgoes, hnothing⟩, fun hnothing => hnothing.2⟩

end Ibridger.Rpc
