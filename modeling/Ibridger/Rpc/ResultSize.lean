import Ibridger.Rpc.Session
import Mathlib.Data.List.Forall2

/-! # Answers of any size

What a server owes its peer when a response may not fit into a frame: an answer
to every request, if not the response itself then an error, and a connection
that goes on.
-/

namespace Ibridger.Rpc

open Wire

universe uHandler

variable {Handler : Type uHandler} (format : EnvelopeFormat)

/-- The answer is the response, or an error where that cannot be sent. -/
structure AnsweredBy (exchange : Exchange) (answer : Envelope) : Prop where
  requestId_eq : answer.requestId = exchange.request.requestId
  sendable : Sendable format exchange.response → answer = exchange.response
  refused : ¬ Sendable format exchange.response → answer.type = .error

/-- The output is one answer for each of the exchanges. -/
def Answered (output : List UInt8) (exchanges : List Exchange) : Prop :=
  ∃ answers, format.Emitted output answers ∧ List.Forall₂ (AnsweredBy format) exchanges answers

/-- The answers go out in order; the session ends only at input that it cannot
read; and when it is at rest, every request has its answer. -/
structure AnswersAll (received output : List UInt8) (log : Log Handler) (ended rest : Prop) :
    Prop where
  answered : ∃ exchanges more, exchanges <+: log.exchanges ∧
    Answered format (output ++ more) exchanges
  goes_on : ended → Answered format output log.exchanges ∧ format.Breaks received
  complete : rest → Answered format output log.exchanges ∧
    log.exchanges.map Exchange.request = format.envelopes received

variable {format} {table : ServiceTable Handler} {log : Log Handler}

theorem answered_of_emitted {exchanges : List Exchange} {output : List UInt8}
    (hanswers : ∀ exchange ∈ exchanges, Answers table exchange)
    (hsendable : ∀ exchange ∈ exchanges, Sendable format exchange.response)
    (hemitted : format.Emitted output (exchanges.map Exchange.response)) :
    Answered format output exchanges := by
  refine ⟨_, hemitted, ?_⟩
  rw [List.forall₂_map_right_iff, List.forall₂_same]
  intro exchange hmem
  exact ⟨(hanswers exchange hmem).requestId_eq, fun _ => rfl,
    fun hnot => absurd (hsendable exchange hmem) hnot⟩

/-- What answers some exchanges does not answer more. -/
theorem not_answered {exchanges : List Exchange} {output : List UInt8} {answers : List Envelope}
    (hemitted : format.Emitted output answers) (hlength : answers.length < exchanges.length) :
    ¬ Answered format output exchanges := by
  rintro ⟨others, hothers, hanswered⟩
  have hsame : others = answers := hothers.envelopes_eq.symm.trans hemitted.envelopes_eq
  have hcount := hanswered.length_eq
  rw [hsame] at hcount
  exact Nat.ne_of_lt hlength hcount.symm

theorem Log.Sound.answered (hsound : log.Sound table) (hfits : log.Fits format)
    {output : List UInt8} (hemitted : format.Emitted output log.responses) :
    Answered format output log.exchanges :=
  answered_of_emitted hsound.answers
    (fun _ hmem => hfits _ (List.mem_map_of_mem hmem)) hemitted

end Ibridger.Rpc
