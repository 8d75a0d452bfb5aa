import Ibridger.Foundation.Spacing
import Ibridger.Wire.Envelope

/-! # Empty frames between responses

Whoever reads one frame for each of its requests takes an empty frame for a
response, and every later response for that to a later request.
-/

namespace Ibridger.Wire

open Spacing

/-- The frames up to number `r` carry responses with the ids of the requests, of
which the last is neither zero nor that of an earlier one. -/
structure Mirrored (format : EnvelopeFormat) (requests : List Envelope)
    (frames : List (List UInt8)) (r : Nat) : Prop where
  mirrors : ∀ k ≤ r, ∃ request payload response, requests[k]? = some request ∧
    frames[k]? = some payload ∧ format.parse payload = .ok response ∧
    response.requestId = request.requestId
  distinct : ∀ k < r, ∀ earlier request, requests[k]? = some earlier →
    requests[r]? = some request → earlier.requestId ≠ request.requestId
  nonzero : ∀ request, requests[r]? = some request → request.requestId ≠ 0

variable {format : EnvelopeFormat} {requests : List Envelope} {frames : List (List UInt8)}
  {r : Nat}

/-- The response to a request carries its id. -/
theorem Mirrored.own (hmirrored : Mirrored format requests frames r) {request : Envelope}
    {payload : List UInt8} (hrequest : requests[r]? = some request)
    (hframe : frames[r]? = some payload) :
    ∃ response, format.parse payload = .ok response ∧
      response.requestId = request.requestId := by
  obtain ⟨same, bytes, response, hsame, hbytes, hparse, hid⟩ := hmirrored.mirrors r (Nat.le_refl r)
  rw [hrequest] at hsame
  rw [hframe] at hbytes
  cases hsame
  cases hbytes
  exact ⟨response, hparse, hid⟩

/-- Behind an empty frame, what is read for a request has no id or that of an
earlier request. -/
theorem Mirrored.shifted {spaced : List (Option (List UInt8))} {payload : List UInt8}
    (hmirrored : Mirrored format requests (plain spaced) r)
    (hempty : format.parse [] = .ok .empty) (hnone : none ∈ spaced.take (r + 1))
    (hframe : (filled [] spaced)[r]? = some payload) :
    ∃ response, format.parse payload = .ok response ∧
      (response.requestId = 0 ∨ ∃ k < r, ∃ earlier, requests[k]? = some earlier ∧
        response.requestId = earlier.requestId) := by
  rcases getElem?_filled_of_mem hnone hframe with rfl | ⟨k, hk, hplain⟩
  · exact ⟨.empty, hempty, .inl rfl⟩
  · obtain ⟨earlier, bytes, response, hearlier, hbytes, hparse, hid⟩ :=
      hmirrored.mirrors k (Nat.le_of_lt hk)
    rw [hplain] at hbytes
    cases hbytes
    exact ⟨response, hparse, .inr ⟨k, hk, earlier, hearlier, hid⟩⟩

/-- It is not the id of the request. -/
theorem Mirrored.requestId_ne (hmirrored : Mirrored format requests frames r)
    {request response : Envelope} (hrequest : requests[r]? = some request)
    (hid : response.requestId = 0 ∨ ∃ k < r, ∃ earlier, requests[k]? = some earlier ∧
      response.requestId = earlier.requestId) :
    response.requestId ≠ request.requestId := by
  rcases hid with hzero | ⟨k, hk, earlier, hearlier, hid⟩
  · rw [hzero]
    exact (hmirrored.nonzero request hrequest).symm
  · rw [hid]
    exact hmirrored.distinct k hk earlier request hearlier hrequest

end Ibridger.Wire
