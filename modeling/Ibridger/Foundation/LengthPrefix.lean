import Mathlib.Data.List.Basic

/-! # Length-prefixed streams

A stream is a sequence of frames, each a fixed-width header that announces the
length of the payload behind it. The header code is a parameter: any encoding
of lengths up to a limit that is inverted by its decoding in both directions.

`parse` reads the longest sequence of frames a byte string starts with and says
why it stopped. It is the specification against which readers are compared.
-/

namespace LengthPrefix

universe u

/-- A fixed-width code for the lengths up to `limit`. -/
structure Header (Symbol : Type u) where
  width : Nat
  limit : Nat
  encode : Nat → List Symbol
  decode : List Symbol → Nat
  width_pos : 0 < width
  length_encode : ∀ n, (encode n).length = width
  decode_encode : ∀ n, n ≤ limit → decode (encode n) = n
  encode_decode : ∀ bytes, bytes.length = width → decode bytes ≤ limit →
    encode (decode bytes) = bytes

/-- Why no further frame can be read. -/
inductive Ending where
  /-- The next header announces more than the limit. -/
  | oversized
  /-- The input ends at a frame boundary, inside a header or inside a body. -/
  | truncated
deriving DecidableEq, Repr

/-- What the front of an input holds. -/
inductive Scan (Symbol : Type u) where
  | frame (payload rest : List Symbol)
  | stuck (ending : Ending)

/-- The frames of an input, what is left behind them, and why they end there. -/
structure Parse (Symbol : Type u) where
  frames : List (List Symbol)
  rest : List Symbol
  ending : Ending

namespace Header

variable {Symbol : Type u} (header : Header Symbol)

def frame (payload : List Symbol) : List Symbol :=
  header.encode payload.length ++ payload

def stream (payloads : List (List Symbol)) : List Symbol :=
  payloads.flatMap header.frame

/-- Every payload fits the limit. -/
def Fits (payloads : List (List Symbol)) : Prop :=
  ∀ payload ∈ payloads, payload.length ≤ header.limit

/-- The length that the first header of an input announces. -/
def announced (input : List Symbol) : Nat :=
  header.decode (input.take header.width)

def scan (input : List Symbol) : Scan Symbol :=
  if input.length < header.width then .stuck .truncated
  else if header.limit < header.announced input then .stuck .oversized
  else if input.length < header.width + header.announced input then .stuck .truncated
  else .frame ((input.drop header.width).take (header.announced input))
    (input.drop (header.width + header.announced input))

@[simp] theorem stream_nil : header.stream [] = [] := rfl

@[simp] theorem stream_cons (payload : List Symbol) (rest : List (List Symbol)) :
    header.stream (payload :: rest) = header.frame payload ++ header.stream rest := by
  simp [stream]

@[simp] theorem stream_append (first second : List (List Symbol)) :
    header.stream (first ++ second) = header.stream first ++ header.stream second := by
  simp [stream]

@[simp] theorem length_frame (payload : List Symbol) :
    (header.frame payload).length = header.width + payload.length := by
  simp [frame, header.length_encode]

@[simp] theorem fits_nil : header.Fits [] := by simp [Fits]

theorem fits_cons {payload : List Symbol} {rest : List (List Symbol)} :
    header.Fits (payload :: rest) ↔ payload.length ≤ header.limit ∧ header.Fits rest := by
  simp [Fits]

theorem fits_append {first second : List (List Symbol)} :
    header.Fits (first ++ second) ↔ header.Fits first ∧ header.Fits second := by
  simp only [Fits, List.mem_append]
  constructor
  · exact fun h => ⟨fun p hp => h p (.inl hp), fun p hp => h p (.inr hp)⟩
  · rintro ⟨hfirst, hsecond⟩ p (hp | hp)
    · exact hfirst p hp
    · exact hsecond p hp

theorem announced_frame_append {payload : List Symbol} (hfits : payload.length ≤ header.limit)
    (rest : List Symbol) : header.announced (header.frame payload ++ rest) = payload.length := by
  have htake : (header.frame payload ++ rest).take header.width =
      header.encode payload.length := by
    rw [frame, List.append_assoc, List.take_left' (header.length_encode payload.length)]
  rw [announced, htake, header.decode_encode _ hfits]

/-- A frame at the front of an input is read back, whatever follows it. -/
theorem scan_frame_append {payload : List Symbol} (hfits : payload.length ≤ header.limit)
    (rest : List Symbol) :
    header.scan (header.frame payload ++ rest) = .frame payload rest := by
  have hlength := header.length_encode payload.length
  have hdrop : (header.frame payload ++ rest).drop header.width = payload ++ rest := by
    rw [frame, List.append_assoc, List.drop_left' hlength]
  have hbehind : (header.frame payload ++ rest).drop (header.width + payload.length) = rest := by
    rw [← List.drop_drop, hdrop, List.drop_left' rfl]
  have hannounced := header.announced_frame_append hfits rest
  have hall : (header.frame payload ++ rest).length =
      header.width + payload.length + rest.length := by
    rw [List.length_append, length_frame]
  unfold scan
  rw [hannounced, if_neg (by omega), if_neg (by omega), if_neg (by omega), hdrop, hbehind,
    List.take_left' rfl]

/-- A scanned frame is exactly what the input starts with. -/
theorem eq_of_scan_frame {input payload rest : List Symbol}
    (hscan : header.scan input = .frame payload rest) :
    input = header.frame payload ++ rest ∧ payload.length ≤ header.limit := by
  unfold scan at hscan
  split at hscan
  · cases hscan
  next hwidth =>
    split at hscan
    · cases hscan
    next hlimit =>
      split at hscan
      · cases hscan
      next hbody =>
        injection hscan with hpayload hrest
        have hhead : (input.take header.width).length = header.width := by
          rw [List.length_take]
          omega
        have hlength : payload.length = header.announced input := by
          rw [← hpayload, List.length_take, List.length_drop]
          omega
        have hencode : header.encode payload.length = input.take header.width := by
          rw [hlength]
          exact header.encode_decode _ hhead (Nat.le_of_not_lt hlimit)
        refine ⟨?_, by omega⟩
        rw [frame, hencode, ← hpayload, ← hrest, List.append_assoc, ← List.drop_drop,
          List.take_append_drop, List.take_append_drop]

theorem of_scan_oversized {input : List Symbol} (hscan : header.scan input = .stuck .oversized) :
    header.width ≤ input.length ∧ header.limit < header.announced input := by
  unfold scan at hscan
  split at hscan
  · cases hscan
  next hwidth =>
    split at hscan
    next hlimit => exact ⟨Nat.le_of_not_lt hwidth, hlimit⟩
    next => split at hscan <;> cases hscan

/-- An oversized header is refused whatever comes behind it. -/
theorem scan_append_of_oversized {input : List Symbol}
    (hscan : header.scan input = .stuck .oversized) (more : List Symbol) :
    header.scan (input ++ more) = .stuck .oversized := by
  obtain ⟨hwidth, hlimit⟩ := header.of_scan_oversized hscan
  have hannounced : header.announced (input ++ more) = header.announced input := by
    rw [announced, announced, List.take_append_of_le_length hwidth]
  rw [scan, hannounced, if_neg (by rw [List.length_append]; omega), if_pos hlimit]

/-- A proper beginning of a frame is no frame yet. -/
theorem scan_of_strict_prefix {payload front : List Symbol}
    (hfits : payload.length ≤ header.limit) (hinitial : front <+: header.frame payload)
    (hne : front ≠ header.frame payload) : header.scan front = .stuck .truncated := by
  obtain ⟨rest, hrest⟩ := hinitial
  have hshort : front.length < header.width + payload.length := by
    have hlength := congrArg List.length hrest
    rw [List.length_append, length_frame] at hlength
    have hpos : rest ≠ [] := by
      intro hnil
      rw [hnil, List.append_nil] at hrest
      exact hne hrest
    have := List.length_pos_of_ne_nil hpos
    omega
  by_cases hwidth : front.length < header.width
  · rw [scan, if_pos hwidth]
  · have htake : front.take header.width = header.encode payload.length := by
      have hboth := congrArg (List.take header.width) hrest
      rwa [List.take_append_of_le_length (by omega), frame,
        List.take_left' (header.length_encode _)] at hboth
    have hannounced : header.announced front = payload.length := by
      rw [announced, htake, header.decode_encode _ hfits]
    rw [scan, hannounced, if_neg hwidth, if_neg (by omega), if_pos hshort]

/-- A truncated input ends inside its header or inside the body announced. -/
theorem of_scan_truncated {input : List Symbol} (hscan : header.scan input = .stuck .truncated) :
    input.length < header.width ∨
      header.width ≤ input.length ∧ header.announced input ≤ header.limit ∧
        input.length < header.width + header.announced input := by
  unfold scan at hscan
  split at hscan
  next hwidth => exact .inl hwidth
  next hwidth =>
    split at hscan
    · cases hscan
    next hlimit =>
      split at hscan
      next hbody => exact .inr ⟨Nat.le_of_not_lt hwidth, Nat.le_of_not_lt hlimit, hbody⟩
      · cases hscan

theorem length_lt_of_scan_frame {input payload rest : List Symbol}
    (hscan : header.scan input = .frame payload rest) : rest.length < input.length := by
  have heq := congrArg List.length (header.eq_of_scan_frame hscan).1
  have hpos := header.width_pos
  simp only [List.length_append, length_frame] at heq
  omega

/-- The longest sequence of frames an input starts with. -/
def parse (input : List Symbol) : Parse Symbol :=
  match _hscan : header.scan input with
  | .frame payload rest =>
      let behind := parse rest
      { behind with frames := payload :: behind.frames }
  | .stuck ending => { frames := [], rest := input, ending := ending }
termination_by input.length
decreasing_by exact header.length_lt_of_scan_frame _hscan

theorem parse_of_frame {input payload rest : List Symbol}
    (hscan : header.scan input = .frame payload rest) :
    header.parse input =
      { header.parse rest with frames := payload :: (header.parse rest).frames } := by
  rw [parse]
  split
  next payload' rest' hscan' =>
    rw [hscan] at hscan'
    cases hscan'
    rfl
  next ending hscan' =>
    rw [hscan] at hscan'
    cases hscan'

theorem parse_of_stuck {input : List Symbol} {ending : Ending}
    (hscan : header.scan input = .stuck ending) :
    header.parse input = { frames := [], rest := input, ending := ending } := by
  rw [parse]
  split
  next payload rest hscan' =>
    rw [hscan] at hscan'
    cases hscan'
  next ending' hscan' =>
    rw [hscan] at hscan'
    cases hscan'
    rfl

/-- Parsing whole frames in front of an input is parsing the input. -/
theorem parse_stream_append {payloads : List (List Symbol)} (hfits : header.Fits payloads)
    (rest : List Symbol) :
    header.parse (header.stream payloads ++ rest) =
      { header.parse rest with frames := payloads ++ (header.parse rest).frames } := by
  induction payloads with
  | nil => rfl
  | cons payload payloads ih =>
      obtain ⟨hhead, htail⟩ := header.fits_cons.mp hfits
      rw [stream_cons, List.append_assoc,
        header.parse_of_frame (header.scan_frame_append hhead _), ih htail]
      rfl

theorem parse_nil : header.parse [] = { frames := [], rest := [], ending := .truncated } :=
  header.parse_of_stuck (if_pos header.width_pos)

theorem parse_stream {payloads : List (List Symbol)} (hfits : header.Fits payloads) :
    header.parse (header.stream payloads) =
      { frames := payloads, rest := [], ending := .truncated } := by
  rw [← List.append_nil (header.stream payloads), header.parse_stream_append hfits, parse_nil,
    List.append_nil]

/-- What `parse` says about its input: the frames it found are there, they fit,
and no further frame follows. -/
theorem parse_spec (input : List Symbol) :
    input = header.stream (header.parse input).frames ++ (header.parse input).rest ∧
      header.Fits (header.parse input).frames ∧
      header.scan (header.parse input).rest = .stuck (header.parse input).ending := by
  induction hlength : input.length using Nat.strongRecOn generalizing input with
  | ind length ih =>
      cases hscan : header.scan input with
      | stuck ending =>
          rw [header.parse_of_stuck hscan]
          exact ⟨rfl, header.fits_nil, hscan⟩
      | frame payload rest =>
          obtain ⟨heq, hpayload⟩ := header.eq_of_scan_frame hscan
          have hshorter := header.length_lt_of_scan_frame hscan
          obtain ⟨hrest, hfits, hstuck⟩ := ih rest.length (by omega) rest rfl
          rw [header.parse_of_frame hscan]
          refine ⟨?_, header.fits_cons.mpr ⟨hpayload, hfits⟩, hstuck⟩
          dsimp only
          rw [stream_cons, List.append_assoc, ← hrest]
          exact heq

/-- The ending says whether a complete header announces too much. -/
theorem parse_ending_oversized_iff (input : List Symbol) :
    (header.parse input).ending = .oversized ↔
      header.width ≤ (header.parse input).rest.length ∧
        header.limit < header.announced (header.parse input).rest := by
  obtain ⟨-, -, hstuck⟩ := header.parse_spec input
  constructor
  · intro hending
    rw [hending] at hstuck
    exact header.of_scan_oversized hstuck
  · rintro ⟨hwidth, hlimit⟩
    cases hending : (header.parse input).ending with
    | oversized => rfl
    | truncated =>
        rw [hending] at hstuck
        rcases header.of_scan_truncated hstuck with hshort | ⟨-, hfits, -⟩
        · omega
        · omega

/-- A decomposition of the input into frames and a rest, the frames as many as
possible. -/
def LongestParse (input : List Symbol) (frames : List (List Symbol)) (rest : List Symbol) : Prop :=
  (input = header.stream frames ++ rest ∧ header.Fits frames) ∧
    ∀ others behind, input = header.stream others ++ behind → header.Fits others →
      others.length ≤ frames.length

/-- Any way to read frames off the front of an input is a prefix of `parse`. -/
theorem prefix_parse {input rest : List Symbol} {payloads : List (List Symbol)}
    (hinput : input = header.stream payloads ++ rest) (hfits : header.Fits payloads) :
    payloads <+: (header.parse input).frames := by
  rw [hinput, header.parse_stream_append hfits]
  exact List.prefix_append _ _

/-- There is exactly one longest parse, the one that `parse` computes. -/
theorem longestParse_iff {input rest : List Symbol} {frames : List (List Symbol)} :
    header.LongestParse input frames rest ↔
      frames = (header.parse input).frames ∧ rest = (header.parse input).rest := by
  obtain ⟨hinput, hfits, -⟩ := header.parse_spec input
  constructor
  · rintro ⟨⟨heq, hframes⟩, hmax⟩
    have hsame : frames = (header.parse input).frames :=
      (header.prefix_parse heq hframes).eq_of_length_le (hmax _ _ hinput hfits)
    refine ⟨hsame, ?_⟩
    have hboth := heq.symm.trans hinput
    rw [← hsame] at hboth
    exact List.append_cancel_left hboth
  · rintro ⟨rfl, rfl⟩
    exact ⟨⟨hinput, hfits⟩, fun others behind heq hothers =>
      (header.prefix_parse heq hothers).length_le⟩

/-- What is wrong with an input stays wrong, whatever comes behind it. -/
theorem parse_append_of_oversized {input : List Symbol}
    (hending : (header.parse input).ending = .oversized) (more : List Symbol) :
    (header.parse (input ++ more)).ending = .oversized := by
  obtain ⟨hinput, hfits, hstuck⟩ := header.parse_spec input
  rw [hending] at hstuck
  rw [hinput, List.append_assoc, header.parse_stream_append hfits,
    header.parse_of_stuck (header.scan_append_of_oversized hstuck more)]

/-- No payload is too large in front of a stream of payloads that fit. -/
theorem not_oversized_of_stream {payloads : List (List Symbol)} (hfits : header.Fits payloads)
    {input rest : List Symbol} (hstream : input ++ rest = header.stream payloads) :
    (header.parse input).ending ≠ .oversized := by
  intro hending
  have hoversized := header.parse_append_of_oversized hending rest
  rw [hstream, header.parse_stream hfits] at hoversized
  cases hoversized

/-- More input never changes the frames already found. -/
theorem parse_frames_prefix (input more : List Symbol) :
    (header.parse input).frames <+: (header.parse (input ++ more)).frames := by
  obtain ⟨hinput, hfits, -⟩ := header.parse_spec input
  have hmore : input ++ more =
      header.stream (header.parse input).frames ++ ((header.parse input).rest ++ more) := by
    rw [← List.append_assoc, ← hinput]
  exact header.prefix_parse hmore hfits

end Header

end LengthPrefix
