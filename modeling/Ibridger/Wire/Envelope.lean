import Ibridger.Wire.Frame

/-! # Envelopes

The message that every frame carries. How an envelope is written into bytes is
the business of the protobuf libraries of the two languages, which are a
parameter of the model.
-/

namespace Ibridger.Wire

/-- Protobuf enums are open: a peer may send values that have no name. -/
inductive MessageType where
  | request
  | response
  | event
  | error
  | other (value : Int)
deriving DecidableEq, Repr

inductive StatusCode where
  | ok
  | unknownError
  | notFound
  | invalidArgument
  | internal
  | timeout
  | other (value : Int)
deriving DecidableEq, Repr

structure Envelope where
  type : MessageType
  requestId : UInt64
  serviceName : String
  methodName : String
  payload : List UInt8
  status : StatusCode
  errorMessage : String
  metadata : List (String × String)
deriving DecidableEq, Repr

/-- An envelope with all fields at their protobuf defaults. -/
def Envelope.empty : Envelope where
  type := .request
  requestId := 0
  serviceName := ""
  methodName := ""
  payload := []
  status := .ok
  errorMessage := ""
  metadata := []

/-- The protobuf class of a language. Parsing may fail with a message. There are no bytes for
an envelope that is not an object of the class (it has a key of the metadata twice, the keys
in an order that the class does not keep, in JS the key `__proto__`, or an unnamed value for a
number that has a name), nor where the library fails, as it does with messages of two
gigabytes. -/
structure EnvelopeFormat where
  serialize : Envelope → Option (List UInt8)
  parse : List UInt8 → Except String Envelope

namespace EnvelopeFormat

variable (format : EnvelopeFormat)

/-- Parsing gives back what was serialized, if it fits into a frame. -/
def Inverse : Prop :=
  ∀ envelope bytes, format.serialize envelope = some bytes → bytes.length ≤ MAX_FRAME_SIZE →
    format.parse bytes = .ok envelope

/-- The envelopes that frames carry, up to the first frame that carries none. -/
def readable : List (List UInt8) → List Envelope
  | [] => []
  | frame :: rest =>
      match format.parse frame with
      | .ok envelope => envelope :: readable rest
      | .error _ => []

/-- The envelopes that a byte stream carries, up to the first unreadable frame. -/
def envelopes (stream : List UInt8) : List Envelope :=
  format.readable (frameHeader.parse stream).frames

/-- The frames carry the envelopes, one each. -/
def Carries (frames : List (List UInt8)) (envelopes : List Envelope) : Prop :=
  frames.map format.parse = envelopes.map .ok

variable {format} {frames : List (List UInt8)} {carried : List Envelope}

theorem Carries.nil : format.Carries [] [] := rfl

theorem Carries.append {others : List (List UInt8)} {more : List Envelope}
    (hcarries : format.Carries frames carried) (hmore : format.Carries others more) :
    format.Carries (frames ++ others) (carried ++ more) := by
  rw [Carries, List.map_append, List.map_append, hcarries, hmore]

theorem Carries.singleton {frame : List UInt8} {envelope : Envelope}
    (hparse : format.parse frame = .ok envelope) : format.Carries [frame] [envelope] := by
  rw [Carries, List.map_singleton, List.map_singleton, hparse]

theorem readable_append (hcarries : format.Carries frames carried) (rest : List (List UInt8)) :
    format.readable (frames ++ rest) = carried ++ format.readable rest := by
  induction frames generalizing carried with
  | nil =>
      cases carried with
      | nil => rfl
      | cons envelope carried => cases hcarries
  | cons frame frames ih =>
      cases carried with
      | nil => cases hcarries
      | cons envelope carried =>
          obtain ⟨hhead, htail⟩ := List.cons_eq_cons.mp hcarries
          rw [List.cons_append, readable, hhead]
          exact congrArg (envelope :: ·) (ih htail)

/-- Whole frames in front of a stream add the envelopes they carry. -/
theorem envelopes_stream_append (hfits : frameHeader.Fits frames)
    (hcarries : format.Carries frames carried) (rest : List UInt8) :
    format.envelopes (frameHeader.stream frames ++ rest) = carried ++ format.envelopes rest := by
  rw [envelopes, frameHeader.parse_stream_append hfits]
  exact readable_append hcarries _

theorem envelopes_stream (hfits : frameHeader.Fits frames) :
    format.envelopes (frameHeader.stream frames) = format.readable frames := by
  rw [envelopes, frameHeader.parse_stream hfits]

theorem envelopes_of_stuck {stream : List UInt8} {ending : LengthPrefix.Ending}
    (hscan : frameHeader.scan stream = .stuck ending) : format.envelopes stream = [] := by
  rw [envelopes, frameHeader.parse_of_stuck hscan]
  rfl

theorem envelopes_of_frame {stream payload rest : List UInt8} {envelope : Envelope}
    (hscan : frameHeader.scan stream = .frame payload rest)
    (hparse : format.parse payload = .ok envelope) :
    format.envelopes stream = envelope :: format.envelopes rest := by
  rw [envelopes, frameHeader.parse_of_frame hscan, readable, hparse]
  rfl

variable (format) in
/-- The next frame is too large, or its payload is no envelope. -/
inductive Unreadable (front : List UInt8) : Prop where
  | oversized (hscan : frameHeader.scan front = .stuck .oversized)
  | malformed (payload rest : List UInt8) (message : String)
      (hscan : frameHeader.scan front = .frame payload rest)
      (hparse : format.parse payload = .error message)

variable (format) in
/-- Behind some readable frames comes one that is not. -/
def Breaks (stream : List UInt8) : Prop :=
  ∃ frames front, stream = frameHeader.stream frames ++ front ∧ frameHeader.Fits frames ∧
    format.Carries frames (format.envelopes stream) ∧ format.Unreadable front

theorem Unreadable.envelopes_eq {front : List UInt8} (hunreadable : format.Unreadable front) :
    format.envelopes front = [] := by
  cases hunreadable with
  | oversized hscan => exact envelopes_of_stuck hscan
  | malformed payload rest message hscan hparse =>
      rw [envelopes, frameHeader.parse_of_frame hscan, readable, hparse]

/-- An unreadable frame stays unreadable, whatever comes behind it. -/
theorem Unreadable.append {front : List UInt8} (hunreadable : format.Unreadable front)
    (more : List UInt8) : format.Unreadable (front ++ more) := by
  cases hunreadable with
  | oversized hscan => exact .oversized (frameHeader.scan_append_of_oversized hscan more)
  | malformed payload rest message hscan hparse =>
      obtain ⟨rfl, hpayload⟩ := frameHeader.eq_of_scan_frame hscan
      refine .malformed payload (rest ++ more) message ?_ hparse
      rw [List.append_assoc]
      exact frameHeader.scan_frame_append hpayload _

/-- Behind an unreadable frame there are no more envelopes. -/
theorem Breaks.envelopes_append {stream : List UInt8} (hbreaks : format.Breaks stream)
    (more : List UInt8) : format.envelopes (stream ++ more) = format.envelopes stream := by
  obtain ⟨frames, front, hstream, hfits, hcarries, hunreadable⟩ := hbreaks
  have hbehind : stream ++ more = frameHeader.stream frames ++ (front ++ more) := by
    rw [hstream, List.append_assoc]
  rw [hbehind, envelopes_stream_append hfits hcarries, (hunreadable.append more).envelopes_eq,
    List.append_nil]

/-- More bytes never change the envelopes already there. -/
theorem envelopes_prefix (stream more : List UInt8) :
    format.envelopes stream <+: format.envelopes (stream ++ more) := by
  obtain ⟨rest, hrest⟩ := frameHeader.parse_frames_prefix stream more
  rw [envelopes, envelopes, ← hrest]
  generalize (frameHeader.parse stream).frames = frames
  induction frames with
  | nil => exact List.nil_prefix
  | cons frame frames ih =>
      rw [List.cons_append, readable, readable]
      split
      · exact (List.prefix_cons_inj _).mpr ih
      · exact List.nil_prefix

theorem envelopes_mono {first second : List UInt8} (hinitial : first <+: second) :
    format.envelopes first <+: format.envelopes second := by
  obtain ⟨more, rfl⟩ := hinitial
  exact envelopes_prefix first more

variable (format) in
/-- The bytes are the frames of the envelopes, and nothing else. -/
def Emitted (stream : List UInt8) (envelopes : List Envelope) : Prop :=
  ∃ frames, frameHeader.Fits frames ∧ format.Carries frames envelopes ∧
    stream = frameHeader.stream frames

theorem Emitted.nil : format.Emitted [] [] := ⟨[], frameHeader.fits_nil, .nil, rfl⟩

theorem Emitted.append {stream payload : List UInt8} {envelope : Envelope}
    (hemitted : format.Emitted stream carried) (hfits : payload.length ≤ MAX_FRAME_SIZE)
    (hparse : format.parse payload = .ok envelope) :
    format.Emitted (stream ++ frameHeader.frame payload) (carried ++ [envelope]) := by
  obtain ⟨frames, hframes, hcarries, rfl⟩ := hemitted
  refine ⟨frames ++ [payload], ?_, hcarries.append (.singleton hparse), ?_⟩
  · exact frameHeader.fits_append.mpr
      ⟨hframes, frameHeader.fits_cons.mpr ⟨hfits, frameHeader.fits_nil⟩⟩
  · rw [LengthPrefix.Header.stream_append, LengthPrefix.Header.stream_cons,
      LengthPrefix.Header.stream_nil, List.append_nil]

variable (format) in
/-- The class writes these frames of the envelopes. -/
def Writes (frames : List (List UInt8)) (envelopes : List Envelope) : Prop :=
  envelopes.map format.serialize = frames.map some

variable (format) in
/-- The bytes are the frames that the class writes of the envelopes, and nothing else. -/
def Wrote (stream : List UInt8) (envelopes : List Envelope) : Prop :=
  ∃ frames, frameHeader.Fits frames ∧ format.Writes frames envelopes ∧
    stream = frameHeader.stream frames

theorem Wrote.nil : format.Wrote [] [] := ⟨[], frameHeader.fits_nil, rfl, rfl⟩

theorem Wrote.append {stream payload : List UInt8} {envelope : Envelope}
    (hwrote : format.Wrote stream carried) (hfits : payload.length ≤ MAX_FRAME_SIZE)
    (hserialize : format.serialize envelope = some payload) :
    format.Wrote (stream ++ frameHeader.frame payload) (carried ++ [envelope]) := by
  obtain ⟨frames, hframes, hwrites, rfl⟩ := hwrote
  refine ⟨frames ++ [payload], ?_, ?_, ?_⟩
  · exact frameHeader.fits_append.mpr
      ⟨hframes, frameHeader.fits_cons.mpr ⟨hfits, frameHeader.fits_nil⟩⟩
  · rw [Writes, List.map_append, List.map_append, hwrites, List.map_singleton, hserialize,
      List.map_singleton]
  · rw [LengthPrefix.Header.stream_append, LengthPrefix.Header.stream_cons,
      LengthPrefix.Header.stream_nil, List.append_nil]

/-- Frames carry the envelopes that another class has written into them, as far as those can
be read. -/
theorem Writes.carries {other : EnvelopeFormat} (hwrites : other.Writes frames carried)
    (hfits : frameHeader.Fits frames)
    (hparse : ∀ envelope ∈ carried, ∀ bytes, other.serialize envelope = some bytes →
      bytes.length ≤ MAX_FRAME_SIZE → format.parse bytes = .ok envelope) :
    format.Carries frames carried := by
  induction frames generalizing carried with
  | nil =>
      rw [List.map_eq_nil_iff.mp hwrites]
      exact .nil
  | cons frame frames ih =>
      cases carried with
      | nil => cases hwrites
      | cons envelope carried =>
          obtain ⟨hhead, htail⟩ := List.cons_eq_cons.mp hwrites
          obtain ⟨hframe, hrest⟩ := frameHeader.fits_cons.mp hfits
          exact (Carries.singleton (hparse envelope List.mem_cons_self frame hhead hframe)).append
            (ih htail hrest fun later hlater => hparse later (List.mem_cons_of_mem _ hlater))

theorem Wrote.emitted {stream : List UInt8} (hinverse : format.Inverse)
    (hwrote : format.Wrote stream carried) : format.Emitted stream carried := by
  obtain ⟨frames, hfits, hwrites, rfl⟩ := hwrote
  exact ⟨frames, hfits, hwrites.carries hfits fun envelope _ => hinverse envelope, rfl⟩

/-- The frames in front of what the class wrote. -/
theorem Wrote.writes {stream rest : List UInt8} (hwrote : format.Wrote (stream ++ rest) carried) :
    ∃ written, format.Writes (frameHeader.parse stream).frames written := by
  obtain ⟨frames, hfits, hwrites, hstream⟩ := hwrote
  obtain ⟨more, hmore⟩ := frameHeader.parse_frames_prefix stream rest
  rw [hstream, frameHeader.parse_stream hfits] at hmore
  have hsplit : (frameHeader.parse stream).frames ++ more = frames := hmore
  rw [Writes, ← hsplit, List.map_append] at hwrites
  obtain ⟨written, others, -, hwritten, -⟩ := List.map_eq_append_iff.mp hwrites
  exact ⟨written, hwritten⟩

/-! ### Two classes -/

variable {other : EnvelopeFormat}

variable (format) in
/-- The class reads what the other one writes, if it fits into a frame, but for the
metadata, of which it reads none where there is none. -/
def Understands (other : EnvelopeFormat) : Prop :=
  ∀ envelope bytes, other.serialize envelope = some bytes → bytes.length ≤ MAX_FRAME_SIZE →
    ∃ metadata, (envelope.metadata = [] → metadata = []) ∧
      format.parse bytes = .ok { envelope with metadata := metadata }

theorem Inverse.understands (hinverse : format.Inverse) : format.Understands format :=
  fun envelope bytes hserialize hfits =>
    ⟨envelope.metadata, id, hinverse envelope bytes hserialize hfits⟩

/-- What does not depend on the metadata is made of the envelopes that are read as of those
that were written. -/
theorem Understands.map_readable {Made : Type} {make : Envelope → Made}
    (hmake : ∀ envelope metadata, make { envelope with metadata := metadata } = make envelope)
    (hunderstands : format.Understands other) (hfits : frameHeader.Fits frames)
    (hwrites : other.Writes frames carried) :
    (format.readable frames).map make = carried.map make := by
  induction frames generalizing carried with
  | nil =>
      rw [List.map_eq_nil_iff.mp hwrites]
      rfl
  | cons frame frames ih =>
      cases carried with
      | nil => cases hwrites
      | cons envelope carried =>
          obtain ⟨hhead, htail⟩ := List.cons_eq_cons.mp hwrites
          obtain ⟨hframe, hrest⟩ := frameHeader.fits_cons.mp hfits
          obtain ⟨metadata, -, hparse⟩ := hunderstands envelope frame hhead hframe
          rw [readable, hparse]
          dsimp only
          rw [List.map_cons, List.map_cons, hmake, ih hrest htail]

/-- Envelopes without metadata are read as they were written. -/
theorem Understands.emitted {stream : List UInt8} (hunderstands : format.Understands other)
    (hwrote : other.Wrote stream carried)
    (hplain : ∀ envelope ∈ carried, envelope.metadata = []) : format.Emitted stream carried := by
  obtain ⟨frames, hfits, hwrites, rfl⟩ := hwrote
  refine ⟨frames, hfits, hwrites.carries hfits ?_, rfl⟩
  intro envelope hmem bytes hserialize hsize
  obtain ⟨metadata, hkeeps, hparse⟩ := hunderstands envelope bytes hserialize hsize
  have hnone := hplain envelope hmem
  rwa [hkeeps hnone, ← hnone] at hparse

/-- What was emitted takes no more than a full frame for each envelope. -/
theorem Emitted.length_le {stream : List UInt8} (hemitted : format.Emitted stream carried) :
    stream.length ≤ (4 + MAX_FRAME_SIZE) * carried.length := by
  obtain ⟨frames, hframes, hcarries, rfl⟩ := hemitted
  have hcount := congrArg List.length hcarries
  rw [List.length_map, List.length_map] at hcount
  rw [← hcount]
  clear hcount hcarries
  induction frames with
  | nil => exact Nat.le_refl 0
  | cons frame frames ih =>
      obtain ⟨hframe, hrest⟩ := frameHeader.fits_cons.mp hframes
      have htail := ih hrest
      rw [frameHeader_limit] at hframe
      rw [LengthPrefix.Header.stream_cons, List.length_append, LengthPrefix.Header.length_frame,
        frameHeader_width, List.length_cons, Nat.mul_succ]
      omega

/-- What was emitted is what a peer reads. -/
theorem Emitted.envelopes_eq {stream : List UInt8} (hemitted : format.Emitted stream carried) :
    format.envelopes stream = carried := by
  obtain ⟨frames, hframes, hcarries, rfl⟩ := hemitted
  have hempty : format.envelopes [] = [] := by
    rw [envelopes, frameHeader.parse_nil]
    rfl
  rw [← List.append_nil (frameHeader.stream frames), envelopes_stream_append hframes hcarries,
    hempty, List.append_nil]

/-- Behind the frames of the first envelopes stand the frames of the others. -/
theorem Emitted.behind {stream rest : List UInt8} {others : List Envelope}
    (hfirst : format.Emitted stream carried)
    (hall : format.Emitted (stream ++ rest) (carried ++ others)) : format.Emitted rest others := by
  obtain ⟨frames, hframes, hcarries, rfl⟩ := hfirst
  obtain ⟨all, hfits, hboth, heq⟩ := hall
  obtain ⟨hrest, hrestFits, hstuck⟩ := frameHeader.parse_spec rest
  have hparse := congrArg frameHeader.parse heq
  rw [frameHeader.parse_stream_append hframes, frameHeader.parse_stream hfits] at hparse
  have hsplit : frames ++ (frameHeader.parse rest).frames = all :=
    congrArg LengthPrefix.Parse.frames hparse
  have hnothing : (frameHeader.parse rest).rest = [] := congrArg LengthPrefix.Parse.rest hparse
  refine ⟨(frameHeader.parse rest).frames, hrestFits, ?_, ?_⟩
  · rw [← hsplit, Carries, List.map_append, List.map_append] at hboth
    have hlength := congrArg List.length hcarries
    exact (List.append_inj hboth hlength).2
  · rw [hnothing, List.append_nil] at hrest
    exact hrest

/-- What has been emitted has no frame that is too large. -/
theorem Emitted.not_oversized {stream rest : List UInt8}
    (hemitted : format.Emitted (stream ++ rest) carried) :
    (frameHeader.parse stream).ending ≠ .oversized := by
  obtain ⟨frames, hframes, -, hstream⟩ := hemitted
  exact frameHeader.not_oversized_of_stream hframes hstream

theorem Wrote.not_oversized {stream rest : List UInt8}
    (hwrote : format.Wrote (stream ++ rest) carried) :
    (frameHeader.parse stream).ending ≠ .oversized := by
  obtain ⟨frames, hframes, -, hstream⟩ := hwrote
  exact frameHeader.not_oversized_of_stream hframes hstream

/-- The frames in front of what has been emitted carry the first envelopes. -/
theorem Emitted.carries_frame {rest : List UInt8} (hfits : frameHeader.Fits frames)
    (hemitted : format.Emitted (frameHeader.stream frames ++ rest) carried) {r : Nat}
    {payload : List UInt8} (hframe : frames[r]? = some payload) :
    ∃ envelope, carried[r]? = some envelope ∧ format.parse payload = .ok envelope := by
  obtain ⟨all, hall, hcarries, heq⟩ := hemitted
  have hparse := congrArg frameHeader.parse heq
  rw [frameHeader.parse_stream_append hfits, frameHeader.parse_stream hall] at hparse
  have hsplit : frames ++ (frameHeader.parse rest).frames = all :=
    congrArg LengthPrefix.Parse.frames hparse
  have hboth : (all.map format.parse)[r]? = (carried.map Except.ok)[r]? := by
    rw [hcarries]
  rw [← hsplit, List.getElem?_map,
    List.getElem?_append_left (List.getElem?_eq_some_iff.mp hframe).1, hframe, Option.map_some,
    List.getElem?_map] at hboth
  obtain ⟨envelope, henvelope, hparsed⟩ := Option.map_eq_some_iff.mp hboth.symm
  exact ⟨envelope, henvelope, hparsed.symm⟩

/-- What has been emitted has no frame that cannot be read. -/
theorem Emitted.not_breaks {stream rest : List UInt8}
    (hemitted : format.Emitted (stream ++ rest) carried) : ¬ format.Breaks stream := by
  rintro ⟨frames, front, rfl, hfits, -, hunreadable⟩
  cases hunreadable with
  | oversized hscan =>
      apply hemitted.not_oversized
      rw [frameHeader.parse_stream_append hfits, frameHeader.parse_of_stuck hscan]
  | malformed payload more message hscan hparse =>
      obtain ⟨rfl, hpayload⟩ := frameHeader.eq_of_scan_frame hscan
      have hall : frameHeader.Fits (frames ++ [payload]) := frameHeader.fits_append.mpr
        ⟨hfits, frameHeader.fits_cons.mpr ⟨hpayload, frameHeader.fits_nil⟩⟩
      have hstream : frameHeader.stream frames ++ (frameHeader.frame payload ++ more) ++ rest =
          frameHeader.stream (frames ++ [payload]) ++ (more ++ rest) := by
        rw [LengthPrefix.Header.stream_append, LengthPrefix.Header.stream_cons,
          LengthPrefix.Header.stream_nil, List.append_nil, List.append_assoc, List.append_assoc,
          List.append_assoc]
      rw [hstream] at hemitted
      obtain ⟨envelope, -, hread⟩ := hemitted.carries_frame hall List.getElem?_concat_length
      rw [hparse] at hread
      cases hread

/-- All that has been emitted is there where no frame is left. -/
theorem Emitted.length_eq_of_stuck {front : List UInt8} {ending : LengthPrefix.Ending}
    (hfits : frameHeader.Fits frames) (hscan : frameHeader.scan front = .stuck ending)
    (hemitted : format.Emitted (frameHeader.stream frames ++ front) carried) :
    frames.length = carried.length := by
  obtain ⟨all, hall, hcarries, heq⟩ := hemitted
  have hparse := congrArg frameHeader.parse heq
  rw [frameHeader.parse_stream_append hfits, frameHeader.parse_of_stuck hscan,
    frameHeader.parse_stream hall] at hparse
  have hsame : frames ++ [] = all := congrArg LengthPrefix.Parse.frames hparse
  rw [List.append_nil] at hsame
  have hlength := congrArg List.length hcarries
  rwa [List.length_map, List.length_map, ← hsame] at hlength

/-- The one frame that carries the one envelope. -/
theorem Emitted.single {payload rest : List UInt8} {envelope : Envelope}
    (hfits : payload.length ≤ MAX_FRAME_SIZE)
    (hemitted : format.Emitted (frameHeader.frame payload ++ rest) [envelope]) :
    format.parse payload = .ok envelope ∧ rest = [] := by
  obtain ⟨frames, hframes, hcarries, heq⟩ := hemitted
  have hparse := congrArg frameHeader.parse heq
  rw [frameHeader.parse_of_frame (frameHeader.scan_frame_append hfits rest),
    frameHeader.parse_stream hframes] at hparse
  have hsame : payload :: (frameHeader.parse rest).frames = frames :=
    congrArg LengthPrefix.Parse.frames hparse
  rw [← hsame, Carries, List.map_cons, List.map_singleton] at hcarries
  obtain ⟨hhead, htail⟩ := List.cons_eq_cons.mp hcarries
  refine ⟨hhead, ?_⟩
  rw [← hsame, List.map_eq_nil_iff.mp htail, LengthPrefix.Header.stream_cons,
    LengthPrefix.Header.stream_nil] at heq
  exact List.append_cancel_left heq

end EnvelopeFormat

end Ibridger.Wire
