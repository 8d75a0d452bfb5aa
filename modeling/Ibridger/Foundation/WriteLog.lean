import Ibridger.Foundation.LengthPrefix
import Mathlib.Data.List.Induction

/-! # Frames written in two parts

Several writers share a stream, and each writes the header of a frame and then its
payload. The log of their writes says whose bytes are whose, so it can be asked whether
each header is directly followed by its own payload.
-/

namespace LengthPrefix

universe u

/-- A write of one of the callers. -/
inductive Chunk (Symbol : Type u) where
  | header (call : Nat) (payload : List Symbol)
  | body (call : Nat) (payload : List Symbol)
deriving DecidableEq

/-- The frames that a log is made of, by caller, and a header without its payload at
the end. -/
structure Assembly (Symbol : Type u) where
  frames : List (Nat × List Symbol)
  half : Option (Nat × List Symbol)

variable {Symbol : Type u}

namespace Assembly

def empty : Assembly Symbol where
  frames := []
  half := none

/-- A write goes on with the frame whose header is there, or begins a frame where no
payload is missing. A frame without a payload is whole at once. -/
def add [DecidableEq Symbol] (assembly : Assembly Symbol) (chunk : Chunk Symbol) : Option (Assembly Symbol) :=
  match assembly.half, chunk with
  | none, .header call [] => some { assembly with frames := assembly.frames ++ [(call, [])] }
  | none, .header call payload => some { assembly with half := some (call, payload) }
  | some (owner, payload), .body call data =>
      if call = owner ∧ data = payload then
        some { frames := assembly.frames ++ [(owner, payload)], half := none }
      else none
  | none, .body _ _ => none
  | some _, .header _ _ => none

section Add

variable [DecidableEq Symbol] {assembly : Assembly Symbol} {call : Nat} {payload : List Symbol}

theorem add_empty (hnone : assembly.half = none) :
    assembly.add (.header call []) =
      some { frames := assembly.frames ++ [(call, [])], half := none } := by
  obtain ⟨frames, half⟩ := assembly
  subst hnone
  rfl

theorem add_header (hnone : assembly.half = none) (hpayload : payload ≠ []) :
    assembly.add (.header call payload) =
      some { frames := assembly.frames, half := some (call, payload) } := by
  obtain ⟨frames, half⟩ := assembly
  subst hnone
  cases payload with
  | nil => exact absurd rfl hpayload
  | cons symbol rest => rfl

theorem add_body (hhalf : assembly.half = some (call, payload)) :
    assembly.add (.body call payload) =
      some { frames := assembly.frames ++ [(call, payload)], half := none } := by
  obtain ⟨frames, half⟩ := assembly
  subst hhalf
  exact if_pos ⟨rfl, rfl⟩

/-- A header where a payload is missing cuts the frames apart. -/
theorem add_header_eq_none {other : Nat × List Symbol} (hhalf : assembly.half = some other) :
    assembly.add (.header call payload) = none := by
  obtain ⟨frames, half⟩ := assembly
  subst hhalf
  rfl

end Add

/-- The payloads of the frames. -/
def payloads (assembly : Assembly Symbol) : List (List Symbol) :=
  assembly.frames.map Prod.snd

end Assembly

/-- The frames of a log, if each header in it is directly followed by its own payload. -/
def assemble [DecidableEq Symbol] (log : List (Chunk Symbol)) : Option (Assembly Symbol) :=
  log.foldlM Assembly.add .empty

theorem assemble_concat [DecidableEq Symbol] (log : List (Chunk Symbol)) (chunk : Chunk Symbol) :
    assemble (log ++ [chunk]) = (assemble log).bind fun assembly => assembly.add chunk := by
  unfold assemble
  rw [List.foldlM_append]
  simp only [List.foldlM_cons, List.foldlM_nil, Option.bind_eq_bind,
    Option.pure_def]
  cases List.foldlM Assembly.add Assembly.empty log with
  | none => rfl
  | some assembly =>
      simp only [Option.bind_some]
      cases assembly.add chunk <;> rfl

namespace Header

variable (header : Header Symbol)

def chunkBytes : Chunk Symbol → List Symbol
  | .header _ payload => header.encode payload.length
  | .body _ payload => payload

/-- The bytes of a log. -/
def written (log : List (Chunk Symbol)) : List Symbol :=
  log.flatMap header.chunkBytes

@[simp] theorem written_nil : header.written [] = [] := rfl

@[simp] theorem written_append (first second : List (Chunk Symbol)) :
    header.written (first ++ second) = header.written first ++ header.written second := by
  simp [written]

/-- The bytes of a header without its payload. -/
def halfBytes : Option (Nat × List Symbol) → List Symbol
  | none => []
  | some (_, payload) => header.encode payload.length

end Header

section Written

variable [DecidableEq Symbol] (header : Header Symbol) {assembly next : Assembly Symbol}

/-- A write adds its bytes behind those of the frames. -/
theorem written_add {chunk : Chunk Symbol} (hadd : assembly.add chunk = some next) :
    header.stream next.payloads ++ header.halfBytes next.half =
      header.stream assembly.payloads ++ header.halfBytes assembly.half ++
        header.chunkBytes chunk := by
  obtain ⟨frames, half⟩ := assembly
  cases half with
  | none =>
      cases chunk with
      | body call payload => cases hadd
      | header call payload =>
          cases payload with
          | nil =>
              cases hadd
              simp [Assembly.payloads, Header.halfBytes, Header.chunkBytes, Header.frame]
          | cons symbol rest =>
              cases hadd
              simp [Assembly.payloads, Header.halfBytes, Header.chunkBytes]
  | some started =>
      obtain ⟨owner, payload⟩ := started
      cases chunk with
      | header call data => cases hadd
      | body call data =>
          obtain ⟨⟨rfl, rfl⟩, hnext⟩ := Option.ite_none_right_eq_some.mp hadd
          cases hnext
          simp [Assembly.payloads, Header.halfBytes, Header.chunkBytes, Header.frame]

/-- A log that is made of frames is written as their stream, and maybe a header. -/
theorem written_eq {log : List (Chunk Symbol)} (hassemble : assemble log = some assembly) :
    header.written log =
      header.stream assembly.payloads ++ header.halfBytes assembly.half := by
  induction log using List.reverseRecOn generalizing assembly with
  | nil =>
      cases hassemble
      rfl
  | append_singleton log chunk ih =>
      rw [assemble_concat] at hassemble
      obtain ⟨before, hbefore, hadd⟩ := Option.bind_eq_some_iff.mp hassemble
      rw [written_add header hadd, Header.written_append, ih hbefore]
      simp [Header.written]

/-- A reader finds the frames and no others, whichever header stands alone at the end. -/
theorem parse_written {log : List (Chunk Symbol)} (hassemble : assemble log = some assembly)
    (hfits : header.Fits assembly.payloads)
    (hhalf : ∀ call payload, assembly.half = some (call, payload) →
      payload ≠ [] ∧ payload.length ≤ header.limit) :
    (header.parse (header.written log)).frames = assembly.payloads := by
  rw [written_eq header hassemble, header.parse_stream_append hfits]
  have hrest : (header.parse (header.halfBytes assembly.half)).frames = [] := by
    cases hopen : assembly.half with
    | none => rw [Header.halfBytes, header.parse_nil]
    | some started =>
        obtain ⟨call, payload⟩ := started
        obtain ⟨hne, hlimit⟩ := hhalf call payload hopen
        rw [Header.halfBytes, header.parse_of_stuck]
        apply header.scan_of_strict_prefix hlimit
        · exact List.prefix_append _ _
        · intro heq
          have hlength := congrArg List.length heq
          rw [Header.length_frame, header.length_encode] at hlength
          have hpos := List.length_pos_of_ne_nil hne
          omega
  rw [hrest, List.append_nil]

end Written

end LengthPrefix
