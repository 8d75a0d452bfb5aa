import Ibridger.Protocol.SocketRestart

/-! # Whose path it is

A transport that closes unlinks the path even if the socket of another transport got it
meanwhile. Servers stay reachable until they close or a later `listen` takes the path
exactly as long as no transport does that.
-/

namespace Ibridger.Protocol

open Transition

/-- The steps of `close`. -/
def RestartEvent.closes : RestartEvent → Bool
  | .cppBeginClose _ | .cppFinishClose _ | .jsClose _ | .jsClosed _ => true
  | .cppBeginListen _ _ | .cppFinishListen _ _ | .jsBeginListen _ | .jsFinishListen _ => false

namespace Servers

variable {Place : Type} {paths : Cpp.Paths Place} (path : SocketPath paths)

/-! ## Sockets -/

/-- A socket belongs to one transport and is silent before it is bound. -/
structure Sockets (servers : Servers Place) : Prop where
  opened : ∀ x s, servers.fd x = some s → s < servers.files.opened
  listens : ∀ s, servers.files.listening s = true → s < servers.files.opened
  silent : ∀ x s, servers.binding x = true → servers.fd x = some s →
    servers.files.listening s = false
  apart : ∀ x y s, servers.fd x = some s → servers.fd y = some s → x = y

section Effect

variable {entry entry' : Option Nat} {listening listening' : Nat → Bool} {opened opened' : Nat}
  {fd fd' : Option Nat} {binding binding' : Bool} {act : Act}

theorem Effect.opened_le
    (heffect : Effect entry listening opened fd binding act entry' listening' opened' fd' binding') :
    opened ≤ opened' := by
  cases heffect with
  | took => exact Nat.le_succ _
  | _ => exact Nat.le_refl _

/-- The socket of a transport stays, or is the new one. -/
theorem Effect.fd_own
    (heffect : Effect entry listening opened fd binding act entry' listening' opened' fd' binding')
    {s : Nat} (hfd' : fd' = some s) : fd = some s ∨ s = opened ∧ opened' = opened + 1 := by
  cases heffect with
  | nothing hfd =>
      rcases hfd with rfl | rfl
      · exact .inl hfd'
      · cases hfd'
  | took =>
      cases hfd'
      exact .inr ⟨rfl, rfl⟩
  | bound | removed => exact .inl hfd'
  | stranded | refused | idled | shut | shutRemoved => cases hfd'

/-- A transport makes its own socket listen, once it has bound it. -/
theorem Effect.listening_own
    (heffect : Effect entry listening opened fd binding act entry' listening' opened' fd' binding')
    {s : Nat} (hlistens : listening' s = true) :
    listening s = true ∨ fd = some s ∧ binding' = false := by
  cases heffect with
  | @bound t hfd =>
      by_cases hst : s = t
      · subst hst
        exact .inr ⟨hfd, rfl⟩
      · rw [Function.update_of_ne hst] at hlistens
        exact .inl hlistens
  | @stranded t | @refused t | @shut t | @shutRemoved t =>
      by_cases hst : s = t
      · rw [hst, Function.update_self] at hlistens
        cases hlistens
      · rw [Function.update_of_ne hst] at hlistens
        exact .inl hlistens
  | nothing | took | idled | removed => exact .inl hlistens

/-- A transport that is binding was so, or its socket is new. -/
theorem Effect.binding_own
    (heffect : Effect entry listening opened fd binding act entry' listening' opened' fd' binding')
    (hbinding : binding' = true) :
    listening' = listening ∧ (binding = true ∨ fd' = some opened) := by
  cases heffect with
  | nothing | removed => exact ⟨rfl, .inl hbinding⟩
  | took => exact ⟨rfl, .inr rfl⟩
  | bound | stranded | refused | idled | shut | shutRemoved => cases hbinding

end Effect

section Moved

variable {path} {servers next : Servers Place} {event : RestartEvent}

theorem init_sockets : Sockets (init : Servers Place) := by
  refine ⟨?_, ?_, ?_, ?_⟩
  · intro x s hfd
    cases x <;> cases hfd
  · intro s hlistens
    cases hlistens
  · intro x s _ hfd
    cases x <;> cases hfd
  · intro x y s hfd
    cases x <;> cases hfd

theorem Moved.sockets (hmoved : Moved path servers next event) (hsockets : Sockets servers) :
    Sockets next := by
  have heffect := hmoved.effect
  have hopened : ∀ x s, next.fd x = some s →
      servers.fd x = some s ∨ x = event.party ∧ s = servers.files.opened ∧
        next.files.opened = servers.files.opened + 1 := by
    intro x s hfd
    by_cases hx : x = event.party
    · subst hx
      exact (heffect.fd_own hfd).imp_right fun h => ⟨rfl, h⟩
    · rw [(hmoved.others x hx).1] at hfd
      exact .inl hfd
  have hle := heffect.opened_le
  constructor
  · intro x s hfd
    rcases hopened x s hfd with hold | ⟨-, rfl, hsucc⟩
    · exact Nat.lt_of_lt_of_le (hsockets.opened x s hold) hle
    · rw [hsucc]
      exact Nat.lt_succ_self _
  · intro s hlistens
    rcases heffect.listening_own hlistens with hold | ⟨hown, -⟩
    · exact Nat.lt_of_lt_of_le (hsockets.listens s hold) hle
    · exact Nat.lt_of_lt_of_le (hsockets.opened _ s hown) hle
  · intro x s hbinding hfd
    by_contra hnow
    have hlistens : next.files.listening s = true := by simpa using hnow
    by_cases hx : x = event.party
    · subst hx
      obtain ⟨hsame, hwas | hnew⟩ := heffect.binding_own hbinding
      · rw [hsame] at hlistens
        rcases heffect.fd_own hfd with hold | ⟨rfl, -⟩
        · exact absurd hlistens (by simp [hsockets.silent _ s hwas hold])
        · exact absurd (hsockets.listens _ hlistens) (by omega)
      · rw [hsame] at hlistens
        cases hfd.symm.trans hnew
        exact absurd (hsockets.listens _ hlistens) (by omega)
    · obtain ⟨hsameFd, hsameBinding⟩ := hmoved.others x hx
      rw [hsameFd] at hfd
      rw [hsameBinding] at hbinding
      rcases heffect.listening_own hlistens with hold | ⟨hown, -⟩
      · exact absurd hold (by simp [hsockets.silent x s hbinding hfd])
      · exact hx (hsockets.apart x _ s hfd hown)
  · intro x y s hx hy
    rcases hopened x s hx with hold | ⟨rfl, rfl, -⟩
    · rcases hopened y s hy with hold' | ⟨-, rfl, -⟩
      · exact hsockets.apart x y s hold hold'
      · exact absurd (hsockets.opened x _ hold) (by omega)
    · rcases hopened y _ hy with hold' | ⟨rfl, -, -⟩
      · exact absurd (hsockets.opened y _ hold') (by omega)
      · rfl

end Moved

/-! ## The record -/

section Note

variable (servers : Servers Place) (x : Party) (act : Act)

@[simp] theorem note_files : (servers.note x act).files = servers.files := by
  cases act <;> rfl

@[simp] theorem note_cpp : (servers.note x act).cpp = servers.cpp := by
  cases act <;> rfl

@[simp] theorem note_js : (servers.note x act).js = servers.js := by
  cases act <;> rfl

@[simp] theorem note_fd (y : Party) : (servers.note x act).fd y = servers.fd y := by
  cases y <;> simp [fd]

@[simp] theorem note_binding (y : Party) : (servers.note x act).binding y = servers.binding y := by
  cases y <;> simp [binding]

theorem note_latest_of_ne {y : Party} (hy : y ≠ x) :
    (servers.note x act).latest y = servers.latest y := by
  cases act with
  | bound s => exact Function.update_of_ne hy ..
  | stranded s => exact Function.update_of_ne hy ..
  | _ => rfl

end Note

/-- The path belongs to the socket that got it last, and the holder listens on it. -/
structure Steady (servers : Servers Place) : Prop where
  sockets : Sockets servers
  onPath : OnPath path servers
  entry_eq : servers.files.entry path.name = servers.maker
  holder : ∀ s, servers.holder = some s →
    servers.maker = some s ∧ servers.files.listening s = true
  latest : ∀ x s, servers.fd x = some s → servers.binding x = false →
    servers.latest x = some s

/-- A transport that closes unlinks a path that another one's socket has got meanwhile,
or that its own new socket has got while the old one was closing. -/
def Harmful [DecidableEq Place] (servers : Servers Place) (event : RestartEvent) : Prop :=
  ∃ s, servers.maker = some s ∧
    (servers.actOf path event = .removed ∧
        (servers.latest event.party ≠ some s ∨ servers.holder = some s) ∨
      servers.actOf path event = .shutRemoved ∧ servers.latest event.party ≠ some s)

/-- What is asked of a step: `close` removes the file only if it is that of the latest
`listen`, and the holder is reached at the path. -/
structure Kept (servers : Servers Place) (event : RestartEvent) (next : Servers Place) : Prop where
  removes_own : event.closes = true → ∀ s, servers.files.entry path.name = some s →
    next.files.entry path.name = none → servers.latest event.party = some s
  reached : ∀ s, next.holder = some s → next.files.reached path.name = some s

/-! ## What a step keeps -/

section Step

variable {path} [DecidableEq Place] {servers next : Servers Place} {event : RestartEvent}

omit [DecidableEq Place] in
theorem onPath_setCpp {i : Nat}
    {after : SocketFiles (Cpp.SocketName Place) × Cpp.UnixSocketTransport}
    (honPath : OnPath path servers)
    (hafter : after.2.endpoint = (servers.cpp i).endpoint ∨ after.2.endpoint = [] ∨
      after.2.endpoint = path.endpoint) : OnPath path (servers.setCpp i after) := by
  intro j
  by_cases hj : j = i
  · subst hj
    have hself : (servers.setCpp j after).cpp j = after.2 := Function.update_self ..
    rw [hself]
    rcases hafter with hsame | hafter
    · rw [hsame]
      exact honPath j
    · exact hafter
  · have hother : (servers.setCpp i after).cpp j = servers.cpp j := Function.update_of_ne hj ..
    rw [hother]
    exact honPath j

theorem onPath_move (honPath : OnPath path servers)
    (hmove : servers.move path event = some next) : OnPath path next := by
  cases event with
  | cppBeginListen i error =>
      obtain ⟨-, hnext⟩ := Option.ite_none_right_eq_some.mp hmove
      cases hnext
      apply onPath_setCpp honPath
      cases error <;> exact .inl rfl
  | cppFinishListen i error =>
      simp only [move] at hmove
      split at hmove
      next s hphase hserver =>
        cases hmove
        apply onPath_setCpp honPath
        unfold Cpp.UnixSocketTransport.finishListen
        repeat' split
        all_goals simp
      next => cases hmove
  | cppBeginClose i =>
      obtain ⟨-, hnext⟩ := Option.ite_none_right_eq_some.mp hmove
      cases hnext
      exact onPath_setCpp honPath (.inl rfl)
  | cppFinishClose i =>
      obtain ⟨-, hnext⟩ := Option.ite_none_right_eq_some.mp hmove
      cases hnext
      apply onPath_setCpp honPath
      unfold Cpp.UnixSocketTransport.finishClose
      split <;> simp
  | jsBeginListen i | jsClose i | jsClosed i =>
      obtain ⟨-, hnext⟩ := Option.ite_none_left_eq_some.mp hmove
      cases hnext
      exact honPath
  | jsFinishListen i =>
      simp only [move] at hmove
      split at hmove
      next =>
        cases hmove
        exact honPath
      next => cases hmove

/-- After a step that is not harmful the path is that of the record. -/
theorem Steady.entry_note (hsteady : Steady path servers)
    (hmoved : Moved path servers next event) (hharmless : ¬ Harmful path servers event) :
    next.files.entry path.name =
      (next.note event.party (servers.actOf path event)).maker := by
  have hentry := hsteady.entry_eq
  have hmaker := hmoved.maker_eq
  have hlatest := hmoved.latest_eq
  have heffect := hmoved.effect
  -- a path that a transport may remove is its own
  have hown : ∀ {x : Option Nat} {y : Option Nat}, (∀ s, x = some s → y = some s) →
      none = if x = y then none else x := by
    intro x y h
    cases x with
    | none => simp
    | some s => rw [h s rfl, if_pos rfl]
  generalize hact : servers.actOf path event = act at heffect
  generalize next.files.entry path.name = entry' at heffect
  generalize next.files.listening = listening' at heffect
  generalize next.files.opened = opened' at heffect
  generalize next.fd event.party = fd' at heffect
  generalize next.binding event.party = binding' at heffect
  cases heffect with
  | nothing | refused | idled | shut => exact hentry.trans hmaker.symm
  | took | bound | stranded => rfl
  | removed =>
      change none = if next.maker = next.latest event.party then none else next.maker
      rw [hmaker, hlatest]
      apply hown
      intro s hs
      by_contra hnot
      exact hharmless ⟨s, hs, .inl ⟨hact, .inl hnot⟩⟩
  | shutRemoved =>
      change none = if next.maker = next.latest event.party then none else next.maker
      rw [hmaker, hlatest]
      apply hown
      intro s hs
      by_contra hnot
      exact hharmless ⟨s, hs, .inr ⟨hact, hnot⟩⟩

/-- The holder still listens, and nobody else has got the path. -/
theorem Steady.holder_note (hsteady : Steady path servers)
    (hmoved : Moved path servers next event) (hharmless : ¬ Harmful path servers event) {t : Nat}
    (hholder : (next.note event.party (servers.actOf path event)).holder = some t) :
    (next.note event.party (servers.actOf path event)).maker = some t ∧
      next.files.listening t = true := by
  have hentry := hsteady.entry_eq
  have hlisten := hsteady.holder t
  have hsilent := hsteady.sockets.silent event.party
  have hown := hsteady.latest event.party
  have hmaker := hmoved.maker_eq
  have hlatest := hmoved.latest_eq
  have hholder_eq := hmoved.holder_eq
  have heffect := hmoved.effect
  generalize hact : servers.actOf path event = act at heffect hholder ⊢
  generalize next.files.entry path.name = entry' at heffect
  generalize next.files.listening = listening' at heffect ⊢
  generalize next.files.opened = opened' at heffect
  generalize next.fd event.party = fd' at heffect
  generalize next.binding event.party = binding' at heffect
  -- where the holder is not the socket that the transport closes
  have hshut : ∀ {s : Nat}, servers.fd event.party = some s →
      servers.binding event.party = false → (next.noteShut event.party).holder = some t →
      servers.holder = some t ∧ t ≠ s := by
    intro s hfd hfree hnow
    have hnow' : (if next.holder = next.latest event.party then none else next.holder) = some t :=
      hnow
    rw [hholder_eq, hlatest, hown s hfd hfree] at hnow'
    split at hnow'
    · cases hnow'
    next hne =>
      refine ⟨hnow', ?_⟩
      rintro rfl
      exact hne hnow'
  cases heffect with
  | nothing =>
      rw [← hmaker, ← hholder_eq] at hlisten
      exact hlisten hholder
  | took => cases hholder
  | bound =>
      cases hholder
      exact ⟨rfl, Function.update_self ..⟩
  | stranded _ _ hfree =>
      -- nobody holds a free path
      have hold : servers.holder = some t := hholder_eq.symm.trans hholder
      rw [← hentry, hfree] at hlisten
      cases (hlisten hold).1
  | @refused s hfd hbinding =>
      have hold : servers.holder = some t := hholder_eq.symm.trans hholder
      obtain ⟨hmade, hlistens⟩ := hlisten hold
      refine ⟨hmaker.trans hmade, ?_⟩
      rw [Function.update_of_ne, hlistens]
      rintro rfl
      cases (hsilent t hbinding hfd).symm.trans hlistens
  | idled hfd =>
      have hnow : (if next.holder = next.latest event.party then none else next.holder) = some t :=
        hholder
      split at hnow
      · cases hnow
      · obtain ⟨hmade, hlistens⟩ := hlisten (hholder_eq.symm.trans hnow)
        exact ⟨hmaker.trans hmade, hlistens⟩
  | @shut s hfd hfree =>
      obtain ⟨hold, hne⟩ := hshut hfd hfree hholder
      obtain ⟨hmade, hlistens⟩ := hlisten hold
      refine ⟨hmaker.trans hmade, ?_⟩
      rw [Function.update_of_ne hne, hlistens]
  | removed =>
      -- the path of the holder is not removed
      have hold : servers.holder = some t := hholder_eq.symm.trans hholder
      exact absurd ⟨t, (hlisten hold).1, .inl ⟨hact, .inr hold⟩⟩ hharmless
  | @shutRemoved s hfd hfree =>
      obtain ⟨hold, hne⟩ := hshut hfd hfree hholder
      have hmade := (hlisten hold).1
      exfalso
      apply hharmless
      refine ⟨t, hmade, .inr ⟨hact, ?_⟩⟩
      rw [hown s hfd hfree]
      intro hsame
      cases hsame
      exact hne rfl

omit [DecidableEq Place] in
theorem Steady.latest_note (hsteady : Steady path servers)
    (hmoved : Moved path servers next event) {x : Party} {t : Nat} (hfd : next.fd x = some t)
    (hfree : next.binding x = false) :
    (next.note event.party (servers.actOf path event)).latest x = some t := by
  have hown := hsteady.latest x
  have hlatest := hmoved.latest_eq
  by_cases hx : x = event.party
  · subst hx
    have heffect := hmoved.effect
    generalize servers.actOf path event = act at heffect ⊢
    generalize next.files.entry path.name = entry' at heffect
    generalize next.files.listening = listening' at heffect
    generalize next.files.opened = opened' at heffect
    generalize next.fd event.party = fd' at heffect hfd
    generalize next.binding event.party = binding' at heffect hfree
    rw [← hlatest] at hown
    cases heffect with
    | nothing hsame =>
        rcases hsame with rfl | rfl
        · exact hown t hfd hfree
        · cases hfd
    | took => cases hfree
    | bound hserver =>
        cases hserver.symm.trans hfd
        exact Function.update_self ..
    | removed => exact hown t hfd hfree
    | stranded | refused | idled | shut | shutRemoved => cases hfd
  · obtain ⟨hsameFd, hsameBinding⟩ := hmoved.others x hx
    rw [note_latest_of_ne _ _ _ hx, hlatest]
    rw [hsameFd] at hfd
    rw [hsameBinding] at hfree
    exact hown t hfd hfree

theorem step_eq_some {noted : Servers Place} (hstep : step path servers event = some noted) :
    ∃ next, servers.move path event = some next ∧
      next.note event.party (servers.actOf path event) = noted := by
  simpa [step] using hstep

theorem Steady.step (hsteady : Steady path servers) (hharmless : ¬ Harmful path servers event)
    (hstep : Servers.step path servers event = some next) : Steady path next := by
  obtain ⟨moved, hmove, rfl⟩ := step_eq_some hstep
  have hmoved := move_moved hsteady.onPath hmove
  have hsockets := hmoved.sockets hsteady.sockets
  refine ⟨⟨?_, ?_, ?_, ?_⟩, ?_, ?_, ?_, ?_⟩
  · simpa using hsockets.opened
  · simpa using hsockets.listens
  · simpa using hsockets.silent
  · simpa using hsockets.apart
  · simpa [OnPath] using onPath_move hsteady.onPath hmove
  · rw [note_files]
    exact hsteady.entry_note hmoved hharmless
  · intro t hholder
    rw [note_files]
    exact hsteady.holder_note hmoved hharmless hholder
  · intro x t hfd hfree
    rw [note_fd] at hfd
    rw [note_binding] at hfree
    exact hsteady.latest_note hmoved hfd hfree

omit [DecidableEq Place] in
theorem actOf_ne_took (hcloses : event.closes = true) : servers.actOf path event ≠ .took := by
  intro hact
  cases event with
  | cppBeginListen i error => simp [RestartEvent.closes] at hcloses
  | cppFinishListen i error => simp [RestartEvent.closes] at hcloses
  | jsBeginListen i | jsFinishListen i => simp [RestartEvent.closes] at hcloses
  | cppBeginClose i | jsClosed i => simp [actOf] at hact
  | cppFinishClose i | jsClose i =>
      simp only [actOf] at hact
      split at hact <;> simp at hact

omit [DecidableEq Place] in
theorem closes_of_actOf
    (hact : servers.actOf path event = .removed ∨ servers.actOf path event = .shutRemoved) :
    event.closes = true := by
  cases event with
  | cppBeginListen i error =>
      simp only [actOf] at hact
      split at hact <;> simp at hact
  | cppFinishListen i error =>
      simp only [actOf, bindAct] at hact
      split at hact <;> simp at hact
  | jsBeginListen i => simp [actOf] at hact
  | jsFinishListen i =>
      simp only [actOf, bindAct] at hact
      split at hact <;> simp at hact
  | cppBeginClose | cppFinishClose | jsClose | jsClosed => rfl

/-- A step of `close` that takes the path away does so because it unlinks it. -/
theorem Steady.removes_own (hsteady : Steady path servers)
    (hharmless : ¬ Harmful path servers event) (hmoved : Moved path servers next event)
    (hcloses : event.closes = true) {s : Nat} (hentry : servers.files.entry path.name = some s)
    (hgone : next.files.entry path.name = none) : servers.latest event.party = some s := by
  have hmaker : servers.maker = some s := hsteady.entry_eq.symm.trans hentry
  by_contra hnot
  have heffect := hmoved.effect
  rw [hentry, hgone] at heffect
  generalize hact : servers.actOf path event = act at heffect
  generalize next.files.listening = listening' at heffect
  generalize next.files.opened = opened' at heffect
  generalize next.fd event.party = fd' at heffect
  generalize next.binding event.party = binding' at heffect
  cases heffect with
  | took => exact absurd hact (actOf_ne_took hcloses)
  | removed => exact hharmless ⟨s, hmaker, .inl ⟨hact, .inl hnot⟩⟩
  | shutRemoved => exact hharmless ⟨s, hmaker, .inr ⟨hact, hnot⟩⟩

/-- A harmful step is one of `close`, and leaves the path empty. -/
theorem Harmful.gone (hharmful : Harmful path servers event)
    (hmoved : Moved path servers next event) :
    event.closes = true ∧ next.files.entry path.name = none := by
  obtain ⟨s, -, hact⟩ := hharmful
  have hact' : servers.actOf path event = .removed ∨ servers.actOf path event = .shutRemoved :=
    hact.imp And.left And.left
  constructor
  · exact closes_of_actOf hact'
  · have heffect := hmoved.effect
    generalize servers.actOf path event = act at heffect hact'
    generalize next.files.entry path.name = entry' at heffect ⊢
    generalize next.files.listening = listening' at heffect
    generalize next.files.opened = opened' at heffect
    generalize next.fd event.party = fd' at heffect
    generalize next.binding event.party = binding' at heffect
    cases heffect with
    | removed | shutRemoved => rfl
    | _ => simp at hact'

end Step

theorem init_steady : Steady path (init : Servers Place) where
  sockets := init_sockets
  onPath := fun _ => .inl rfl
  entry_eq := rfl
  holder := fun _ h => (by cases h)
  latest := fun x _ h _ => (by cases x <;> cases h)

/-- Files are removed by their own transports only, and servers stay reachable, exactly
as long as no `close` is harmful. -/
theorem run_kept_iff {Place : Type} [DecidableEq Place] (paths : Cpp.Paths Place)
    (path : SocketPath paths) (events : List RestartEvent) :
    Along (step path) (Kept path) init events ↔
      Guarded (step path) (fun servers event => ¬ Harmful path servers event) init events := by
  apply along_iff_guarded (Steady path)
  · intro servers event next hsteady hharmless hstep
    have hsteady' := hsteady.step hharmless hstep
    obtain ⟨moved, hmove, rfl⟩ := step_eq_some hstep
    refine ⟨hsteady', ?_, ?_⟩
    · intro hcloses s hentry hgone
      rw [note_files] at hgone
      exact hsteady.removes_own hharmless (move_moved hsteady.onPath hmove) hcloses hentry hgone
    · intro s hholder
      obtain ⟨hmaker, hlistens⟩ := hsteady'.holder s hholder
      exact SocketFiles.reached_eq_some.mpr ⟨hsteady'.entry_eq.trans hmaker, hlistens⟩
  · intro servers event next hsteady hharmful hstep hkept
    obtain ⟨moved, hmove, rfl⟩ := step_eq_some hstep
    have hmoved := move_moved hsteady.onPath hmove
    obtain ⟨hcloses, hgone⟩ := (not_not.mp hharmful).gone hmoved
    obtain ⟨s, hmaker, hact⟩ := not_not.mp hharmful
    have hgone' : (moved.note event.party (servers.actOf path event)).files.entry path.name =
        none := by
      rw [note_files]
      exact hgone
    have hown : servers.latest event.party = some s :=
      hkept.removes_own hcloses s (hsteady.entry_eq.trans hmaker) hgone'
    rcases hact with ⟨hremoved, hforeign | hholder⟩ | ⟨-, hforeign⟩
    · exact hforeign hown
    · -- the holder lost its path
      have hheld : (moved.note event.party (servers.actOf path event)).holder = some s := by
        rw [hremoved]
        exact hmoved.holder_eq.trans hholder
      have hreached := (SocketFiles.reached_eq_some.mp (hkept.reached s hheld)).1
      cases hreached.symm.trans hgone'
    · exact hforeign hown
  · exact init_steady path

def socketPath : SocketPath Cpp.Transports.ownFiles where
  endpoint := [97]
  place := [97]
  address_eq := rfl
  unlinked_eq := rfl

/-- Server 1 takes the path over, then server 0 shuts down, in C++ and in JS. -/
theorem restart_removes_new_file :
    (∃ servers, run (step socketPath) init
        [.cppBeginListen 0 none, .cppFinishListen 0 none, .cppBeginListen 1 none,
          .cppFinishListen 1 none, .cppBeginClose 0, .cppFinishClose 0] = some servers ∧
      servers.holder = some 1 ∧ servers.files.reached socketPath.name = none) ∧
      (∃ servers, run (step socketPath) init
          [.jsBeginListen 0, .jsFinishListen 0, .jsBeginListen 1, .jsFinishListen 1, .jsClose 0] =
            some servers ∧
        servers.holder = some 1 ∧ servers.files.reached socketPath.name = none) ∧
      ¬ ∀ events, Along (step socketPath) (Kept socketPath) init events := by
  refine ⟨⟨_, rfl, rfl, rfl⟩, ⟨_, rfl, rfl, rfl⟩, ?_⟩
  intro hall
  have halong := hall [.jsBeginListen 0, .jsFinishListen 0, .jsBeginListen 1, .jsFinishListen 1,
    .jsClose 0]
  obtain ⟨-, halong⟩ := halong _ rfl
  obtain ⟨-, halong⟩ := halong _ rfl
  obtain ⟨-, halong⟩ := halong _ rfl
  obtain ⟨-, halong⟩ := halong _ rfl
  obtain ⟨hkept, -⟩ := halong _ rfl
  cases hkept.reached 1 rfl

end Servers

end Ibridger.Protocol
