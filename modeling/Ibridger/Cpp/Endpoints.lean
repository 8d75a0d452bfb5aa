import Ibridger.Cpp.UnixSocketTransport
import Mathlib.Data.List.TakeWhile

/-! # Endpoints of the C++ Unix socket transport

`bind` and `connect` use as much of an endpoint as fits into `sun_path`, `unlink` uses
all of it. Two endpoints that are cut to the same path are one, and the file of an
endpoint that is cut stays behind when its transport closes.
-/

namespace Ibridger.Cpp.Transports

open Transition UnixSocketTransport

variable {Place : Type} {paths : Paths Place}

/-! ## Addresses -/

theorem address_file {endpoint : List UInt8} {place : Place}
    (haddress : paths.address endpoint = .ok (.file place)) :
    paths.resolve (sunPath endpoint) = .ok place := by
  unfold Paths.address at haddress
  split at haddress
  · cases haddress
  · cases hresolve : paths.resolve (sunPath endpoint) with
    | error err =>
        rw [hresolve] at haddress
        cases haddress
    | ok found =>
        rw [hresolve] at haddress
        cases haddress
        rfl

theorem address_abstract {endpoint : List UInt8}
    (haddress : paths.address endpoint = .ok .abstract) : sunPath endpoint = [] := by
  unfold Paths.address at haddress
  split at haddress
  · assumption
  · cases hresolve : paths.resolve (sunPath endpoint) with
    | error err =>
        rw [hresolve] at haddress
        cases haddress
    | ok found =>
        rw [hresolve] at haddress
        cases haddress

/-! ## What belongs to whom -/

/-- Sockets are never used twice, and the name of a listening socket is the address of
its transport's endpoint. -/
structure Owned (paths : Paths Place) (system : Transports Place) : Prop where
  opened : ∀ i s, (system.transport i).serverFd = some s → s < system.files.opened
  entries : ∀ name s, system.files.entry name = some s → s < system.files.opened
  listening : ∀ s, system.files.listening s = true → s < system.files.opened
  apart : ∀ i j s, (system.transport i).serverFd = some s →
    (system.transport j).serverFd = some s → i = j
  unbound : ∀ i endpoint s, (system.transport i).phase = .binding endpoint →
    (system.transport i).serverFd = some s →
    system.files.listening s = false ∧ ∀ name, system.files.entry name ≠ some s
  bound : ∀ i s, (system.transport i).serverFd = some s → system.files.listening s = true →
    ∀ name, system.files.entry name = some s →
      paths.address (system.transport i).endpoint = .ok name
  removing : ∀ i, (system.transport i).phase = .removing → (system.transport i).serverFd = none

theorem init_owned : Owned paths (init : Transports Place) where
  opened := fun _ _ h => (by cases h)
  entries := fun _ _ h => (by cases h)
  listening := fun _ h => (by cases h)
  apart := fun _ _ _ h => (by cases h)
  unbound := fun _ _ _ h => (by cases h)
  bound := fun _ _ h => (by cases h)
  removing := fun _ _ => rfl

theorem set_transport (system : Transports Place) (i : Nat)
    (next : SocketFiles (SocketName Place) × UnixSocketTransport) :
    (system.set i next).transport i = next.2 :=
  Function.update_self ..

theorem set_set (system : Transports Place) (i : Nat)
    (first second : SocketFiles (SocketName Place) × UnixSocketTransport) :
    (system.set i first).set i second = system.set i second := by
  unfold set
  rw [Function.update_idem]

/-- The socket that a transport has, or the next one. -/
def Own (system : Transports Place) (i s : Nat) : Prop :=
  (system.transport i).serverFd = some s ∨ s = system.files.opened

/-- A transport touches the names and sockets of nobody else, but may unlink. -/
structure Touches (system : Transports Place) (i : Nat) (files : SocketFiles (SocketName Place)) :
    Prop where
  opened : system.files.opened ≤ files.opened
  entry : ∀ name s, files.entry name = some s →
    system.files.entry name = some s ∨ system.Own i s ∧ s < files.opened
  listening : ∀ s, files.listening s = true →
    system.files.listening s = true ∨ system.Own i s ∧ s < files.opened

/-- What a transport is left with. -/
structure Tidy (paths : Paths Place) (system : Transports Place) (i : Nat)
    (files : SocketFiles (SocketName Place)) (transport : UnixSocketTransport) : Prop where
  own : ∀ s, transport.serverFd = some s → system.Own i s ∧ s < files.opened
  unbound : ∀ endpoint s, transport.phase = .binding endpoint → transport.serverFd = some s →
    files.listening s = false ∧ ∀ name, files.entry name ≠ some s
  bound : ∀ s, transport.serverFd = some s → files.listening s = true →
    ∀ name, files.entry name = some s → paths.address transport.endpoint = .ok name
  removing : transport.phase = .removing → transport.serverFd = none

section Step

variable {system next : Transports Place} {i : Nat} {files : SocketFiles (SocketName Place)}
  {transport : UnixSocketTransport}

theorem Owned.not_own (howned : Owned paths system) {j s : Nat} (hj : j ≠ i)
    (hfd : (system.transport j).serverFd = some s) : ¬ system.Own i s := by
  rintro (hown | rfl)
  · exact hj (howned.apart j i s hfd hown)
  · exact absurd (howned.opened j _ hfd) (by omega)

theorem Owned.set (howned : Owned paths system) (htouches : Touches system i files)
    (htidy : Tidy paths system i files transport) :
    Owned paths (system.set i (files, transport)) := by
  have hself : (system.set i (files, transport)).transport i = transport :=
    Function.update_self ..
  have hother : ∀ {j}, j ≠ i →
      (system.set i (files, transport)).transport j = system.transport j := by
    intro j hj
    exact Function.update_of_ne hj ..
  -- what another transport has is as before
  have hkept : ∀ {j s}, j ≠ i → (system.transport j).serverFd = some s →
      (∀ name, files.entry name = some s → system.files.entry name = some s) ∧
        (files.listening s = true → system.files.listening s = true) := by
    intro j s hj hfd
    have hnot := howned.not_own hj hfd
    constructor
    · intro name hentry
      rcases htouches.entry name s hentry with hold | ⟨hown, -⟩
      · exact hold
      · exact absurd hown hnot
    · intro hlistening
      rcases htouches.listening s hlistening with hold | ⟨hown, -⟩
      · exact hold
      · exact absurd hown hnot
  constructor
  · intro j s hfd
    by_cases hj : j = i
    · subst hj
      rw [hself] at hfd
      exact (htidy.own s hfd).2
    · rw [hother hj] at hfd
      exact Nat.lt_of_lt_of_le (howned.opened j s hfd) htouches.opened
  · intro name s hentry
    rcases htouches.entry name s hentry with hold | ⟨-, hlt⟩
    · exact Nat.lt_of_lt_of_le (howned.entries name s hold) htouches.opened
    · exact hlt
  · intro s hlistening
    rcases htouches.listening s hlistening with hold | ⟨-, hlt⟩
    · exact Nat.lt_of_lt_of_le (howned.listening s hold) htouches.opened
    · exact hlt
  · intro j k s hj hk
    by_cases hji : j = i
    · by_cases hki : k = i
      · rw [hji, hki]
      · subst hji
        rw [hself] at hj
        rw [hother hki] at hk
        exact absurd (htidy.own s hj).1 (howned.not_own hki hk)
    · by_cases hki : k = i
      · subst hki
        rw [hself] at hk
        rw [hother hji] at hj
        exact absurd (htidy.own s hk).1 (howned.not_own hji hj)
      · rw [hother hji] at hj
        rw [hother hki] at hk
        exact howned.apart j k s hj hk
  · intro j endpoint s hphase hfd
    by_cases hj : j = i
    · subst hj
      rw [hself] at hphase hfd
      exact htidy.unbound endpoint s hphase hfd
    · rw [hother hj] at hphase hfd
      obtain ⟨hlistening, hentry⟩ := howned.unbound j endpoint s hphase hfd
      obtain ⟨hnames, hlistens⟩ := hkept hj hfd
      refine ⟨?_, fun name hname => hentry name (hnames name hname)⟩
      change files.listening s = false
      by_contra hnow
      rw [hlistens (by simpa using hnow)] at hlistening
      cases hlistening
  · intro j s hfd hlistening name hentry
    by_cases hj : j = i
    · subst hj
      rw [hself] at hfd ⊢
      exact htidy.bound s hfd hlistening name hentry
    · rw [hother hj] at hfd ⊢
      obtain ⟨hnames, hlistens⟩ := hkept hj hfd
      exact howned.bound j s hfd (hlistens hlistening) name (hnames name hentry)
  · intro j hphase
    by_cases hj : j = i
    · subst hj
      rw [hself] at hphase ⊢
      exact htidy.removing hphase
    · rw [hother hj] at hphase ⊢
      exact howned.removing j hphase

/-! ## What a step touches -/

theorem touches_refl (system : Transports Place) (i : Nat) : Touches system i system.files :=
  ⟨Nat.le_refl _, fun _ _ h => .inl h, fun _ h => .inl h⟩

theorem touches_socket (system : Transports Place) (i : Nat) :
    Touches system i system.files.socket :=
  ⟨Nat.le_succ _, fun _ _ h => .inl h, fun _ h => .inl h⟩

theorem Touches.listen (htouches : Touches system i files) {s : Nat} (hown : system.Own i s)
    (hlt : s < files.opened) : Touches system i (files.listen s) := by
  refine ⟨htouches.opened, htouches.entry, ?_⟩
  intro other hlistening
  rw [SocketFiles.listen_listening] at hlistening
  split at hlistening
  next hsame =>
    subst hsame
    exact .inr ⟨hown, hlt⟩
  next => exact htouches.listening other hlistening

theorem Touches.shut (htouches : Touches system i files) (s : Nat) :
    Touches system i (files.shut s) := by
  refine ⟨htouches.opened, htouches.entry, ?_⟩
  intro other hlistening
  rw [SocketFiles.shut_listening] at hlistening
  split at hlistening
  · cases hlistening
  · exact htouches.listening other hlistening

/-- A transport without a socket is tidy. -/
theorem tidy_of_none {files : SocketFiles (SocketName Place)} {transport : UnixSocketTransport}
    (hnone : transport.serverFd = none) : Tidy paths system i files transport where
  own := fun _ h => (by rw [hnone] at h; cases h)
  unbound := fun _ _ _ h => (by rw [hnone] at h; cases h)
  bound := fun _ h => (by rw [hnone] at h; cases h)
  removing := fun _ => hnone

variable [DecidableEq Place]

theorem Touches.bind (htouches : Touches system i files) {bound : SocketFiles (SocketName Place)}
    {name : SocketName Place} {s : Nat} (hbind : files.bind name s = some bound)
    (hown : system.Own i s) (hlt : s < files.opened) : Touches system i bound := by
  obtain ⟨-, rfl⟩ := SocketFiles.bind_eq_some.mp hbind
  refine ⟨htouches.opened, ?_, htouches.listening⟩
  intro other t hentry
  by_cases hother : other = name
  · subst hother
    dsimp only at hentry
    rw [Function.update_self] at hentry
    cases hentry
    exact .inr ⟨hown, hlt⟩
  · dsimp only at hentry
    rw [Function.update_of_ne hother] at hentry
    exact htouches.entry other t hentry

theorem Touches.unlinkName (htouches : Touches system i files) (name : SocketName Place) :
    Touches system i (files.unlink name) := by
  refine ⟨htouches.opened, ?_, htouches.listening⟩
  intro other s hentry
  rw [SocketFiles.unlink_entry] at hentry
  split at hentry
  · cases hentry
  · exact htouches.entry other s hentry

theorem Touches.unlink (htouches : Touches system i files) (endpoint : List UInt8) :
    Touches system i (UnixSocketTransport.unlink paths files endpoint) := by
  unfold UnixSocketTransport.unlink
  split
  · exact htouches
  · exact htouches.unlinkName _

theorem Touches.closeFd (htouches : Touches system i files) (s : Nat) :
    Touches system i (UnixSocketTransport.closeFd files s) := by
  unfold UnixSocketTransport.closeFd
  split
  · exact (htouches.shut s).unlinkName _
  · exact htouches.shut s

theorem unlink_frame (files : SocketFiles (SocketName Place)) (endpoint : List UInt8) :
    (UnixSocketTransport.unlink paths files endpoint).listening = files.listening ∧
      (UnixSocketTransport.unlink paths files endpoint).opened = files.opened := by
  unfold UnixSocketTransport.unlink
  split
  · exact ⟨rfl, rfl⟩
  · exact ⟨rfl, rfl⟩

theorem entry_of_unlink {files : SocketFiles (SocketName Place)} {endpoint : List UInt8}
    {name : SocketName Place} {s : Nat}
    (hentry : (UnixSocketTransport.unlink paths files endpoint).entry name = some s) :
    files.entry name = some s := by
  unfold UnixSocketTransport.unlink at hentry
  split at hentry
  · exact hentry
  · rw [SocketFiles.unlink_entry] at hentry
    split at hentry
    · cases hentry
    · exact hentry

/-- The socket of a `listen` that begins has no name and does not listen. -/
theorem Owned.beginListen (howned : Owned paths system) (endpoint : List UInt8)
    (error : Option Errno) :
    Owned paths (system.set i
      (UnixSocketTransport.beginListen paths system.files (system.transport i) endpoint error).2)
    := by
  unfold UnixSocketTransport.beginListen
  cases error with
  | some err => exact howned.set (touches_refl system i) (tidy_of_none rfl)
  | none =>
      have htouches := @Touches.unlink _ paths _ _ _ _ (touches_socket system i) endpoint
      obtain ⟨hlistening, hopened⟩ := @unlink_frame _ paths _ system.files.socket endpoint
      apply howned.set htouches
      -- no socket has had the number of the new one
      have hfresh : system.files.listening system.files.opened = false := by
        by_contra hnow
        have hlt := howned.listening system.files.opened (by simpa using hnow)
        omega
      refine ⟨?_, ?_, ?_, fun h => (by cases h)⟩
      · intro s hs
        cases hs
        exact ⟨.inr rfl, hopened ▸ Nat.lt_succ_self _⟩
      · intro _ s _ hs
        cases hs
        refine ⟨by rw [hlistening]; exact hfresh, ?_⟩
        intro name hname
        have hold : system.files.socket.entry name = some system.files.opened :=
          entry_of_unlink hname
        have hlt := howned.entries name _ hold
        omega
      · intro s hs hnow
        cases hs
        rw [hlistening] at hnow
        exact absurd (hfresh.symm.trans hnow) Bool.false_ne_true

theorem Owned.finishListen (howned : Owned paths system) {s : Nat} {endpoint : List UInt8}
    (hphase : (system.transport i).phase = .binding endpoint)
    (hfd : (system.transport i).serverFd = some s) (error : Option Errno) :
    Owned paths (system.set i
      (UnixSocketTransport.finishListen paths system.files (system.transport i) s endpoint
        error).2) := by
  have hown : system.Own i s := .inl hfd
  have hlt := howned.opened i s hfd
  obtain ⟨hsilent, hnameless⟩ := howned.unbound i endpoint s hphase hfd
  unfold UnixSocketTransport.finishListen
  split
  · exact howned.set ((touches_refl system i).closeFd s) (tidy_of_none rfl)
  next name haddress =>
    split
    · exact howned.set ((touches_refl system i).closeFd s) (tidy_of_none rfl)
    next bound err hbind =>
      exact howned.set (((touches_refl system i).bind hbind hown hlt).closeFd s)
        (tidy_of_none rfl)
    next bound hbind =>
      have hopened : bound.opened = system.files.opened := by
        obtain ⟨-, rfl⟩ := SocketFiles.bind_eq_some.mp hbind
        rfl
      apply howned.set (((touches_refl system i).bind hbind hown hlt).listen hown (hopened ▸ hlt))
      refine ⟨?_, fun _ _ h => (by cases h), ?_, fun h => (by cases h)⟩
      · intro t ht
        cases hfd.symm.trans ht
        exact ⟨hown, hopened ▸ hlt⟩
      · intro t ht _ other hentry
        cases hfd.symm.trans ht
        obtain ⟨-, rfl⟩ := SocketFiles.bind_eq_some.mp hbind
        -- the socket has this one name
        have hother : other = name := by
          by_contra hne
          apply hnameless other
          rw [← hentry]
          exact (Function.update_of_ne hne _ _).symm
        rw [hother]
        exact haddress

theorem Owned.beginClose (howned : Owned paths system) :
    Owned paths (system.set i (UnixSocketTransport.beginClose system.files (system.transport i)))
    := by
  unfold UnixSocketTransport.beginClose
  apply howned.set _ (tidy_of_none rfl)
  split
  · exact touches_refl system i
  · exact (touches_refl system i).closeFd _

theorem Owned.finishClose (howned : Owned paths system)
    (hphase : (system.transport i).phase = .removing) :
    Owned paths
      (system.set i (UnixSocketTransport.finishClose paths system.files (system.transport i))) := by
  have hnone := howned.removing i hphase
  unfold UnixSocketTransport.finishClose
  split
  · exact howned.set (touches_refl system i) (tidy_of_none hnone)
  · exact howned.set ((touches_refl system i).unlink _) (tidy_of_none hnone)

theorem Owned.step (howned : Owned paths system) {event : TransportEvent}
    (hstep : system.step paths event = some next) : Owned paths next := by
  cases event with
  | beginListen i endpoint error =>
      simp only [Transports.step] at hstep
      split at hstep <;> cases hstep
      exact howned.beginListen endpoint error
  | finishListen i error =>
      simp only [Transports.step] at hstep
      split at hstep <;> cases hstep
      next hphase hfd => exact howned.finishListen hphase hfd error
  | beginClose i =>
      simp only [Transports.step] at hstep
      split at hstep <;> cases hstep
      exact howned.beginClose
  | finishClose i =>
      simp only [Transports.step] at hstep
      split at hstep <;> cases hstep
      next hphase => exact howned.finishClose hphase

theorem reachable_owned (hreach : Reachable (Transports.step paths) init system) :
    Owned paths system :=
  hreach.invariant (Owned paths) (fun _ _ _ howned hstep => howned.step hstep) init_owned

end Step

/-! ## Listening, closing and listening again -/

section Listen

variable [DecidableEq Place] {files listened : SocketFiles (SocketName Place)}
  {transport listening : UnixSocketTransport} {endpoint : List UInt8} {name : SocketName Place}

/-- What a successful `listen` has done. -/
structure Listened (paths : Paths Place) (files : SocketFiles (SocketName Place))
    (transport : UnixSocketTransport) (endpoint : List UInt8)
    (listened : SocketFiles (SocketName Place)) (listening : UnixSocketTransport)
    (name : SocketName Place) : Prop where
  address_eq : paths.address endpoint = .ok name
  free : (UnixSocketTransport.unlink paths files.socket endpoint).entry name = none
  entry_eq : listened.entry =
    Function.update (UnixSocketTransport.unlink paths files.socket endpoint).entry name
      (some files.opened)
  opened_eq : listened.opened = files.opened + 1
  listening_eq : listening =
    { transport with serverFd := some files.opened, endpoint := endpoint, phase := .idle }

theorem listen_succeeds (haddress : paths.address endpoint = .ok name)
    (hfree : (UnixSocketTransport.unlink paths files.socket endpoint).entry name = none) :
    ∃ listened listening, listen paths files transport endpoint none none =
        (none, listened, listening) ∧
      Listened paths files transport endpoint listened listening name ∧
      listened.listening files.opened = true := by
  obtain ⟨-, hopened⟩ := @unlink_frame _ paths _ files.socket endpoint
  obtain ⟨bound, hbind, hentry, hsame⟩ : ∃ bound,
      (UnixSocketTransport.unlink paths files.socket endpoint).bind name files.opened = some bound ∧
      bound.entry = Function.update
        (UnixSocketTransport.unlink paths files.socket endpoint).entry name (some files.opened) ∧
      bound.opened = files.opened + 1 :=
    ⟨_, SocketFiles.bind_eq_some.mpr ⟨hfree, rfl⟩, rfl, hopened⟩
  refine ⟨bound.listen files.opened,
    { transport with serverFd := some files.opened, endpoint := endpoint, phase := .idle }, ?_,
    ⟨haddress, hfree, hentry, hsame, rfl⟩, ?_⟩
  · unfold UnixSocketTransport.listen UnixSocketTransport.beginListen UnixSocketTransport.finishListen
    dsimp only
    rw [haddress]
    dsimp only
    rw [hbind]
  · rw [SocketFiles.listen_listening, if_pos rfl]

theorem listened_of_listen {socketError listenError : Option Errno}
    (hlisten : listen paths files transport endpoint socketError listenError =
      (none, listened, listening)) :
    ∃ name, Listened paths files transport endpoint listened listening name := by
  unfold UnixSocketTransport.listen at hlisten
  cases socketError with
  | some err =>
      dsimp only [UnixSocketTransport.beginListen] at hlisten
      cases hlisten
  | none =>
      dsimp only [UnixSocketTransport.beginListen] at hlisten
      unfold UnixSocketTransport.finishListen at hlisten
      split at hlisten
      · cases hlisten
      next name haddress =>
        split at hlisten
        · cases hlisten
        · cases hlisten
        next bound hbind =>
          obtain ⟨hfree, rfl⟩ := SocketFiles.bind_eq_some.mp hbind
          cases hlisten
          obtain ⟨-, hopened⟩ := @unlink_frame _ paths _ files.socket endpoint
          exact ⟨name, haddress, hfree, rfl, hopened, rfl⟩

theorem closeFd_entry (files : SocketFiles (SocketName Place)) (s : Nat)
    (name : SocketName Place) :
    (closeFd files s).entry name =
      if name = .abstract ∧ files.entry .abstract = some s then none else files.entry name := by
  unfold closeFd
  split
  next habstract =>
    rw [SocketFiles.unlink_entry]
    simp only [habstract, and_true]
    rfl
  next habstract =>
    rw [if_neg (fun h => habstract h.2)]
    rfl

/-- The name `::unlink` removes is the name that was bound, or the name goes by itself. -/
def Whole (paths : Paths Place) (endpoint : List UInt8) : Prop :=
  ∀ place, paths.address endpoint = .ok (.file place) →
    paths.unlinked endpoint = .ok (.file place)

/-- No file is made for the abstract name, and none is unlinked. -/
theorem unlink_of_abstract (haddress : paths.address endpoint = .ok .abstract)
    (files : SocketFiles (SocketName Place)) :
    UnixSocketTransport.unlink paths files endpoint = files := by
  have hpath := address_abstract haddress
  have hempty : cStr endpoint = [] := by
    rw [sunPath, sunPathSize, List.take_eq_nil_iff] at hpath
    exact hpath.resolve_left (by decide)
  unfold UnixSocketTransport.unlink Paths.unlinked
  rw [hempty, paths.resolve_nil]
  rfl

theorem Listened.close_eq (hlistened : Listened paths files transport endpoint listened listening name) :
    close paths listened listening =
      (UnixSocketTransport.unlink paths (closeFd listened files.opened) endpoint,
        { transport with serverFd := none, endpoint := [], phase := .idle }) := by
  unfold close beginClose finishClose
  rw [hlistened.listening_eq]
  dsimp only
  split
  next hempty =>
    subst hempty
    rw [unlink_of_abstract rfl]
  next => rfl

/-- The new socket has one name. -/
theorem Listened.entry_iff (hlistened : Listened paths files transport endpoint listened listening name)
    (hentries : ∀ name s, files.entry name = some s → s < files.opened) (other : SocketName Place) :
    listened.entry other = some files.opened ↔ other = name := by
  rw [hlistened.entry_eq]
  constructor
  · intro hentry
    by_contra hne
    rw [Function.update_of_ne hne] at hentry
    have hold : files.socket.entry other = some files.opened := entry_of_unlink hentry
    exact absurd (hentries other _ hold) (Nat.lt_irrefl _)
  · rintro rfl
    exact Function.update_self ..

theorem unlink_of_unlinked {name : SocketName Place} (hunlinked : paths.unlinked endpoint = .ok name)
    (files : SocketFiles (SocketName Place)) :
    UnixSocketTransport.unlink paths files endpoint = files.unlink name := by
  rw [UnixSocketTransport.unlink, hunlinked]

/-- Where the unlinked name is the bound one, `close` removes it and nothing else. -/
theorem Listened.close_entry
    (hlistened : Listened paths files transport endpoint listened listening name)
    (hentries : ∀ name s, files.entry name = some s → s < files.opened)
    (hwhole : Whole paths endpoint) (other : SocketName Place) :
    (close paths listened listening).1.entry other =
      if listened.entry other = some files.opened then none else listened.entry other := by
  rw [hlistened.close_eq]
  dsimp only
  simp only [hlistened.entry_iff hentries]
  have hname := (hlistened.entry_iff hentries name).mpr rfl
  cases name with
  | abstract =>
      rw [unlink_of_abstract hlistened.address_eq, closeFd_entry]
      simp only [hname, and_true]
  | file place =>
      rw [unlink_of_unlinked (hwhole place hlistened.address_eq), SocketFiles.unlink_entry,
        closeFd_entry]
      have hnot : listened.entry .abstract ≠ some files.opened := by
        intro habstract
        cases (hlistened.entry_iff hentries .abstract).mp habstract
      split
      · rfl
      · rw [if_neg (fun h => hnot h.2)]

/-- Where it is not, the file stays. -/
theorem Listened.close_leaves {place : Place}
    (hlistened : Listened paths files transport endpoint listened listening (.file place))
    (hentries : ∀ name s, files.entry name = some s → s < files.opened)
    (hcut : paths.unlinked endpoint ≠ .ok (.file place)) :
    (close paths listened listening).1.entry (.file place) = some files.opened := by
  have hname := (hlistened.entry_iff hentries (.file place)).mpr rfl
  have hclosed : (closeFd listened files.opened).entry (.file place) = some files.opened := by
    rw [closeFd_entry, if_neg (fun h => (by cases h.1))]
    exact hname
  rw [hlistened.close_eq]
  unfold UnixSocketTransport.unlink
  dsimp only
  split
  · exact hclosed
  next removed hremoved =>
    rw [SocketFiles.unlink_entry, if_neg]
    · exact hclosed
    · rintro rfl
      exact hcut hremoved

/-- A transport that has closed listens again. -/
theorem Listened.reopens
    (hlistened : Listened paths files transport endpoint listened listening name)
    (hentries : ∀ name s, files.entry name = some s → s < files.opened)
    (hwhole : Whole paths endpoint) :
    (listen paths (close paths listened listening).1 (close paths listened listening).2 endpoint
      none none).1 = none := by
  have hgone := hlistened.close_entry hentries hwhole name
  rw [if_pos ((hlistened.entry_iff hentries name).mpr rfl)] at hgone
  have hfree : (UnixSocketTransport.unlink paths (close paths listened listening).1.socket
      endpoint).entry name = none := by
    by_contra hsome
    obtain ⟨s, hs⟩ := Option.ne_none_iff_exists'.mp hsome
    have hold : (close paths listened listening).1.socket.entry name = some s := entry_of_unlink hs
    rw [show (close paths listened listening).1.socket.entry name = none from hgone] at hold
    cases hold
  obtain ⟨again, relistening, hlisten, -⟩ :=
    @listen_succeeds _ paths _ _ (close paths listened listening).2 _ _ hlistened.address_eq hfree
  rw [hlisten]

end Listen

/-! ## Exactly when endpoints do not alias -/

theorem connectTo_eq_ok {files : SocketFiles (SocketName Place)} {endpoint : List UInt8} {s : Nat} :
    connectTo paths files endpoint = .ok s ↔
      ∃ name, paths.address endpoint = .ok name ∧ files.reached name = some s := by
  unfold connectTo
  split
  next err haddress => simp [haddress]
  next name haddress =>
    split
    next hreached => simp [haddress, hreached]
    next t hreached => simp [haddress, hreached]

section Sound

variable [DecidableEq Place]

/-- The transport listens on an endpoint, with a socket. -/
def ListensOn (system : Transports Place) (i : Nat) (endpoint : List UInt8) (s : Nat) : Prop :=
  (system.transport i).serverFd = some s ∧ system.files.listening s = true ∧
    (system.transport i).endpoint = endpoint

/-- Of two endpoints, clients of one do not reach a server of the other; the first is
refused if it does not fit; and closing undoes listening on it. -/
structure Sound (paths : Paths Place) (a b : List UInt8) : Prop where
  apart : ∀ system, Reachable (Transports.step paths) init system → ∀ i s,
    ListensOn system i b s → connectTo paths system.files a = .ok s → a = b
  refused : sunPathSize ≤ a.length → ∀ system, Reachable (Transports.step paths) init system →
    ∀ i socketError listenError,
      (listen paths system.files (system.transport i) a socketError listenError).1 ≠ none ∧
        ∃ err, connectTo paths system.files a = .error err
  removed : ∀ system, Reachable (Transports.step paths) init system →
    ∀ i socketError listenError listened listening,
      listen paths system.files (system.transport i) a socketError listenError =
        (none, listened, listening) →
      ∀ name, (close paths listened listening).1.entry name =
        if listened.entry name = some system.files.opened then none else listened.entry name
  reopened : ∀ system, Reachable (Transports.step paths) init system →
    ∀ i socketError listenError listened listening,
      listen paths system.files (system.transport i) a socketError listenError =
        (none, listened, listening) →
      (listen paths (close paths listened listening).1 (close paths listened listening).2 a
        none none).1 = none

/-- Two endpoints have one address only if they are equal; the first has none if it
does not fit; and its file is unlinked under the name that it was bound to. -/
structure Plain (paths : Paths Place) (a b : List UInt8) : Prop where
  distinct : ∀ name, paths.address a = .ok name → paths.address b = .ok name → a = b
  fits : sunPathSize ≤ a.length → ∃ err, paths.address a = .error err
  whole : Whole paths a

/-- A `listen` in one go is a run. -/
theorem reachable_listen {system : Transports Place} {i : Nat} {endpoint : List UInt8}
    {listened : SocketFiles (SocketName Place)} {listening : UnixSocketTransport}
    (hidle : (system.transport i).phase = .idle)
    (hlisten : listen paths system.files (system.transport i) endpoint none none =
      (none, listened, listening)) :
    Reachable (Transports.step paths) system (system.set i (listened, listening)) := by
  refine ⟨[.beginListen i endpoint none, .finishListen i none], ?_⟩
  unfold UnixSocketTransport.listen at hlisten
  dsimp only [UnixSocketTransport.beginListen] at hlisten
  apply run_cons_eq_some.mpr
  refine ⟨_, if_pos hidle, ?_⟩
  rw [run_cons]
  dsimp only [Transports.step]
  rw [set_transport]
  dsimp only [UnixSocketTransport.beginListen]
  rw [set_set, Option.bind_some, run_nil]
  exact congrArg (fun ended => some (system.set i ended)) (congrArg Prod.snd hlisten)

theorem empty_free (endpoint : List UInt8) (name : SocketName Place) :
    (UnixSocketTransport.unlink paths (SocketFiles.socket .empty) endpoint).entry name = none := by
  by_contra hsome
  obtain ⟨s, hs⟩ := Option.ne_none_iff_exists'.mp hsome
  cases entry_of_unlink hs

theorem Sound.plain {a b : List UInt8} (hsound : Sound paths a b) : Plain paths a b := by
  constructor
  · intro name ha hb
    obtain ⟨listened, listening, hlisten, hlistened, hopen⟩ :=
      @listen_succeeds _ paths _ init.files .fresh b name hb (empty_free b name)
    have hreach := @reachable_listen _ paths _ init 0 b listened listening rfl hlisten
    apply hsound.apart _ hreach 0 0
    · refine ⟨?_, hopen, ?_⟩
      · rw [set_transport, hlistened.listening_eq]
        rfl
      · rw [set_transport, hlistened.listening_eq]
    · apply connectTo_eq_ok.mpr
      refine ⟨name, ha, SocketFiles.reached_eq_some.mpr ⟨?_, hopen⟩⟩
      change listened.entry name = some 0
      rw [hlistened.entry_eq]
      exact Function.update_self ..
  · intro hlong
    cases haddress : paths.address a with
    | error err => exact ⟨err, rfl⟩
    | ok name =>
        obtain ⟨listened, listening, hlisten, -⟩ :=
          @listen_succeeds _ paths _ init.files .fresh a name haddress (empty_free a name)
        obtain ⟨hrefused, -⟩ := hsound.refused hlong init (.refl _) 0 none none
        exact absurd (congrArg Prod.fst hlisten) hrefused
  · intro place haddress
    by_contra hcut
    obtain ⟨listened, listening, hlisten, hlistened, -⟩ :=
      @listen_succeeds _ paths _ init.files .fresh a _ haddress (empty_free a _)
    have hentries : ∀ (name : SocketName Place) (s : Nat),
        (init : Transports Place).files.entry name = some s →
        s < (init : Transports Place).files.opened :=
      fun _ _ h => (by cases h)
    have hleft := hlistened.close_leaves hentries hcut
    have hremoved := hsound.removed init (.refl _) 0 none none listened listening hlisten
      (.file place)
    rw [if_pos ((hlistened.entry_iff hentries _).mpr rfl)] at hremoved
    cases hleft.symm.trans hremoved

theorem Plain.sound {a b : List UInt8} (hplain : Plain paths a b) : Sound paths a b := by
  constructor
  · intro system hreach i s hlistens hconnect
    obtain ⟨hfd, hlistening, hendpoint⟩ := hlistens
    obtain ⟨name, haddress, hreached⟩ := connectTo_eq_ok.mp hconnect
    obtain ⟨hentry, -⟩ := SocketFiles.reached_eq_some.mp hreached
    have hbound := (reachable_owned hreach).bound i s hfd hlistening name hentry
    rw [hendpoint] at hbound
    exact hplain.distinct name haddress hbound
  · intro hlong system _ i socketError listenError
    obtain ⟨err, haddress⟩ := hplain.fits hlong
    constructor
    · intro hlisten
      obtain ⟨name, hlistened⟩ := listened_of_listen (Prod.ext hlisten rfl)
      rw [hlistened.address_eq] at haddress
      cases haddress
    · refine ⟨.system err, ?_⟩
      rw [connectTo, haddress]
  · intro system hreach i socketError listenError listened listening hlisten
    obtain ⟨name, hlistened⟩ := listened_of_listen hlisten
    exact hlistened.close_entry (reachable_owned hreach).entries hplain.whole
  · intro system hreach i socketError listenError listened listening hlisten
    obtain ⟨name, hlistened⟩ := listened_of_listen hlisten
    exact hlistened.reopens (reachable_owned hreach).entries hplain.whole

/-- Two endpoints keep apart, and listening on one can be undone and repeated, exactly
when what reaches the kernel names both of them in full. -/
theorem sound_iff_plain (paths : Paths Place) (a b : List UInt8) :
    Sound paths a b ↔ Plain paths a b :=
  ⟨Sound.plain, Plain.sound⟩

theorem sunPath_of_short {endpoint : List UInt8} (hzero : 0 ∉ endpoint)
    (hlen : endpoint.length < sunPathSize) : cStr endpoint = endpoint ∧ sunPath endpoint = endpoint := by
  have hstr : cStr endpoint = endpoint := by
    rw [cStr, List.takeWhile_eq_self_iff]
    intro byte hbyte
    simp only [ne_eq, decide_not, Bool.not_eq_eq_eq_not, Bool.not_true, decide_eq_false_iff_not]
    rintro rfl
    exact hzero hbyte
  refine ⟨hstr, ?_⟩
  rw [sunPath, hstr, List.take_of_length_le (by omega)]

omit [DecidableEq Place] in
/-- Endpoints that fit and hold no zero byte are plain where every path has a file of
its own. -/
theorem plain_of_short {a b : List UInt8} (ha : 0 ∉ a) (hb : 0 ∉ b)
    (hlena : a.length < sunPathSize) (hlenb : b.length < sunPathSize)
    (hresolve : ∀ p q place, paths.resolve p = .ok place → paths.resolve q = .ok place → p = q) :
    Plain paths a b := by
  obtain ⟨hstra, hpatha⟩ := sunPath_of_short ha hlena
  obtain ⟨-, hpathb⟩ := sunPath_of_short hb hlenb
  refine ⟨?_, fun hlong => absurd hlong (by omega), ?_⟩
  · intro name hnamea hnameb
    cases name with
    | abstract =>
        rw [← hpatha, ← hpathb, address_abstract hnamea, address_abstract hnameb]
    | file place =>
        have hplacea := address_file hnamea
        have hplaceb := address_file hnameb
        rw [hpatha] at hplacea
        rw [hpathb] at hplaceb
        exact hresolve a b place hplacea hplaceb
  · intro place haddress
    have hplace := address_file haddress
    rw [hpatha] at hplace
    rw [Paths.unlinked, hstra, hplace]
    rfl

end Sound

/-- A kernel for which every path is a file of its own. -/
def ownFiles : Paths (List UInt8) where
  resolve := fun path => if path = [] then .error .ENOENT else .ok path
  resolve_nil := rfl

/-- An endpoint of 108 bytes that ends in the given one. -/
def long (last : UInt8) : List UInt8 := List.replicate 107 97 ++ [last]

/-- A client of one long endpoint reaches the server of another, and that server
cannot listen again once it has closed. -/
theorem long_endpoints_alias :
    ∃ system, run (Transports.step ownFiles) init
        [.beginListen 0 (long 98) none, .finishListen 0 none] = some system ∧
      ListensOn system 0 (long 98) 0 ∧ connectTo ownFiles system.files (long 99) = .ok 0 ∧
      (listen ownFiles (close ownFiles system.files (system.transport 0)).1
        (close ownFiles system.files (system.transport 0)).2 (long 98) none none).1 =
        some (.system .EADDRINUSE) :=
  ⟨_, rfl, ⟨rfl, rfl, rfl⟩, by rfl, by rfl⟩

end Ibridger.Cpp.Transports
