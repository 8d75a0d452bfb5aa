import Ibridger.Cpp.Server

/-! # The connection table

The accept loop checks the limit in one critical section and inserts in another.
In between, handlers only remove entries, and only the accept loop adds any.
-/

namespace Ibridger.Cpp.Server

/-- The handler thread was spawned for the connection. -/
def Assigned (server : Server) (h c : Nat) : Prop :=
  ∃ phase, server.handlers[h]? = some ⟨c, phase⟩

/-- The handler thread runs and has not yet removed its connection. -/
def Handles (server : Server) (h c : Nat) : Prop :=
  ∃ phase, server.handlers[h]? = some ⟨c, phase⟩ ∧ phase ≠ .finished

/-- The accepted connection that the accept loop has in its hands. -/
def held (server : Server) : Option Nat := server.acceptThread.bind AcceptLoop.held

/-- What the table says of the connections and their handlers. -/
structure ConnectionTable (limit : Nat) (server : Server) : Prop where
  bounded : server.activeConnections.length ≤ limit
  nodup : server.activeConnections.Nodup
  entry : ∀ c ∈ server.activeConnections, ∃! h, server.Handles h c
  listed : ∀ h c, server.Handles h c → c ∈ server.activeConnections

theorem Handles.assigned {server : Server} {h c : Nat} (hhandles : server.Handles h c) :
    server.Assigned h c := by
  obtain ⟨phase, hphase, -⟩ := hhandles
  exact ⟨phase, hphase⟩

/-! ## Changes of the handlers -/

section Handlers

variable {server next : Server} {h framed : Nat} {phase phase' : HandlerPhase}

theorem assigned_set (hhandler : server.handlers[h]? = some ⟨framed, phase⟩)
    (hset : next.handlers = server.handlers.set h ⟨framed, phase'⟩) (k c : Nat) :
    next.Assigned k c ↔ server.Assigned k c := by
  unfold Assigned
  rw [hset]
  by_cases hsame : k = h
  · subst hsame
    rw [List.getElem?_set_self (List.getElem?_eq_some_iff.mp hhandler).1, hhandler]
    simp
  · rw [List.getElem?_set_ne fun heq => hsame heq.symm]

theorem handles_set_self (hhandler : server.handlers[h]? = some ⟨framed, phase⟩)
    (hset : next.handlers = server.handlers.set h ⟨framed, phase'⟩) (c : Nat) :
    next.Handles h c ↔ c = framed ∧ phase' ≠ .finished := by
  unfold Handles
  rw [hset, List.getElem?_set_self (List.getElem?_eq_some_iff.mp hhandler).1]
  constructor
  · rintro ⟨other, hother, hrunning⟩
    cases hother
    exact ⟨rfl, hrunning⟩
  · rintro ⟨rfl, hrunning⟩
    exact ⟨phase', rfl, hrunning⟩

theorem handles_set_ne (hset : next.handlers = server.handlers.set h ⟨framed, phase'⟩) {k : Nat}
    (hother : k ≠ h) (c : Nat) : next.Handles k c ↔ server.Handles k c := by
  unfold Handles
  rw [hset, List.getElem?_set_ne fun heq => hother heq.symm]

theorem handlers_append (happend : next.handlers = server.handlers ++ [⟨framed, phase⟩]) (k : Nat)
    (handler : Handler) :
    next.handlers[k]? = some handler ↔ server.handlers[k]? = some handler ∨
      k = server.handlers.length ∧ ⟨framed, phase⟩ = handler := by
  rw [happend]
  rcases Nat.lt_trichotomy k server.handlers.length with hlt | rfl | hgt
  · rw [List.getElem?_append_left hlt]
    simp [Nat.ne_of_lt hlt]
  · simp
  · rw [List.getElem?_eq_none (by simpa using Nat.succ_le_of_lt hgt),
      List.getElem?_eq_none (Nat.le_of_lt hgt)]
    simp [Nat.ne_of_gt hgt]

theorem assigned_append (happend : next.handlers = server.handlers ++ [⟨framed, phase⟩])
    (k c : Nat) :
    next.Assigned k c ↔ server.Assigned k c ∨ k = server.handlers.length ∧ c = framed := by
  simp only [Assigned, handlers_append happend, exists_or]
  simp [eq_comm]

theorem handles_append (happend : next.handlers = server.handlers ++ [⟨framed, .serving⟩])
    (k c : Nat) :
    next.Handles k c ↔ server.Handles k c ∨ k = server.handlers.length ∧ c = framed := by
  simp only [Handles, handlers_append happend, or_and_right, exists_or]
  simp [eq_comm]

end Handlers

/-! ## The table while the accept loop runs -/

/-- The invariant of the table. The loop's own connection is new to it, and has
room there once the limit has been checked. -/
structure Tabled (limit : Nat) (server : Server) : Prop where
  limit_eq : server.config.maxConnections = limit
  bounded : server.activeConnections.length ≤ limit
  room : ∀ c, server.acceptThread = some (.inserting c) → server.activeConnections.length < limit
  nodup : server.activeConnections.Nodup
  mem_iff : ∀ c, c ∈ server.activeConnections ↔ ∃ h, server.Handles h c
  unique : ∀ h k c, server.Assigned h c → server.Assigned k c → h = k
  numbered : ∀ h c, server.Assigned h c → c < server.accepted
  held_new : ∀ c, server.held = some c → c < server.accepted ∧ ∀ h, ¬ server.Assigned h c

namespace Tabled

variable {limit : Nat} {server next : Server}

theorem connectionTable (htabled : Tabled limit server) : ConnectionTable limit server := by
  refine ⟨htabled.bounded, htabled.nodup, ?_, ?_⟩
  · intro c hc
    obtain ⟨h, hhandles⟩ := (htabled.mem_iff c).mp hc
    refine ⟨h, hhandles, ?_⟩
    intro k hk
    exact htabled.unique k h c hk.assigned hhandles.assigned
  · intro h c hhandles
    exact (htabled.mem_iff c).mpr ⟨h, hhandles⟩

/-- Steps that leave the table and the handlers alone, and give the loop no
connection to insert. -/
theorem congr (htabled : Tabled limit server) (hconfig : next.config = server.config)
    (hactive : next.activeConnections = server.activeConnections)
    (hhandlers : next.handlers = server.handlers) (haccepted : next.accepted = server.accepted)
    (hroom : ∀ c, next.acceptThread = some (.inserting c) →
      server.activeConnections.length < limit)
    (hheld : ∀ c, next.held = some c → server.held = some c) : Tabled limit next := by
  have hassigned : ∀ h c, next.Assigned h c ↔ server.Assigned h c := by
    intro h c
    rw [Assigned, hhandlers, Assigned]
  have hhandles : ∀ h c, next.Handles h c ↔ server.Handles h c := by
    intro h c
    rw [Handles, hhandlers, Handles]
  refine ⟨?_, ?_, ?_, ?_, ?_, ?_, ?_, ?_⟩
  · rw [hconfig]
    exact htabled.limit_eq
  · rw [hactive]
    exact htabled.bounded
  · intro c hthread
    rw [hactive]
    exact hroom c hthread
  · rw [hactive]
    exact htabled.nodup
  · intro c
    simp only [hactive, hhandles]
    exact htabled.mem_iff c
  · intro h k c hh hk
    exact htabled.unique h k c ((hassigned h c).mp hh) ((hassigned k c).mp hk)
  · intro h c hh
    rw [haccepted]
    exact htabled.numbered h c ((hassigned h c).mp hh)
  · intro c hc
    obtain ⟨hlt, hnew⟩ := htabled.held_new c (hheld c hc)
    rw [haccepted]
    exact ⟨hlt, fun h hh => hnew h ((hassigned h c).mp hh)⟩

/-- Steps that leave even the accept loop alone. -/
theorem frame (htabled : Tabled limit server) (hconfig : next.config = server.config)
    (hactive : next.activeConnections = server.activeConnections)
    (hhandlers : next.handlers = server.handlers) (haccepted : next.accepted = server.accepted)
    (hthread : next.acceptThread = server.acceptThread) : Tabled limit next := by
  apply htabled.congr hconfig hactive hhandlers haccepted
  · intro c hc
    rw [hthread] at hc
    exact htabled.room c hc
  · intro c hc
    rw [held, hthread] at hc
    exact hc

theorem init (config : ServerConfig) : Tabled config.maxConnections (init config) where
  limit_eq := rfl
  bounded := Nat.zero_le _
  room := fun _ hthread => by cases hthread
  nodup := List.nodup_nil
  mem_iff := by simp [Server.init, Handles]
  unique := by simp [Server.init, Assigned]
  numbered := by simp [Server.init, Assigned]
  held_new := fun _ hheld => by cases hheld

theorem proceed (htabled : Tabled limit server) (hproceed : server.proceed = some next) :
    Tabled limit next := by
  unfold Server.proceed at hproceed
  split at hproceed
  · cases hproceed
  · cases hproceed
    exact htabled.congr rfl rfl rfl rfl (fun _ h => (by cases h)) (fun _ h => (by cases h))
  · cases hproceed
    exact htabled.frame rfl rfl rfl rfl rfl
  · split at hproceed
    · cases hproceed
      exact htabled.frame rfl rfl rfl rfl rfl
    · cases hproceed
      exact htabled.congr rfl rfl rfl rfl (fun _ h => (by cases h)) (fun _ h => (by cases h))
    · cases hproceed
  · cases hproceed
    exact htabled.frame rfl rfl rfl rfl rfl
  · cases hproceed
    exact htabled.frame rfl rfl rfl rfl rfl
  · cases hproceed
    exact htabled.frame rfl rfl rfl rfl rfl
  · cases hproceed
    exact htabled.frame rfl rfl rfl rfl rfl
  · cases hproceed
    exact htabled.frame rfl rfl rfl rfl rfl
  · split at hproceed
    · cases hproceed
      exact htabled.frame rfl rfl rfl rfl rfl
    · cases hproceed

theorem test (htabled : Tabled limit server) (htest : server.test = some next) :
    Tabled limit next := by
  obtain ⟨-, rfl⟩ := test_eq htest
  refine htabled.congr rfl rfl rfl rfl ?_ ?_
  · intro c hc
    dsimp only at hc
    split at hc <;> cases hc
  · intro c hc
    dsimp only [held] at hc
    split at hc <;> cases hc

theorem accept (htabled : Tabled limit server) {err : Option ErrorCode}
    (haccept : server.accept err = some next) : Tabled limit next := by
  obtain ⟨-, ⟨-, rfl⟩ | ⟨-, rfl⟩⟩ := accept_eq haccept
  · exact htabled.congr rfl rfl rfl rfl (fun _ h => (by cases h)) (fun _ h => (by cases h))
  · refine ⟨htabled.limit_eq, htabled.bounded, fun _ h => (by cases h), htabled.nodup,
      htabled.mem_iff, htabled.unique, ?_, ?_⟩
    · intro h c hassigned
      exact Nat.lt_succ_of_lt (htabled.numbered h c hassigned)
    · intro c hc
      cases hc
      refine ⟨Nat.lt_succ_self _, ?_⟩
      intro h hassigned
      exact Nat.lt_irrefl _ (htabled.numbered h _ hassigned)

theorem checkLimit (htabled : Tabled limit server) (hcheck : server.checkLimit = some next) :
    Tabled limit next := by
  obtain ⟨conn, hthread, ⟨-, rfl⟩ | ⟨hroom, rfl⟩⟩ := checkLimit_eq hcheck
  · exact htabled.congr rfl rfl rfl rfl (fun _ h => (by cases h)) (fun _ h => (by cases h))
  · refine htabled.congr rfl rfl rfl rfl ?_ ?_
    · intro c _
      exact htabled.limit_eq ▸ hroom
    · intro c hc
      rw [held, hthread]
      exact hc

/-- The entry goes to the end, with its handler. -/
theorem insert (htabled : Tabled limit server) (hinsert : server.insert = some next) :
    Tabled limit next := by
  obtain ⟨conn, hthread, rfl⟩ := insert_eq hinsert
  have hheld : server.held = some conn := by
    rw [held, hthread]
    rfl
  obtain ⟨hnumbered, hnew⟩ := htabled.held_new conn hheld
  have hfresh : conn ∉ server.activeConnections := by
    intro hmem
    obtain ⟨h, hhandles⟩ := (htabled.mem_iff conn).mp hmem
    exact hnew h hhandles.assigned
  refine ⟨htabled.limit_eq, ?_, fun _ h => (by cases h), ?_, ?_, ?_, ?_, fun _ h => (by cases h)⟩
  · rw [List.length_append]
    exact htabled.room conn hthread
  · rw [List.nodup_append]
    refine ⟨htabled.nodup, by simp, ?_⟩
    rintro c hc other hother rfl
    exact hfresh (List.mem_singleton.mp hother ▸ hc)
  · intro c
    rw [List.mem_append, List.mem_singleton, htabled.mem_iff]
    constructor
    · rintro (⟨h, hhandles⟩ | rfl)
      · exact ⟨h, (handles_append rfl h c).mpr (.inl hhandles)⟩
      · exact ⟨_, (handles_append rfl _ c).mpr (.inr ⟨rfl, rfl⟩)⟩
    · rintro ⟨h, hh⟩
      rcases (handles_append rfl h c).mp hh with hhandles | ⟨-, rfl⟩
      · exact .inl ⟨h, hhandles⟩
      · exact .inr rfl
  · intro h k c hh hk
    rw [assigned_append rfl] at hh hk
    rcases hh with hh | ⟨rfl, rfl⟩
    · rcases hk with hk | ⟨rfl, rfl⟩
      · exact htabled.unique h k c hh hk
      · exact absurd hh (hnew h)
    · rcases hk with hk | ⟨rfl, -⟩
      · exact absurd hk (hnew k)
      · rfl
  · intro h c hh
    rw [assigned_append rfl] at hh
    rcases hh with hh | ⟨-, rfl⟩
    · exact htabled.numbered h c hh
    · exact hnumbered

/-- A handler goes on to its next phase. -/
theorem of_set (htabled : Tabled limit server) {h framed : Nat} {phase phase' : HandlerPhase}
    (hhandler : server.handlers[h]? = some ⟨framed, phase⟩)
    (hset : next.handlers = server.handlers.set h ⟨framed, phase'⟩)
    (hconfig : next.config = server.config) (hthread : next.acceptThread = server.acceptThread)
    (haccepted : next.accepted = server.accepted)
    (hlength : next.activeConnections.length ≤ server.activeConnections.length)
    (hnodup : next.activeConnections.Nodup)
    (hmem : ∀ c, c ∈ next.activeConnections ↔ ∃ k, next.Handles k c) : Tabled limit next := by
  have hassigned := assigned_set hhandler hset
  refine ⟨?_, Nat.le_trans hlength htabled.bounded, ?_, hnodup, hmem, ?_, ?_, ?_⟩
  · rw [hconfig]
    exact htabled.limit_eq
  · intro c hc
    rw [hthread] at hc
    exact Nat.lt_of_le_of_lt hlength (htabled.room c hc)
  · simp only [hassigned]
    exact htabled.unique
  · simp only [hassigned, haccepted]
    exact htabled.numbered
  · simp only [hassigned, haccepted, held, hthread]
    exact htabled.held_new

theorem leave (htabled : Tabled limit server) {h : Nat} (hleave : server.leave h = some next) :
    Tabled limit next := by
  obtain ⟨framed, hhandler, rfl⟩ := leave_eq hleave
  refine htabled.of_set hhandler rfl rfl rfl rfl (Nat.le_refl _) htabled.nodup ?_
  intro c
  rw [htabled.mem_iff]
  apply exists_congr
  intro k
  by_cases hsame : k = h
  · subst hsame
    refine Iff.symm ((handles_set_self hhandler rfl c).trans ?_)
    rw [Handles, hhandler]
    simp [eq_comm]
  · exact (handles_set_ne rfl hsame c).symm

/-- The entry that goes is that of the handler, and no other handler has one. -/
theorem removeConnection (htabled : Tabled limit server) {h : Nat}
    (hremove : server.removeConnection h = some next) : Tabled limit next := by
  obtain ⟨framed, hhandler, rfl⟩ := removeConnection_eq hremove
  refine htabled.of_set hhandler rfl rfl rfl rfl List.length_erase_le
    (htabled.nodup.erase framed) ?_
  intro c
  rw [htabled.nodup.mem_erase_iff, htabled.mem_iff]
  constructor
  · rintro ⟨hother, k, hk⟩
    refine ⟨k, ?_⟩
    have hkh : k ≠ h := by
      rintro rfl
      obtain ⟨phase, hphase, -⟩ := hk
      rw [hhandler] at hphase
      cases hphase
      exact hother rfl
    exact (handles_set_ne rfl hkh c).mpr hk
  · rintro ⟨k, hk⟩
    have hkh : k ≠ h := by
      rintro rfl
      exact ((handles_set_self hhandler rfl c).mp hk).2 rfl
    have hold := (handles_set_ne rfl hkh c).mp hk
    refine ⟨?_, k, hold⟩
    rintro rfl
    exact hkh (htabled.unique k h c hold.assigned ⟨.leaving, hhandler⟩)

theorem step (htabled : Tabled limit server) {event : ServerEvent}
    (hstep : server.step event = some next) : Tabled limit next := by
  cases event with
  | start outcome =>
      obtain ⟨-, rfl | ⟨-, rfl⟩⟩ := step_start hstep
      · exact htabled
      · exact htabled.frame rfl rfl rfl rfl rfl
  | stop =>
      obtain ⟨-, rfl | ⟨-, rfl⟩⟩ := step_stop hstep
      · exact htabled
      · exact htabled.frame rfl rfl rfl rfl rfl
  | proceed => exact htabled.proceed hstep
  | test => exact htabled.test hstep
  | accept err => exact htabled.accept hstep
  | checkLimit => exact htabled.checkLimit hstep
  | insert => exact htabled.insert hstep
  | leave h => exact htabled.leave hstep
  | removeConnection h => exact htabled.removeConnection hstep

end Tabled

end Ibridger.Cpp.Server
