import Ibridger.Cpp.DescriptorRelease
import Ibridger.Foundation.HandleTable

/-! # Transports, connections and their handles

What the transports of a process and the connections that they have made hold. The classes
for Unix sockets and for named pipes keep their numbers in different fields; what becomes
of the numbers is the same.
-/

namespace Ibridger.Cpp

/-- Where the objects of two classes keep their numbers. -/
structure HandleClass (Transport Conn : Type) where
  /-- What a transport listens on. -/
  server : Transport → Option Nat
  /-- What a connection reads from and writes to, while it lives. -/
  holds : Lifetime Conn → Option Nat
  connected : Conn → Bool

structure Handles (Transport Conn : Type) where
  /-- What the kernel has opened for the process and the process has not closed. -/
  opened : Finset Nat
  transports : Nat → Transport
  conns : List (Lifetime Conn)

namespace Handles

variable {Transport Conn : Type}

/-- A transport changes, and what is open. -/
def setTransport (process : Handles Transport Conn) (i : Nat) (transport : Transport)
    (opened : Finset Nat) : Handles Transport Conn :=
  { process with
    opened := opened, transports := Function.update process.transports i transport }

/-- Transport `i` makes a connection, and changes. -/
def makeConnection (process : Handles Transport Conn) (i : Nat) (transport : Transport)
    (conn : Conn) (opened : Finset Nat) : Handles Transport Conn :=
  { process.setTransport i transport opened with conns := process.conns ++ [⟨conn, false⟩] }

/-- A connection changes, and what is open. -/
def setConnection (process : Handles Transport Conn) (c : Nat) (life : Lifetime Conn)
    (opened : Finset Nat) : Handles Transport Conn :=
  { process with opened := opened, conns := process.conns.set c life }

variable (cls : HandleClass Transport Conn)

/-- Transports on the left, connections on the right. -/
def table (process : Handles Transport Conn) : HandleTable (Nat ⊕ Nat) where
  opened := process.opened
  held := Sum.elim (fun i => cls.server (process.transports i))
    fun c => process.conns[c]?.bind cls.holds
  closes := Sum.elim (fun i => (cls.server (process.transports i)).isSome)
    fun c => process.conns[c]?.any fun life => cls.connected life.conn

/-- A connection that is connected holds a number. -/
def Upright (process : Handles Transport Conn) : Prop :=
  ∀ life ∈ process.conns, cls.connected life.conn = true → cls.holds life ≠ none

/-- What an operation on a connection does: the connection keeps its number, or closes it,
or is destroyed without closing it. -/
inductive Operated (life after : Lifetime Conn) (fatal : Bool) (opened : Finset Nat) :
    Finset Nat → Prop where
  | kept (hholds : cls.holds after = cls.holds life)
      (hconnected : cls.connected after.conn = (cls.connected life.conn && !fatal)) :
      Operated life after fatal opened opened
  | closed (number : Nat) (hlive : cls.connected life.conn = true)
      (hholds : cls.holds life = some number) (hgone : cls.holds after = none)
      (hconnected : cls.connected after.conn = false) (hquiet : fatal = false) :
      Operated life after fatal opened (opened.erase number)
  | lost (hdead : cls.connected life.conn = false) (hgone : cls.holds after = none)
      (hconnected : cls.connected after.conn = false) : Operated life after fatal opened opened

variable {cls} {process : Handles Transport Conn}

theorem held_transport (i : Nat) :
    (process.table cls).held (.inl i) = cls.server (process.transports i) := rfl

theorem held_conn (c : Nat) :
    (process.table cls).held (.inr c) = process.conns[c]?.bind cls.holds := rfl

theorem closes_transport (i : Nat) :
    (process.table cls).closes (.inl i) = (cls.server (process.transports i)).isSome := rfl

theorem closes_conn (c : Nat) : (process.table cls).closes (.inr c) =
    process.conns[c]?.any fun life => cls.connected life.conn := rfl

/-- A transport will close what it listens on. -/
theorem closes_of_server {i number : Nat}
    (hnumber : cls.server (process.transports i) = some number) :
    (process.table cls).closes (.inl i) = true := by
  rw [closes_transport, hnumber]
  rfl

/-- What a transport that listens would leave open by forgetting it. -/
theorem listening_iff {i : Nat} :
    (process.table cls).held (.inl i) ≠ none ∧ (process.table cls).closes (.inl i) = true ↔
      cls.server (process.transports i) ≠ none := by
  rw [held_transport, closes_transport, Option.isSome_iff_ne_none, and_self]

/-- The next connection holds nothing yet. -/
theorem held_next : (process.table cls).held (.inr process.conns.length) = none := by
  rw [held_conn, List.getElem?_eq_none (Nat.le_refl _)]
  rfl

theorem setTransport_table (process : Handles Transport Conn) (i : Nat) (transport : Transport)
    (opened : Finset Nat) : (process.setTransport i transport opened).table cls =
      ⟨opened, Function.update (process.table cls).held (.inl i) (cls.server transport),
        Function.update (process.table cls).closes (.inl i) (cls.server transport).isSome⟩ := by
  have hserver : ∀ j, cls.server ((process.setTransport i transport opened).transports j) =
      if j = i then cls.server transport else cls.server (process.transports j) := by
    intro j
    rw [setTransport]
    dsimp only
    rw [Function.update_apply]
    split
    · rfl
    · rfl
  ext1
  · rfl
  · funext owner
    dsimp only
    rw [Function.update_apply]
    cases owner with
    | inl j => simp only [held_transport, hserver, Sum.inl.injEq]
    | inr c => rfl
  · funext owner
    dsimp only
    rw [Function.update_apply]
    cases owner with
    | inl j =>
        simp only [closes_transport, hserver, Sum.inl.injEq]
        split
        · rfl
        · rfl
    | inr c => rfl

/-- The table with another connection. -/
theorem concat_table (process : Handles Transport Conn) (conn : Conn) :
    ({ process with conns := process.conns ++ [⟨conn, false⟩] } : Handles Transport Conn).table
        cls =
      ⟨process.opened,
        Function.update (process.table cls).held (.inr process.conns.length)
          (cls.holds ⟨conn, false⟩),
        Function.update (process.table cls).closes (.inr process.conns.length)
          (cls.connected conn)⟩ := by
  have hconns : ∀ c, (process.conns ++ [⟨conn, false⟩])[c]? =
      if c = process.conns.length then some ⟨conn, false⟩ else process.conns[c]? := by
    intro c
    split
    next hc => rw [hc, List.getElem?_concat_length]
    next hc =>
      rcases Nat.lt_or_gt_of_ne hc with hlt | hgt
      · exact List.getElem?_append_left hlt
      · rw [List.getElem?_eq_none (by simp; omega), List.getElem?_eq_none (Nat.le_of_lt hgt)]
  ext1
  · rfl
  · funext owner
    dsimp only
    rw [Function.update_apply]
    cases owner with
    | inl j => rfl
    | inr c =>
        simp only [held_conn, hconns, Sum.inr.injEq]
        split
        · rfl
        · rfl
  · funext owner
    dsimp only
    rw [Function.update_apply]
    cases owner with
    | inl j => rfl
    | inr c =>
        simp only [closes_conn, hconns, Sum.inr.injEq]
        split
        · rfl
        · rfl

theorem makeConnection_table (process : Handles Transport Conn) (i : Nat) (transport : Transport)
    (conn : Conn) (opened : Finset Nat) :
    (process.makeConnection i transport conn opened).table cls =
      ⟨opened,
        Function.update (Function.update (process.table cls).held (.inl i)
          (cls.server transport)) (.inr process.conns.length) (cls.holds ⟨conn, false⟩),
        Function.update (Function.update (process.table cls).closes (.inl i)
          (cls.server transport).isSome) (.inr process.conns.length) (cls.connected conn)⟩ := by
  refine ((process.setTransport i transport opened).concat_table conn).trans ?_
  rw [setTransport_table]
  rfl

/-- A new connection is given its number. -/
theorem makeConnection_turn {i fd : Nat} {transport : Transport} {conn : Conn}
    (hnew : fd ∉ process.opened) (hserver : cls.server transport = cls.server (process.transports i))
    (hholds : cls.holds ⟨conn, false⟩ = some fd) (hconnected : cls.connected conn = true) :
    HandleTable.Turn (process.table cls) False
      ((process.makeConnection i transport conn (insert fd process.opened)).table cls) := by
  have htable : (process.makeConnection i transport conn (insert fd process.opened)).table cls =
      (process.table cls).give (.inr process.conns.length) fd := by
    rw [makeConnection_table, hserver, hholds, hconnected, ← held_transport,
      Function.update_eq_self, held_transport, ← closes_transport, Function.update_eq_self]
    rfl
  rw [htable]
  exact .give _ fd hnew (iff_of_false id fun hleaks => hleaks.1 held_next)

/-- A new connection is given the number of its transport, and the transport what is left. -/
theorem handOver_table {i number : Nat} {transport : Transport} {conn : Conn}
    {opened : Finset Nat} (hholds : cls.holds ⟨conn, false⟩ = some number)
    (hconnected : cls.connected conn = true)
    (hnumber : cls.server (process.transports i) = some number) :
    (process.makeConnection i transport conn opened).table cls =
      ⟨opened,
        Function.update ((process.table cls).pass (.inl i) (.inr process.conns.length)).held
          (.inl i) (cls.server transport),
        Function.update ((process.table cls).pass (.inl i) (.inr process.conns.length)).closes
          (.inl i) (cls.server transport).isSome⟩ := by
  have hheld : (process.table cls).held (.inl i) = some number := hnumber
  rw [makeConnection_table, HandleTable.pass, hheld, hholds, hconnected]
  dsimp only
  rw [Function.update_idem, Function.update_idem,
    Function.update_comm Sum.inl_ne_inr, Function.update_comm Sum.inl_ne_inr]

/-- The transport goes on without a number. -/
theorem handOver_turn {i number : Nat} {transport : Transport} {conn : Conn}
    (hholds : cls.holds ⟨conn, false⟩ = some number) (hconnected : cls.connected conn = true)
    (hnumber : cls.server (process.transports i) = some number)
    (hserver : cls.server transport = none) :
    HandleTable.Turn (process.table cls) False
      ((process.makeConnection i transport conn process.opened).table cls) := by
  have htable : (process.makeConnection i transport conn process.opened).table cls =
      (process.table cls).pass (.inl i) (.inr process.conns.length) := by
    rw [handOver_table hholds hconnected hnumber, hserver, HandleTable.pass]
    dsimp only
    rw [Function.update_idem, Option.isSome_none, Function.update_idem]
    rfl
  rw [htable]
  exact .pass _ _ Sum.inr_ne_inl held_next (closes_of_server hnumber) id

/-- The transport goes on with another number. -/
theorem handOver_replace {i number fresh : Nat} {transport : Transport} {conn : Conn}
    (hholds : cls.holds ⟨conn, false⟩ = some number) (hconnected : cls.connected conn = true)
    (hnumber : cls.server (process.transports i) = some number)
    (hserver : cls.server transport = some fresh) (hnew : fresh ∉ process.opened) :
    HandleTable.Turn (process.table cls) False
      ((process.makeConnection i transport conn (insert fresh process.opened)).table cls) := by
  rw [handOver_table hholds hconnected hnumber, hserver]
  exact .replace _ _ fresh Sum.inr_ne_inl held_next (closes_of_server hnumber) hnew id

theorem makeConnection_upright (hupright : process.Upright cls) {i : Nat} {transport : Transport}
    {conn : Conn} {opened : Finset Nat} (hholds : cls.holds ⟨conn, false⟩ ≠ none) :
    (process.makeConnection i transport conn opened).Upright cls := by
  intro life hmem
  rcases List.mem_append.mp hmem with hmem | hmem
  · exact hupright life hmem
  · rw [List.mem_singleton.mp hmem]
    exact fun _ => hholds

theorem setConnection_table {life after : Lifetime Conn} {c : Nat}
    (hlife : process.conns[c]? = some life) {opened : Finset Nat} {held : Option Nat}
    {closes : Bool} (hheld : cls.holds after = held) (hcloses : cls.connected after.conn = closes) :
    (process.setConnection c after opened).table cls =
      ⟨opened, Function.update (process.table cls).held (.inr c) held,
        Function.update (process.table cls).closes (.inr c) closes⟩ := by
  have hconns : ∀ d, (process.setConnection c after opened).conns[d]? =
      if d = c then some after else process.conns[d]? := by
    intro d
    rw [setConnection]
    dsimp only
    split
    next hd =>
      rw [hd]
      exact List.getElem?_set_self (List.getElem?_eq_some_iff.mp hlife).1
    next hd => exact List.getElem?_set_ne (Ne.symm hd)
  ext1
  · rfl
  · funext owner
    dsimp only
    rw [Function.update_apply]
    cases owner with
    | inl j => rfl
    | inr d =>
        simp only [held_conn, hconns, Sum.inr.injEq]
        split
        · exact hheld
        · rfl
  · funext owner
    dsimp only
    rw [Function.update_apply]
    cases owner with
    | inl j => rfl
    | inr d =>
        simp only [closes_conn, hconns, Sum.inr.injEq]
        split
        · exact hcloses
        · rfl

/-- What becomes of the number of a connection in an operation. -/
theorem operated_turn {life after : Lifetime Conn} {c : Nat} {fatal : Bool} {opened : Finset Nat}
    (hlife : process.conns[c]? = some life) (hupright : process.Upright cls)
    (hoperated : Operated cls life after fatal process.opened opened) :
    (process.setConnection c after opened).Upright cls ∧
      HandleTable.Turn (process.table cls) (cls.connected life.conn = true ∧ fatal = true)
        ((process.setConnection c after opened).table cls) := by
  have hheld : (process.table cls).held (.inr c) = cls.holds life := by
    rw [held_conn, hlife]
    rfl
  have hcloses : (process.table cls).closes (.inr c) = cls.connected life.conn := by
    rw [closes_conn, hlife]
    rfl
  have hholds := hupright life (List.mem_of_getElem? hlife)
  constructor
  · intro other hmem
    rcases List.mem_or_eq_of_mem_set hmem with hmem | rfl
    · exact hupright other hmem
    intro hconnected'
    cases hoperated with
    | kept hsame hconnected =>
        rw [hconnected, Bool.and_eq_true] at hconnected'
        rw [hsame]
        exact hholds hconnected'.1
    | closed _ _ _ _ hconnected | lost _ _ hconnected =>
        rw [hconnected] at hconnected'
        cases hconnected'
  · cases hoperated with
    | kept hsame hconnected =>
        by_cases hfails : cls.connected life.conn = true ∧ fatal = true
        · have hflag : cls.connected after.conn = false := by
            rw [hconnected, hfails.2, Bool.not_true, Bool.and_false]
          rw [setConnection_table hlife (hsame.trans hheld.symm) hflag, Function.update_eq_self]
          refine .disown _ (iff_of_true hfails ⟨?_, hcloses.trans hfails.1⟩)
          rw [hheld]
          exact hholds hfails.1
        · have hflag : cls.connected after.conn = cls.connected life.conn := by
            rw [hconnected]
            cases hlive : cls.connected life.conn with
            | false => rfl
            | true =>
                rw [Bool.eq_false_iff.mpr fun hfatal => hfails ⟨hlive, hfatal⟩]
                rfl
          rw [setConnection_table hlife (hsame.trans hheld.symm) (hflag.trans hcloses.symm),
            Function.update_eq_self, Function.update_eq_self]
          exact .same hfails
    | closed number hlive hnumber hgone hconnected hquiet =>
        rw [setConnection_table hlife hgone hconnected]
        refine .shut (Sum.inr c) number (hheld.trans hnumber) (hcloses.trans hlive) ?_
        rw [hquiet]
        exact fun hfails => Bool.false_ne_true hfails.2
    | lost hdead hgone hconnected =>
        rw [setConnection_table hlife hgone hconnected]
        refine .drop (Sum.inr c) (iff_of_false ?_ ?_)
        · rw [hdead]
          exact fun hfails => Bool.false_ne_true hfails.1
        · rw [hcloses, hdead]
          exact fun hleaks => Bool.false_ne_true hleaks.2

end Handles

end Ibridger.Cpp
