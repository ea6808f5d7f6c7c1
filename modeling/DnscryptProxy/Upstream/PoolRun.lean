import DnscryptProxy.Base.Ledger
import DnscryptProxy.Base.Run
import DnscryptProxy.Upstream.UdpPool

/-!
# The pool of UDP connections, shared

`udp_conn_pool.go` under any number of goroutines. The 64 shards have a lock each,
and the flag that `Close` sets is read without any of them; so `Put` and `Close`
take several steps, between which others run. A critical section is one step,
except that of `Put`, which reads the flag in the middle.

* `UdpPoolStep.move` — every step is a move of the ledger of connections
  (`Base.Ledger`), hence no connection is ever in two places;
* `Shutdown` — a shard that `Close` has emptied stays empty, because no `Put` can
  be past its second look at the flag there;
* `pool_ownership` — the two together, over all interleavings.
-/

namespace DnscryptProxy

open Base List Function Option Machine

def UDPPoolShards : Nat := 64

/-- `getShard`: the number of the shard. -/
def getShard (addr : String) : Nat :=
  (addr.toUTF8.data.toList.foldl (fun h b => h * 31 + b.toUInt32) (0 : UInt32)).toNat %
    UDPPoolShards

theorem getShard_lt (addr : String) : getShard addr < UDPPoolShards :=
  Nat.mod_lt _ (by decide)

/-! ## The maps -/

/-- The maps of all shards. An address with idle connections is among the keys. -/
structure ShardMaps where
  keys : List String
  conns : String → List PooledConn
  mem_keys : ∀ addr, conns addr ≠ [] → addr ∈ keys

namespace ShardMaps

def empty : ShardMaps := { keys := [], conns := fun _ => [], mem_keys := fun _ h => absurd rfl h }

/-- `shard.conns[addr] = conns`. -/
def set (m : ShardMaps) (addr : String) (conns : List PooledConn) : ShardMaps where
  keys := addr :: m.keys
  conns := update m.conns addr conns
  mem_keys other h := by
    by_cases hEq : other = addr
    · exact hEq ▸ mem_cons_self
    · rw [update_of_ne hEq] at h
      exact mem_cons_of_mem addr (m.mem_keys other h)

/-- The loop over the map of shard `i`, in which only the connections that meet
`keep` stay. -/
def filterShard (m : ShardMaps) (i : Nat) (keep : PooledConn → Bool) : ShardMaps where
  keys := m.keys
  conns addr := if getShard addr = i then (m.conns addr).filter keep else m.conns addr
  mem_keys addr h := by
    refine m.mem_keys addr fun hNil => h ?_
    rw [hNil]
    split <;> rfl

/-- The connections that the loop closes. -/
def removedFrom (m : ShardMaps) (i : Nat) (keep : PooledConn → Bool) : List Nat :=
  (m.keys.filter fun addr => decide (getShard addr = i)).flatMap fun addr =>
    ((m.conns addr).filter fun pc => !keep pc).map (·.conn)

variable {m : ShardMaps} {i : Nat} {keep : PooledConn → Bool}

theorem mem_removedFrom {k : Nat} :
    k ∈ m.removedFrom i keep ↔ ∃ addr, getShard addr = i ∧
      k ∈ ((m.conns addr).filter fun pc => !keep pc).map (·.conn) := by
  simp only [removedFrom, mem_flatMap, mem_filter, decide_eq_true_eq]
  constructor
  · rintro ⟨addr, ⟨-, hShard⟩, hk⟩
    exact ⟨addr, hShard, hk⟩
  · rintro ⟨addr, hShard, hk⟩
    refine ⟨addr, ⟨m.mem_keys addr ?_, hShard⟩, hk⟩
    intro hNil
    rw [hNil] at hk
    cases hk

end ShardMaps

/-! ## The machine -/

/-- What a goroutine is doing with the pool. -/
inductive Activity where
  | idle
  /-- `Get` found no idle connection -/
  | dialing (addr : String)
  /-- `Get` has returned the connection -/
  | holding (conn : Nat)
  /-- `Put` is past its first look at the flag -/
  | putting (conn : Nat)
  /-- `Put` has the lock, and is past its second look at the flag -/
  | appending (conn : Nat)
  /-- about to close the connection: in `Discard`, or when `Put` has no place for it -/
  | closing (conn : Nat)
  /-- `cleanupStale`, which read the clock at `now`, comes to this shard next -/
  | cleaning (now : Time) (shard : Nat)
  /-- `Close` comes to this shard next -/
  | draining (shard : Nat)
deriving Repr, DecidableEq

/-- The connection a goroutine has to itself. -/
def Activity.conn : Activity → Option Nat
  | .holding conn | .putting conn | .appending conn | .closing conn => some conn
  | _ => none

structure UdpPoolState where
  maps : ShardMaps
  /-- the atomic flag -/
  closed : Bool
  /-- who keeps the lock of a shard from one step to the next -/
  owner : Nat → Option Nat
  /-- the address a connection was dialed for; callers put it back under that one -/
  addrOf : Nat → String
  /-- the connections that have been closed -/
  closedConns : Nat → Bool
  nextConn : Nat
  callers : Nat → Activity
  /-- some call of `Close` has returned -/
  closeReturned : Bool

/-- A step of goroutine `c`. -/
inductive UdpPoolOp where
  | get (c : Nat) (addr : String)
  /-- `net.DialUDP` in `Get` -/
  | dial (c : Nat) (ok : Bool)
  /-- `Put` up to the lock -/
  | put (c : Nat)
  /-- `Put` from the lock to the second look at the flag -/
  | lock (c : Nat)
  /-- the rest of the critical section of `Put` -/
  | append (c : Nat) (now : Time)
  | discard (c : Nat)
  /-- `conn.Close` -/
  | closeConn (c : Nat)
  /-- `cleanupStale` begins -/
  | cleanup (c : Nat) (now : Time)
  | cleanupShard (c : Nat)
  /-- `Close` begins: it sets the flag -/
  | close (c : Nat)
  | closeShard (c : Nat)
  | closeDone (c : Nat)
deriving Repr, DecidableEq

namespace UdpPoolState

variable (s : UdpPoolState)

/-- Goroutine `c` goes on to `a`. -/
def goTo (c : Nat) (a : Activity) : UdpPoolState :=
  { s with callers := update s.callers c a }

/-- The loop over a shard that closes every connection that does not meet `keep`. -/
def purgeShard (i : Nat) (keep : PooledConn → Bool) : UdpPoolState :=
  { s with
    maps := s.maps.filterShard i keep
    closedConns := fun k => s.closedConns k || decide (k ∈ s.maps.removedFrom i keep) }

def step : UdpPoolOp → Option UdpPoolState
  | .get c addr =>
    if s.callers c = .idle ∧ s.owner (getShard addr) = none then
      match (s.maps.conns addr).getLast? with
      | none => some (s.goTo c (.dialing addr))
      | some pc =>
        some ({ s with maps := s.maps.set addr (s.maps.conns addr).dropLast }.goTo c
          (.holding pc.conn))
    else none
  | .dial c ok =>
    match s.callers c with
    | .dialing addr =>
      if ok then
        some ({ s with
          addrOf := update s.addrOf s.nextConn addr
          nextConn := s.nextConn + 1 }.goTo c (.holding s.nextConn))
      else some (s.goTo c .idle)
    | _ => none
  | .put c =>
    match s.callers c with
    | .holding conn => some (s.goTo c (if s.closed then .closing conn else .putting conn))
    | _ => none
  | .lock c =>
    match s.callers c with
    | .putting conn =>
      if s.owner (getShard (s.addrOf conn)) = none then
        if s.closed then some (s.goTo c (.closing conn))
        else
          some ({ s with owner := update s.owner (getShard (s.addrOf conn)) (some c) }.goTo
            c (.appending conn))
      else none
    | _ => none
  | .append c now =>
    match s.callers c with
    | .appending conn =>
      let addr := s.addrOf conn
      let s := { s with owner := update s.owner (getShard addr) none }
      if UDPPoolMaxConnsPerAddr ≤ (s.maps.conns addr).length then some (s.goTo c (.closing conn))
      else
        some ({ s with
          maps := s.maps.set addr (s.maps.conns addr ++ [PooledConn.mk conn now]) }.goTo c .idle)
    | _ => none
  | .discard c =>
    match s.callers c with
    | .holding conn => some (s.goTo c (.closing conn))
    | _ => none
  | .closeConn c =>
    match s.callers c with
    | .closing conn =>
      some ({ s with closedConns := update s.closedConns conn true }.goTo c .idle)
    | _ => none
  | .cleanup c now => if s.callers c = .idle then some (s.goTo c (.cleaning now 0)) else none
  | .cleanupShard c =>
    match s.callers c with
    | .cleaning now i =>
      if i = UDPPoolShards then some (s.goTo c .idle)
      else if s.owner i = none then
        some ((s.purgeShard i fun pc => !UDPConnPool.isStale now pc).goTo c (.cleaning now (i + 1)))
      else none
    | _ => none
  | .close c =>
    if s.callers c = .idle then some ({ s with closed := true }.goTo c (.draining 0)) else none
  | .closeShard c =>
    match s.callers c with
    | .draining i =>
      if i < UDPPoolShards ∧ s.owner i = none then
        some ((s.purgeShard i fun _ => false).goTo c (.draining (i + 1)))
      else none
    | _ => none
  | .closeDone c =>
    match s.callers c with
    | .draining i =>
      if i = UDPPoolShards then some ({ s with closeReturned := true }.goTo c .idle) else none
    | _ => none

end UdpPoolState

/-- The pool from `NewUDPConnPool` on. -/
def udpPoolMachine : Machine UdpPoolState UdpPoolOp where
  init s := s.maps = .empty ∧ s.closed = false ∧ (∀ i, s.owner i = none) ∧
    (∀ k, s.closedConns k = false) ∧ s.nextConn = 0 ∧ (∀ c, s.callers c = .idle) ∧
    s.closeReturned = false
  step := UdpPoolState.step

/-- The steps of the pool, branch by branch, with the state each leaves behind. -/
inductive UdpPoolStep (s : UdpPoolState) : UdpPoolState → Prop where
  | getPooled {c : Nat} {addr : String} {rest : List PooledConn} {pc : PooledConn} :
      s.callers c = .idle → s.maps.conns addr = rest ++ [pc] →
      UdpPoolStep s ({ s with maps := s.maps.set addr rest }.goTo c (.holding pc.conn))
  | dialed {c : Nat} {addr : String} : s.callers c = .dialing addr → UdpPoolStep s ({ s with
        addrOf := update s.addrOf s.nextConn addr
        nextConn := s.nextConn + 1 }.goTo c (.holding s.nextConn))
  /-- a step that only this goroutine sees: it keeps its connection, or has none -/
  | advance {c : Nat} {a : Activity} : a.conn = (s.callers c).conn →
      (∀ conn, a ≠ .appending conn) → (∀ i, a ≠ .draining i) →
      (∀ conn, s.callers c ≠ .appending conn) → UdpPoolStep s (s.goTo c a)
  | lock {c conn : Nat} : s.callers c = .putting conn → s.closed = false →
      s.owner (getShard (s.addrOf conn)) = none →
      UdpPoolStep s ({ s with
        owner := update s.owner (getShard (s.addrOf conn)) (some c) }.goTo c
          (.appending conn))
  | full {c conn : Nat} : s.callers c = .appending conn → UdpPoolStep s ({ s with
        owner := update s.owner (getShard (s.addrOf conn)) none }.goTo c (.closing conn))
  | append {c conn : Nat} {now : Time} : s.callers c = .appending conn →
      (s.maps.conns (s.addrOf conn)).length < UDPPoolMaxConnsPerAddr →
      UdpPoolStep s ({ s with
        owner := update s.owner (getShard (s.addrOf conn)) none
        maps := s.maps.set (s.addrOf conn)
          (s.maps.conns (s.addrOf conn) ++ [PooledConn.mk conn now]) }.goTo c .idle)
  | closeConn {c conn : Nat} : s.callers c = .closing conn →
      UdpPoolStep s ({ s with closedConns := update s.closedConns conn true }.goTo c .idle)
  | cleanupShard {c i : Nat} {now : Time} : s.callers c = .cleaning now i → s.owner i = none →
      UdpPoolStep s ((s.purgeShard i fun pc => !UDPConnPool.isStale now pc).goTo c
        (.cleaning now (i + 1)))
  | close {c : Nat} : s.callers c = .idle →
      UdpPoolStep s ({ s with closed := true }.goTo c (.draining 0))
  | closeShard {c i : Nat} : s.callers c = .draining i → s.owner i = none →
      UdpPoolStep s ((s.purgeShard i fun _ => false).goTo c (.draining (i + 1)))
  | closeDone {c : Nat} : s.callers c = .draining UDPPoolShards →
      UdpPoolStep s ({ s with closeReturned := true }.goTo c .idle)

theorem udpPoolStep_of_step {s s' : UdpPoolState} {op : UdpPoolOp}
    (h : udpPoolMachine.step s op = some s') : UdpPoolStep s s' := by
  change s.step op = some s' at h
  -- what a goroutine does that keeps its connection to itself
  have hAdvance : ∀ {c a b}, s.callers c = b → a.conn = b.conn → (∀ conn, a ≠ .appending conn) ∧
      (∀ i, a ≠ .draining i) ∧ (∀ conn, b ≠ .appending conn) → UdpPoolStep s (s.goTo c a) := by
    rintro c a b rfl hConn ⟨hAppend, hDrain, hHold⟩
    exact .advance hConn hAppend hDrain hHold
  cases op <;> simp only [UdpPoolState.step] at h
  case get c addr =>
    obtain ⟨⟨hIdle, -⟩, h⟩ := ite_none_right_eq_some.mp h
    cases hLast : (s.maps.conns addr).getLast? with
    | none =>
      rw [hLast] at h
      cases h
      exact hAdvance hIdle rfl (by simp)
    | some pc =>
      rw [hLast] at h
      cases h
      obtain ⟨rest, hRest⟩ := getLast?_eq_some_iff.mp hLast
      rw [hRest, dropLast_concat]
      exact .getPooled hIdle hRest
  case dial c ok =>
    split at h
    · next addr hDial =>
      split at h
      · cases h
        exact .dialed hDial
      · cases h
        exact hAdvance hDial rfl (by simp)
    · cases h
  case put c =>
    split at h <;> cases h
    next conn hHold => split <;> exact hAdvance hHold rfl (by simp)
  case lock c =>
    split at h
    · next conn hPut =>
      obtain ⟨hFree, h⟩ := ite_none_right_eq_some.mp h
      split at h
      · cases h
        exact hAdvance hPut rfl (by simp)
      · next hOpen =>
        cases h
        exact .lock hPut (by simpa using hOpen) hFree
    · cases h
  case append c now =>
    split at h
    · next conn hAppend =>
      split at h
      · cases h
        exact .full hAppend
      · next hRoom =>
        cases h
        exact .append hAppend (Nat.not_le.mp hRoom)
    · cases h
  case discard c =>
    split at h <;> cases h
    next conn hHold => exact hAdvance hHold rfl (by simp)
  case closeConn c =>
    split at h <;> cases h
    next conn hClosing => exact .closeConn hClosing
  case cleanup c now =>
    obtain ⟨hIdle, ⟨⟩⟩ := ite_none_right_eq_some.mp h
    exact hAdvance hIdle rfl (by simp)
  case cleanupShard c =>
    split at h
    · next now i hClean =>
      split at h
      · cases h
        exact hAdvance hClean rfl (by simp)
      · obtain ⟨hFree, ⟨⟩⟩ := ite_none_right_eq_some.mp h
        exact .cleanupShard hClean hFree
    · cases h
  case close c =>
    obtain ⟨hIdle, ⟨⟩⟩ := ite_none_right_eq_some.mp h
    exact .close hIdle
  case closeShard c =>
    split at h
    · next i hDrain =>
      obtain ⟨⟨-, hFree⟩, ⟨⟩⟩ := ite_none_right_eq_some.mp h
      exact .closeShard hDrain hFree
    · cases h
  case closeDone c =>
    split at h
    · next i hDrain =>
      obtain ⟨rfl, ⟨⟩⟩ := ite_none_right_eq_some.mp h
      exact .closeDone hDrain
    · cases h

/-! ## Ownership -/

namespace UdpPoolState

/-- The ledger of the connections. -/
def ledger (s : UdpPoolState) : Ledger Nat String :=
  { held := fun c => (s.callers c).conn
    pooled := fun addr => (s.maps.conns addr).map (·.conn)
    closed := s.closedConns
    home := s.addrOf
    next := s.nextConn }

/-- A goroutine that goes on gives up what it held for what it holds now. -/
theorem ledger_goTo (s : UdpPoolState) (c : Nat) (a : Activity) :
    (s.goTo c a).ledger = { s.ledger with held := update s.ledger.held c a.conn } := by
  have hHeld : (fun c' => (update s.callers c a c').conn) =
      update (fun c' => (s.callers c').conn) c a.conn :=
    comp_update Activity.conn s.callers c a
  simp only [ledger, goTo, hHeld]

theorem ledger_held {s : UdpPoolState} {c : Nat} {a : Activity} (h : s.callers c = a) :
    s.ledger.held c = a.conn :=
  congrArg Activity.conn h

theorem ledger_goTo_same {s : UdpPoolState} {c : Nat} {a : Activity}
    (h : a.conn = (s.callers c).conn) : (s.goTo c a).ledger = s.ledger := by
  have hHeld : update s.ledger.held c (s.callers c).conn = s.ledger.held :=
    update_eq_self c _
  rw [ledger_goTo, h, hHeld]

theorem pooled_set (m : ShardMaps) (addr : String) (conns : List PooledConn) :
    (fun addr' => ((m.set addr conns).conns addr').map (·.conn)) =
      update (fun addr' => (m.conns addr').map (·.conn)) addr (conns.map (·.conn)) :=
  comp_update (map PooledConn.conn) m.conns addr conns

variable (s : UdpPoolState) (i : Nat) (keep : PooledConn → Bool)

theorem purgeShard_callers : (s.purgeShard i keep).callers = s.callers := rfl

/-- The loop over a shard is a purge of the ledger. -/
theorem purgeShard_move : s.ledger.Move (s.purgeShard i keep).ledger := by
  let gone (addr : String) : List Nat :=
    if getShard addr = i then ((s.maps.conns addr).filter fun pc => !keep pc).map (·.conn) else []
  refine .purge _ gone _ ?_ ?_
  · intro addr
    show (((s.maps.filterShard i keep).conns addr).map (·.conn) ++ gone addr).Perm
      ((s.maps.conns addr).map (·.conn))
    simp only [ShardMaps.filterShard, gone]
    split
    · rw [← map_append]
      exact (filter_append_perm keep _).map _
    · rw [append_nil]
  · intro k
    have hGone : (∃ addr, k ∈ gone addr) ↔ k ∈ s.maps.removedFrom i keep := by
      rw [ShardMaps.mem_removedFrom]
      refine exists_congr fun addr => ?_
      simp only [gone]
      split
      · next hShard => exact (and_iff_right hShard).symm
      · next hShard => exact iff_of_false not_mem_nil fun h => hShard h.1
    show (s.closedConns k || decide (k ∈ s.maps.removedFrom i keep)) = true ↔ _
    rw [hGone, Bool.or_eq_true, decide_eq_true_eq]
    rfl

end UdpPoolState

namespace UdpPoolStep

open UdpPoolState

variable {s s' : UdpPoolState}

theorem move (h : UdpPoolStep s s') : s.ledger.Move s'.ledger := by
  -- a goroutine that keeps what it holds does not show in the ledger
  have hStay : ∀ (t : UdpPoolState) (c : Nat) (a : Activity), t.ledger = s.ledger →
      t.callers = s.callers → a.conn = (s.callers c).conn → s.ledger.Move (t.goTo c a).ledger := by
    intro t c a hLedger hCallers ha
    rw [ledger_goTo_same (by rw [hCallers, ha]), hLedger]
    exact .stay
  cases h with
  | advance hConn => exact hStay s _ _ rfl rfl hConn
  | lock hPut => exact hStay _ _ _ rfl rfl (by rw [hPut]; rfl)
  | full hAppend => exact hStay _ _ _ rfl rfl (by rw [hAppend]; rfl)
  | close hIdle => exact hStay _ _ _ rfl rfl (by rw [hIdle]; rfl)
  | closeDone hDrain => exact hStay _ _ _ rfl rfl (by rw [hDrain]; rfl)
  | @getPooled c addr rest pc hIdle hRest =>
    have hPooled : s.ledger.pooled addr = rest.map (·.conn) ++ [pc.conn] := by
      show (s.maps.conns addr).map (·.conn) = _
      rw [hRest, map_append]
      rfl
    have hMove := Ledger.Move.take c addr _ _ (ledger_held hIdle) hPooled
    rw [ledger_goTo]
    simp only [ledger, pooled_set]
    exact hMove
  | @dialed c addr hDial =>
    rw [ledger_goTo]
    exact .create c addr (ledger_held hDial)
  | @append c conn now hAppend hRoom =>
    have hMove := Ledger.Move.store c conn (ledger_held hAppend)
    rw [ledger_goTo]
    simp only [ledger, pooled_set, map_append]
    exact hMove
  | @closeConn c conn hClosing =>
    rw [ledger_goTo]
    exact .close c conn (ledger_held hClosing)
  | cleanupShard hClean =>
    rw [ledger_goTo_same (by rw [s.purgeShard_callers, hClean]; rfl)]
    exact s.purgeShard_move _ _
  | closeShard hDrain =>
    rw [ledger_goTo_same (by rw [s.purgeShard_callers, hDrain]; rfl)]
    exact s.purgeShard_move _ _

/-- A shard never holds more than four connections for one address. -/
theorem length_le (h : UdpPoolStep s s')
    (hCap : ∀ addr, (s.maps.conns addr).length ≤ UDPPoolMaxConnsPerAddr) (addr : String) :
    (s'.maps.conns addr).length ≤ UDPPoolMaxConnsPerAddr := by
  have hSet : ∀ addr' conns, conns.length ≤ UDPPoolMaxConnsPerAddr →
      ((s.maps.set addr' conns).conns addr).length ≤ UDPPoolMaxConnsPerAddr := by
    intro addr' conns hLen
    have hAll : ∀ b, (update s.maps.conns addr' conns b).length ≤ UDPPoolMaxConnsPerAddr :=
      (forall_update_iff s.maps.conns
        fun _ conns => conns.length ≤ UDPPoolMaxConnsPerAddr).mpr ⟨hLen, fun b _ => hCap b⟩
    exact hAll addr
  have hFilter : ∀ i keep,
      ((s.maps.filterShard i keep).conns addr).length ≤ UDPPoolMaxConnsPerAddr := by
    intro i keep
    simp only [ShardMaps.filterShard]
    split
    · exact Nat.le_trans (length_filter_le _ _) (hCap addr)
    · exact hCap addr
  cases h with
  | @getPooled c addr' rest pc hIdle hRest =>
    refine hSet addr' rest ?_
    have := hCap addr'
    rw [hRest, length_append] at this
    omega
  | append hAppend hRoom =>
    refine hSet _ _ ?_
    rw [length_append]
    exact hRoom
  | cleanupShard => exact hFilter _ _
  | closeShard => exact hFilter _ _
  | _ => exact hCap addr

end UdpPoolStep

/-! ## Shutdown -/

namespace UdpPoolState

/-- Shard `j` is empty, and no `Put` is about to change that. -/
def Drained (s : UdpPoolState) (j : Nat) : Prop :=
  (∀ addr, getShard addr = j → s.maps.conns addr = []) ∧
    ∀ c conn, s.callers c = .appending conn → getShard (s.addrOf conn) ≠ j

/-- A `Put` that is past its second look at the flag has the lock. -/
def Locked (s : UdpPoolState) : Prop :=
  ∀ c conn, s.callers c = .appending conn → s.owner (getShard (s.addrOf conn)) = some c

/-- `Close` leaves only drained shards behind. -/
structure Shutdown (s : UdpPoolState) : Prop where
  draining : ∀ c i, s.callers c = .draining i → s.closed = true ∧ ∀ j < i, s.Drained j
  returned : s.closeReturned = true → s.closed = true ∧ ∀ j < UDPPoolShards, s.Drained j

theorem callers_goTo {t : UdpPoolState} {c c' : Nat} {a b : Activity} :
    (t.goTo c a).callers c' = b ↔ c' = c ∧ a = b ∨ c' ≠ c ∧ t.callers c' = b :=
  update_eq_iff

/-- Who does what the step does not lead to did so before. -/
theorem callers_of_goTo {t : UdpPoolState} {c c' : Nat} {a b : Activity}
    (h : (t.goTo c a).callers c' = b) (hNe : a ≠ b) : c' ≠ c ∧ t.callers c' = b :=
  (callers_goTo.mp h).resolve_left fun hEq => hNe hEq.2

end UdpPoolState

namespace UdpPoolStep

open UdpPoolState

variable {s s' : UdpPoolState}

theorem closed_of_closed (h : UdpPoolStep s s') (hClosed : s.closed = true) :
    s'.closed = true := by
  cases h with
  | close => rfl
  | _ => exact hClosed

theorem closeReturned_of_returned (h : UdpPoolStep s s') (hReturned : s.closeReturned = true) :
    s'.closeReturned = true := by
  cases h with
  | closeDone => rfl
  | _ => exact hReturned

/-- A connection that is being appended is not a new one. -/
theorem ne_nextConn (hOwned : s.ledger.WellOwned) {c conn : Nat}
    (hAppend : s.callers c = .appending conn) : conn ≠ s.nextConn := by
  have hAt : s.ledger.At conn (.held c) := ledger_held hAppend
  exact Nat.ne_of_lt (hOwned.fresh conn _ hAt)

theorem locked (h : UdpPoolStep s s') (hOwned : s.ledger.WellOwned) (hLocked : s.Locked) :
    s'.Locked := by
  -- locks and addresses are as before, and the goroutine that goes on does not append
  have hKeep : ∀ (t : UdpPoolState) (c : Nat) (a : Activity), t.callers = s.callers →
      t.owner = s.owner → t.addrOf = s.addrOf → (∀ conn, a ≠ .appending conn) →
      (t.goTo c a).Locked := by
    intro t c a hCallers hOwner hAddr hNot c' conn hAppend
    obtain ⟨-, hOld⟩ := callers_of_goTo hAppend (hNot conn)
    show t.owner (getShard (t.addrOf conn)) = some c'
    rw [hOwner, hAddr]
    exact hLocked c' conn (hCallers ▸ hOld)
  -- who leaves the critical section frees a lock that nobody else has
  have hLeave : ∀ (t : UdpPoolState) (c conn : Nat) (a : Activity),
      s.callers c = .appending conn → t.callers = s.callers → t.addrOf = s.addrOf →
      t.owner = update s.owner (getShard (s.addrOf conn)) none →
      (∀ conn, a ≠ .appending conn) → (t.goTo c a).Locked := by
    intro t c conn a hMine hCallers hAddr hOwner hNot c' conn' hAppend
    obtain ⟨hNe, hOld⟩ := callers_of_goTo hAppend (hNot conn')
    have hTheirs := hLocked c' conn' (hCallers ▸ hOld)
    show t.owner (getShard (t.addrOf conn')) = some c'
    rw [hOwner, hAddr, update_of_ne]
    · exact hTheirs
    · intro hShard
      rw [hShard, hLocked c conn hMine, some.injEq] at hTheirs
      exact hNe hTheirs.symm
  cases h with
  | @lock c conn hPut hOpen hFree =>
    intro c' conn' hAppend
    show update s.owner _ (some c) (getShard (s.addrOf conn')) = some c'
    rcases callers_goTo.mp hAppend with ⟨rfl, hEq⟩ | ⟨-, hOld⟩
    · cases hEq
      rw [update_self]
    · have hTheirs := hLocked c' conn' hOld
      rw [update_of_ne]
      · exact hTheirs
      · intro hShard
        rw [hShard, hFree] at hTheirs
        cases hTheirs
  | @dialed c addr hDial =>
    intro c' conn hAppend
    obtain ⟨-, hOld⟩ := callers_of_goTo hAppend (by simp)
    show s.owner (getShard (update s.addrOf s.nextConn addr conn)) = some c'
    rw [update_of_ne (ne_nextConn hOwned hOld)]
    exact hLocked c' conn hOld
  | full hAppend => exact hLeave _ _ _ _ hAppend rfl rfl rfl (by simp)
  | append hAppend => exact hLeave _ _ _ _ hAppend rfl rfl rfl (by simp)
  | advance _ hNot => exact hKeep _ _ _ rfl rfl rfl hNot
  | _ => exact hKeep _ _ _ rfl rfl rfl (by simp)

/-- Once the flag is set, a drained shard stays drained. -/
theorem drained (h : UdpPoolStep s s') (hOwned : s.ledger.WellOwned) (hClosed : s.closed = true)
    {j : Nat} (hDrained : s.Drained j) : s'.Drained j := by
  obtain ⟨hEmpty, hNone⟩ := hDrained
  have hKeep : ∀ (t : UdpPoolState) (c : Nat) (a : Activity), t.callers = s.callers →
      t.addrOf = s.addrOf → (∀ conn, a ≠ .appending conn) →
      (∀ addr, getShard addr = j → t.maps.conns addr = []) → (t.goTo c a).Drained j := by
    intro t c a hCallers hAddr hNot hMaps
    refine ⟨hMaps, fun c' conn hAppend => ?_⟩
    obtain ⟨-, hOld⟩ := callers_of_goTo hAppend (hNot conn)
    show getShard (t.addrOf conn) ≠ j
    rw [hAddr]
    exact hNone c' conn (hCallers ▸ hOld)
  have hSet : ∀ addr' conns, getShard addr' ≠ j → ∀ addr, getShard addr = j →
      (s.maps.set addr' conns).conns addr = [] := by
    intro addr' conns hNe addr hShard
    have : addr ≠ addr' := fun hEq => hNe (hEq ▸ hShard)
    show update s.maps.conns addr' conns addr = []
    rw [update_of_ne this]
    exact hEmpty addr hShard
  have hFilter : ∀ i keep addr, getShard addr = j →
      (s.maps.filterShard i keep).conns addr = [] := by
    intro i keep addr hShard
    simp only [ShardMaps.filterShard, hEmpty addr hShard, filter_nil, ite_self]
  cases h with
  | lock _ hOpen =>
    rw [hClosed] at hOpen
    cases hOpen
  | @dialed c addr hDial =>
    refine ⟨hEmpty, fun c' conn hAppend => ?_⟩
    obtain ⟨-, hOld⟩ := callers_of_goTo hAppend (by simp)
    show getShard (update s.addrOf s.nextConn addr conn) ≠ j
    rw [update_of_ne (ne_nextConn hOwned hOld)]
    exact hNone c' conn hOld
  | @getPooled c addr rest pc hIdle hRest =>
    refine hKeep _ _ _ rfl rfl (by simp) (hSet addr rest ?_)
    intro hShard
    rw [hEmpty addr hShard] at hRest
    simp at hRest
  | append hAppend => exact hKeep _ _ _ rfl rfl (by simp) (hSet _ _ (hNone _ _ hAppend))
  | cleanupShard => exact hKeep _ _ _ rfl rfl (by simp) (hFilter _ _)
  | closeShard => exact hKeep _ _ _ rfl rfl (by simp) (hFilter _ _)
  | advance _ hNot => exact hKeep _ _ _ rfl rfl hNot hEmpty
  | _ => exact hKeep _ _ _ rfl rfl (by simp) hEmpty

/-- The critical section of `Close` drains its shard: nobody else is in there. -/
theorem drained_purgeShard (hLocked : s.Locked) {c i : Nat} {a : Activity}
    (hFree : s.owner i = none) (hNot : ∀ conn, a ≠ .appending conn) :
    ((s.purgeShard i fun _ => false).goTo c a).Drained i := by
  constructor
  · intro addr hShard
    show (s.maps.filterShard i fun _ => false).conns addr = []
    simp [ShardMaps.filterShard, hShard]
  · intro c' conn hAppend hShard
    have hOwner := hLocked c' conn (callers_of_goTo hAppend (hNot conn)).2
    rw [show getShard (s.addrOf conn) = i from hShard, hFree] at hOwner
    cases hOwner

/-- Where a call of `Close` comes from: it has just begun, it has just done a shard, or
the step is somebody else's. -/
theorem draining_cases (h : UdpPoolStep s s') {c i : Nat} (hDrain : s'.callers c = .draining i) :
    s.callers c = .draining i ∨ (i = 0 ∧ s'.closed = true) ∨
      ∃ j, i = j + 1 ∧ s.callers c = .draining j ∧ (s.Locked → s'.Drained j) := by
  have hKeep : ∀ (t : UdpPoolState) (c' : Nat) (a : Activity), t.callers = s.callers →
      (∀ i, a ≠ .draining i) → (t.goTo c' a).callers c = .draining i →
      s.callers c = .draining i := by
    intro t c' a hCallers hNot hGo
    exact hCallers ▸ (callers_of_goTo hGo (hNot i)).2
  cases h with
  | close =>
    rcases callers_goTo.mp hDrain with ⟨-, hEq⟩ | ⟨-, hOld⟩
    · cases hEq
      exact .inr (.inl ⟨rfl, rfl⟩)
    · exact .inl hOld
  | closeShard hBefore hFree =>
    rcases callers_goTo.mp hDrain with ⟨rfl, hEq⟩ | ⟨-, hOld⟩
    · cases hEq
      exact .inr (.inr ⟨_, rfl, hBefore, fun hLocked =>
        drained_purgeShard hLocked hFree (by simp)⟩)
    · exact .inl hOld
  | advance _ _ hNot => exact .inl (hKeep _ _ _ rfl hNot hDrain)
  | _ => exact .inl (hKeep _ _ _ rfl (by simp) hDrain)

theorem shutdown (h : UdpPoolStep s s') (hOwned : s.ledger.WellOwned) (hLocked : s.Locked)
    (hShut : s.Shutdown) : s'.Shutdown := by
  have hLater : ∀ n, s.closed = true ∧ (∀ j < n, s.Drained j) →
      s'.closed = true ∧ ∀ j < n, s'.Drained j := fun n hBefore =>
    ⟨h.closed_of_closed hBefore.1, fun j hj => h.drained hOwned hBefore.1 (hBefore.2 j hj)⟩
  constructor
  · intro c i hDrain
    rcases h.draining_cases hDrain with hOld | ⟨rfl, hClosed⟩ | ⟨j, rfl, hOld, hHere⟩
    · exact hLater i (hShut.draining c i hOld)
    · exact ⟨hClosed, fun j hj => absurd hj (Nat.not_lt_zero j)⟩
    · obtain ⟨hClosed, hBefore⟩ := hLater j (hShut.draining c j hOld)
      refine ⟨hClosed, fun j' hj' => ?_⟩
      by_cases hEq : j' = j
      · exact hEq ▸ hHere hLocked
      · exact hBefore j' (by omega)
  · intro hReturned
    cases h with
    | closeDone hDrain => exact hLater _ (hShut.draining _ _ hDrain)
    | _ => exact hLater _ (hShut.returned hReturned)

end UdpPoolStep

/-! ## Runs -/

/-- The invariant of the pool. -/
structure PoolInv (s : UdpPoolState) : Prop where
  owned : s.ledger.WellOwned
  capped : ∀ addr, (s.maps.conns addr).length ≤ UDPPoolMaxConnsPerAddr
  locked : s.Locked
  shutdown : s.Shutdown

theorem PoolInv.init {s : UdpPoolState} (h : udpPoolMachine.init s) : PoolInv s := by
  obtain ⟨hMaps, -, -, hConns, hNext, hIdle, hReturned⟩ := h
  have hLedger : s.ledger = Ledger.empty s.addrOf := by
    simp only [UdpPoolState.ledger, Ledger.empty, hMaps, hNext, hIdle, ShardMaps.empty,
      Activity.conn, map_nil, funext hConns]
  refine ⟨hLedger ▸ Ledger.WellOwned.empty _, ?_, ?_, ?_, ?_⟩
  · intro addr
    rw [hMaps]
    exact Nat.zero_le _
  · intro c conn hAppend
    rw [hIdle c] at hAppend
    cases hAppend
  · intro c i hDrain
    rw [hIdle c] at hDrain
    cases hDrain
  · intro h
    rw [hReturned] at h
    cases h

theorem PoolInv.step {s s' : UdpPoolState} (h : PoolInv s) (hStep : UdpPoolStep s s') :
    PoolInv s' where
  owned := h.owned.move hStep.move
  capped := hStep.length_le h.capped
  locked := hStep.locked h.owned h.locked
  shutdown := hStep.shutdown h.owned h.locked h.shutdown

theorem PoolInv.of_reach {s : UdpPoolState} {ok : UdpPoolState → UdpPoolOp → Prop}
    (hs : udpPoolMachine.Reach ok s) : PoolInv s :=
  hs.invariant (P := PoolInv) (fun _ h => .init h) fun _ _ _ ih _ hNext =>
    ih.step (udpPoolStep_of_step hNext)

/-- In every interleaving: each connection is with one caller, pooled once under its
own address, or closed; at most four are pooled for an address; `Get` returns no
closed connection; and once `Close` has returned, the pool is empty for good. -/
theorem pool_ownership {s : UdpPoolState} (hs : udpPoolMachine.Reach anyStep s) :
    (∀ conn < s.nextConn, ∃ p, s.ledger.OnlyAt conn p ∧
      ∀ addr, p = .pooled addr → addr = s.addrOf conn ∧ (s.ledger.pooled addr).count conn = 1) ∧
    (∀ addr, (s.maps.conns addr).length ≤ 4) ∧
    (∀ op s' c conn, udpPoolMachine.step s op = some s' → s.callers c ≠ .holding conn →
      s'.callers c = .holding conn → s'.closedConns conn = false) ∧
    (s.closeReturned = true → ∀ s', (udpPoolMachine.startAt s).Reach anyStep s' →
      ∀ addr, s'.maps.conns addr = []) := by
  have hInv := PoolInv.of_reach hs
  refine ⟨?_, hInv.capped, ?_, ?_⟩
  · intro conn hConn
    obtain ⟨p, hp⟩ := hInv.owned.placed conn hConn
    refine ⟨p, hp, ?_⟩
    rintro addr rfl
    have hMem : conn ∈ s.ledger.pooled addr := (hp (.pooled addr)).mpr rfl
    exact ⟨(hInv.owned.home addr conn hMem).symm, count_eq_one_of_mem (hInv.owned.nodup addr) hMem⟩
  · intro op s' c conn hStep _ hHold
    have hOwned' := (hInv.step (udpPoolStep_of_step hStep)).owned
    have hHeld : s'.ledger.At conn (.held c) := UdpPoolState.ledger_held hHold
    -- what is held is nowhere else
    by_contra hClosed
    have hAt : s'.ledger.At conn .closed := by
      show s'.closedConns conn = true
      simpa using hClosed
    cases (hOwned'.onlyAt hHeld .closed).mp hAt
  · intro hReturned s' hs' addr
    have hReturned' : s'.closeReturned = true :=
      hs'.invariant (P := fun s => s.closeReturned = true) (fun _ h => h ▸ hReturned)
        fun _ _ _ ih _ hNext => (udpPoolStep_of_step hNext).closeReturned_of_returned ih
    have hShut := (PoolInv.of_reach (hs.of_startAt hs')).shutdown
    exact ((hShut.returned hReturned').2 _ (getShard_lt addr)).1 addr rfl

/-- A pool that has not been used yet. -/
def newUdpPoolState : UdpPoolState :=
  { maps := .empty, closed := false, owner := fun _ => none, addrOf := fun _ => ""
    closedConns := fun _ => false, nextConn := 0, callers := fun _ => .idle
    closeReturned := false }

/-- A connection is dialed, put back and taken again; then the pool is closed while it
is in use, and it is put back once more. -/
def closingRun : List UdpPoolOp :=
  [.get 0 "192.0.2.1:443", .dial 0 true, .put 0, .lock 0, .append 0 0, .get 1 "192.0.2.1:443",
    .close 2] ++ replicate UDPPoolShards (.closeShard 2) ++
  [.put 1, .closeConn 1, .closeDone 2]

/-- Afterwards the pool is empty for good, and the connection is closed. -/
theorem pool_ownership_closed :
    ∃ s, udpPoolMachine.Reach anyStep s ∧ s.nextConn = 1 ∧ s.closedConns 0 = true ∧
      ∀ s', (udpPoolMachine.startAt s).Reach anyStep s' →
        ∀ addr, s'.maps.conns addr = [] := by
  have hRun : (udpPoolMachine.exec newUdpPoolState closingRun).map
      (fun s => (s.nextConn, s.closedConns 0, s.closeReturned)) = some (1, true, true) := by
    decide +kernel
  obtain ⟨s, hs, hEq⟩ := map_eq_some_iff.mp hRun
  simp only [Prod.mk.injEq] at hEq
  obtain ⟨hNext, hClosed, hReturned⟩ := hEq
  have hReach : udpPoolMachine.Reach anyStep s :=
    Machine.Reach.exec (fun _ _ _ => trivial)
      (.init ⟨rfl, rfl, fun _ => rfl, fun _ => rfl, rfl, fun _ => rfl, rfl⟩) hs
  exact ⟨s, hReach, hNext, hClosed, (pool_ownership hReach).2.2.2 hReturned⟩

end DnscryptProxy
