import DnscryptProxy.Common

/-!
# The pool of UDP connections

`udp_conn_pool.go`, over sockets that queue what the network delivers. The
shards only split the map for the sake of locking, so the pool is one map from
addresses to idle connections; each operation on it is one critical section.
-/

namespace DnscryptProxy

open Function

def UDPPoolMaxConnsPerAddr : Nat := 4
def UDPPoolMaxIdleTime : Duration := 30 * Second

/-- A connected socket and its receive queue. -/
structure Socket where
  addr : String
  queue : List Bytes
deriving Repr, DecidableEq

structure PooledConn where
  conn : Nat
  lastUsed : Time
deriving Repr, DecidableEq

structure UDPConnPool where
  conns : String → List PooledConn
  closed : Bool

namespace UDPConnPool

variable {pool pool' : UDPConnPool} {addr : String} {conn : Nat}

/-- `NewUDPConnPool`. -/
def new : UDPConnPool := { conns := fun _ => [], closed := false }

/-- The pool part of `Get`: the connection used last, if there is one. -/
def get (pool : UDPConnPool) (addr : String) : UDPConnPool × Option Nat :=
  match (pool.conns addr).getLast? with
  | none => (pool, none)
  | some pc =>
    ({ pool with conns := update pool.conns addr (pool.conns addr).dropLast }, some pc.conn)

/-- `Put` keeps the connection, or says that it is to be closed. -/
def put (pool : UDPConnPool) (addr : String) (conn : Nat) (now : Time) : UDPConnPool × Bool :=
  if pool.closed then (pool, false)
  else if (pool.conns addr).length ≥ UDPPoolMaxConnsPerAddr then (pool, false)
  else
    ({ pool with
        conns := update pool.conns addr (pool.conns addr ++ [⟨conn, now⟩]) }, true)

/-- A connection that `get` returns was the last one under its address, and is
gone from there. -/
theorem get_eq_some (h : pool.get addr = (pool', some conn)) :
    ∃ pc, pc.conn = conn ∧ pool.conns addr = pool'.conns addr ++ [pc] ∧
      ∀ other, other ≠ addr → pool'.conns other = pool.conns other := by
  unfold get at h
  cases hLast : (pool.conns addr).getLast? with
  | none =>
    rw [hLast] at h
    cases h
  | some pc =>
    rw [hLast] at h
    cases h
    obtain ⟨init, hInit⟩ := List.getLast?_eq_some_iff.mp hLast
    refine ⟨pc, rfl, ?_, fun other hNe => update_of_ne hNe _ _⟩
    dsimp only
    rw [update_self, hInit, List.dropLast_concat]

/-- A connection that `put` keeps is the last one under its address. -/
theorem put_eq_true {now : Time} (h : pool.put addr conn now = (pool', true)) :
    pool'.conns addr = pool.conns addr ++ [⟨conn, now⟩] ∧
      ∀ other, other ≠ addr → pool'.conns other = pool.conns other := by
  unfold put at h
  split at h
  · cases h
  · split at h
    · cases h
    · cases h
      exact ⟨update_self _ _ _, fun other hNe => update_of_ne hNe _ _⟩

theorem put_eq_false {now : Time} (h : pool.put addr conn now = (pool', false)) : pool' = pool := by
  unfold put at h
  split at h
  · cases h; rfl
  · split at h
    · cases h; rfl
    · cases h

/-- Idle for too long. -/
def isStale (now : Time) (pc : PooledConn) : Bool :=
  decide (now - pc.lastUsed > UDPPoolMaxIdleTime)

def cleanupStale (pool : UDPConnPool) (now : Time) : UDPConnPool :=
  { pool with conns := fun addr => (pool.conns addr).filter fun pc => !isStale now pc }

def close (_ : UDPConnPool) : UDPConnPool := { conns := fun _ => [], closed := true }

end UDPConnPool

end DnscryptProxy
