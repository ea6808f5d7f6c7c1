import DnscryptProxy.Base.Run
import DnscryptProxy.Crypto.Box
import DnscryptProxy.Upstream.UdpPool
import Mathlib.Data.List.Nodup

/-!
# Exchanges over pooled UDP connections

`exchangeWithUDPServer` of `proxy.go`, step by step, for any number of
exchanges at once, over sockets into which the network puts what it likes: it
may lose, delay, reorder and duplicate datagrams, and make them up.

A connection goes back into the pool after the first datagram that was read on
it, before anybody looks at that datagram. So a datagram too many stays ahead
of the answers from then on.

* `pooled_in_sync` — as long as a socket gets no datagram but one answer to the
  query written on it, a connection is put back only after that answer was read
  and authenticated, and with an empty queue;
* `duplicate_shifts_answers` — one duplicated datagram, and every later query
  on the connection reads the answer to the one before.

The exchanges through a SOCKS proxy dial a connection each and are left out.
-/

namespace DnscryptProxy

open Base List Function Option

/-! ## The machine -/

/-- What one exchange is about: where the query goes, and how to open the
answer. -/
structure UdpJob where
  upstreamAddr : String
  keys : BoxKeys

/-- An exchange under way: `tries` rounds are left, and the query of this round
was written or not. -/
structure UdpExchange where
  job : UdpJob
  conn : Nat
  connReused : Bool
  tries : Nat
  written : Bool

/-- Not in the source: a datagram that was read, and whether the connection
went back into the pool. -/
structure UdpRead where
  job : UdpJob
  datagram : Bytes
  pooled : Bool

structure UdpState where
  /-- the open sockets -/
  sockets : Nat → Option Socket
  nextConn : Nat
  pool : UDPConnPool
  active : List (Nat × UdpExchange)
  nextId : Nat
  reads : List UdpRead
  /-- what the exchanges returned, with `connReused` -/
  ended : List (Nat × Except GoError Bytes × Bool)

inductive UdpLabel where
  /-- `Get` and `SetDeadline`; a dial may fail, if one is needed -/
  | start (job : UdpJob) (dialErr deadlineErr : Option GoError)
  | write (id : Nat) (err : Option GoError)
  /-- `Read` returns the next datagram, `Put` and `Decrypt` follow -/
  | read (id : Nat) (now : Time)
  /-- `Read` fails, usually at the deadline -/
  | readError (id : Nat) (err : GoError)
  /-- the network puts a datagram into the queue of a socket -/
  | deliver (conn : Nat) (datagram : Bytes)
  | cleanupStale (now : Time)
  | close

namespace UdpState

variable (s : UdpState)

/-- The exchange `id` returns. -/
def finish (id : Nat) (result : Except GoError Bytes) (connReused : Bool) : UdpState :=
  { s with
    active := s.active.filter fun e => decide (e.1 ≠ id)
    ended := s.ended ++ [(id, result, connReused)] }

def closeSocket (conn : Nat) : UdpState :=
  { s with sockets := update s.sockets conn none }

/-- `Get`: a pooled connection, or a new one. -/
def getConn (addr : String) (dialErr : Option GoError) : UdpState × Except GoError (Nat × Bool) :=
  match s.pool.get addr, dialErr with
  | (pool, some conn), _ => ({ s with pool := pool }, .ok (conn, true))
  | (_, none), some err => (s, .error err)
  | (_, none), none =>
    ({ s with
        sockets := update s.sockets s.nextConn (some { addr := addr, queue := [] })
        nextConn := s.nextConn + 1 }, .ok (s.nextConn, false))

/-- `exchangeWithUDPServer` up to its loop. -/
def start (job : UdpJob) (dialErr deadlineErr : Option GoError) : UdpState :=
  let id := s.nextId
  match getConn { s with nextId := id + 1 } job.upstreamAddr dialErr with
  | (s, .error err) => s.finish id (.error err) false
  | (s, .ok (conn, connReused)) =>
    match deadlineErr with
    | some err => (s.closeSocket conn).finish id (.error err) false
    | none =>
      { s with
        active := s.active ++
          [(id, { job := job, conn := conn, connReused := connReused, tries := 2
                  written := false })] }

variable (id : Nat) (x : UdpExchange)

/-- Replace the exchange `id`. -/
def setExchange : UdpState :=
  { s with active := s.active.map fun e => if e.1 = id then (id, x) else e }

def write (err : Option GoError) : UdpState :=
  match err with
  | some err => (s.closeSocket x.conn).finish id (.error err) false
  | none => s.setExchange id { x with written := true }

/-- A read that failed: once more, or give up. -/
def readError (err : GoError) : UdpState :=
  if x.tries ≤ 1 then (s.closeSocket x.conn).finish id (.error err) false
  else s.setExchange id { x with tries := x.tries - 1, written := false }

/-- `Put` of the connection `conn`. -/
def putConn (addr : String) (conn : Nat) (now : Time) : UdpState :=
  match s.pool.put addr conn now with
  | (pool, true) => { s with pool := pool }
  | (pool, false) => closeSocket { s with pool := pool } conn

variable (prim : Primitives) (s : UdpState) (id : Nat) (x : UdpExchange)

/-- The exchange `id` takes a datagram off the queue and returns what `Decrypt`
makes of it. `Read` cuts the datagram to the size of the buffer. -/
def receive (head : Bytes) (rest : List Bytes) (pooled : Bool) : UdpState :=
  let datagram := head.take MaxDNSPacketSize
  finish
    { s with
      sockets := update s.sockets x.conn
        (some { addr := x.job.upstreamAddr, queue := rest })
      reads := s.reads ++ [{ job := x.job, datagram := datagram, pooled := pooled }] }
    id (decrypt prim x.job.keys datagram) x.connReused

/-- A read that succeeded: `Put`, whatever the datagram is. -/
def read (now : Time) (head : Bytes) (rest : List Bytes) : UdpState :=
  let addr := x.job.upstreamAddr
  (s.receive prim id x head rest (s.pool.put addr x.conn now).2).putConn addr x.conn now

def deliver (conn : Nat) (sk : Socket) (datagram : Bytes) : UdpState :=
  { s with
    sockets := update s.sockets conn (some { sk with queue := sk.queue ++ [datagram] }) }

/-- Close the pooled connections that `gone` picks. -/
def closePooled (gone : PooledConn → Bool) : Nat → Option Socket := fun conn =>
  (s.sockets conn).bind fun sk =>
    if (s.pool.conns sk.addr).any fun pc => decide (pc.conn = conn) && gone pc then none
    else some sk

end UdpState

/-- The exchange `id`, if it has come as far as `written`. -/
def UdpState.find (s : UdpState) (id : Nat) (written : Bool) : Option UdpExchange :=
  (s.active.find? fun e => decide (e.1 = id ∧ e.2.written = written)).map (·.2)

/-- All exchanges with their sockets. Runs start with nothing open. -/
def udpMachine (prim : Primitives) : Machine UdpState UdpLabel where
  init s :=
    s.sockets = (fun _ => none) ∧ s.pool.conns = (fun _ => []) ∧ s.active = [] ∧ s.reads = []
  step s
    | .start job dialErr deadlineErr => some (s.start job dialErr deadlineErr)
    | .write id err => (s.find id false).map fun x => s.write id x err
    | .readError id err => (s.find id true).map fun x => s.readError id x err
    | .read id now =>
      (s.find id true).bind fun x => (s.sockets x.conn).bind fun sk =>
        match sk.queue with
        | [] => none
        | head :: rest => some (s.read prim id x now head rest)
    | .deliver conn datagram => (s.sockets conn).map fun sk => s.deliver conn sk datagram
    | .cleanupStale now =>
      some { s with
        sockets := s.closePooled (UDPConnPool.isStale now)
        pool := s.pool.cleanupStale now }
    | .close => some { s with sockets := s.closePooled fun _ => true, pool := s.pool.close }

/-! ## The invariant -/

/-- The network gives a socket one answer: to the query that was written on it
last, while that query waits for it, and nothing else. It may lose the answer,
and delay it for as long as somebody waits. -/
def OneAnswer (prim : Primitives) (s : UdpState) : UdpLabel → Prop
  | .deliver conn datagram =>
    (∀ sk, s.sockets conn = some sk → sk.queue = []) ∧
      ∃ id x, (id, x) ∈ s.active ∧ x.conn = conn ∧ (x.written = true ∨ x.tries < 2) ∧
        ServerAnswer prim x.job.keys datagram
  | _ => True

/-- The queue of a socket on which this job waits: at most its answer. -/
def Awaited (prim : Primitives) (job : UdpJob) (queue : List Bytes) : Prop :=
  queue = [] ∨ ∃ datagram, queue = [datagram] ∧ ServerAnswer prim job.keys datagram

/-- Nobody holds the connection `conn`. -/
structure UdpState.Free (s : UdpState) (conn : Nat) : Prop where
  active : ∀ id x, (id, x) ∈ s.active → x.conn ≠ conn
  pooled : ∀ addr pc, pc ∈ s.pool.conns addr → pc.conn ≠ conn

/-- The pooled connections are open and have nothing in their queues; each
connection has one owner; and a queue holds at most the answer that its owner
waits for. -/
structure InSync (prim : Primitives) (s : UdpState) : Prop where
  fresh : ∀ c, s.nextConn ≤ c → s.sockets c = none
  pooled : ∀ addr pc, pc ∈ s.pool.conns addr → s.sockets pc.conn = some ⟨addr, []⟩
  once : ∀ addr, ((s.pool.conns addr).map (·.conn)).Nodup
  held : ∀ id x, (id, x) ∈ s.active → ∃ queue, s.sockets x.conn = some ⟨x.job.upstreamAddr, queue⟩ ∧
    Awaited prim x.job queue
  apart : ∀ id x, (id, x) ∈ s.active → ∀ addr pc, pc ∈ s.pool.conns addr → pc.conn ≠ x.conn
  alone : ∀ id x id' y, (id, x) ∈ s.active → (id', y) ∈ s.active → x.conn = y.conn →
    id = id' ∧ x.job = y.job
  reads : ∀ r ∈ s.reads, ∃ packet, decrypt prim r.job.keys r.datagram = .ok packet

namespace InSync

variable {prim : Primitives} {s s' : UdpState}

variable {x : UdpExchange} {id : Nat} {conn : Nat} {sk : Socket}

/-- An open socket was opened before. -/
theorem lt_nextConn (h : InSync prim s)
    (hSocket : s.sockets conn = some sk) : conn < s.nextConn := by
  by_contra hLe
  rw [h.fresh conn (Nat.le_of_not_lt hLe)] at hSocket
  cases hSocket

/-- Owners may go away, and with them their sockets. -/
theorem shrink (h : InSync prim s) (hActive : ∀ id x, (id, x) ∈ s'.active →
      ∃ y, (id, y) ∈ s.active ∧ y.conn = x.conn ∧ y.job = x.job)
    (hPool : ∀ addr, (s'.pool.conns addr).Sublist (s.pool.conns addr))
    (hSockets : ∀ c, ¬s'.Free c → s'.sockets c = s.sockets c)
    (hFresh : ∀ c, s'.nextConn ≤ c → s'.sockets c = none)
    (hReads : s'.reads = s.reads) : InSync prim s' where
  fresh := hFresh
  pooled addr pc hMem := by
    rw [hSockets _ fun hFree => hFree.pooled addr pc hMem rfl]
    exact h.pooled addr pc ((hPool addr).subset hMem)
  once addr := ((hPool addr).map _).nodup (h.once addr)
  held id x hMem := by
    obtain ⟨y, hy, hConn, hJob⟩ := hActive id x hMem
    rw [hSockets _ fun hFree => hFree.active id x hMem rfl, ← hConn, ← hJob]
    exact h.held id y hy
  apart id x hMem addr pc hPc := by
    obtain ⟨y, hy, hConn, -⟩ := hActive id x hMem
    rw [← hConn]
    exact h.apart id y hy addr pc ((hPool addr).subset hPc)
  alone id x id' y hx hy hEq := by
    obtain ⟨x₀, hx₀, hConnX, hJobX⟩ := hActive id x hx
    obtain ⟨y₀, hy₀, hConnY, hJobY⟩ := hActive id' y hy
    rw [← hJobX, ← hJobY]
    exact h.alone id x₀ id' y₀ hx₀ hy₀ (by rw [hConnX, hConnY, hEq])
  reads := by rw [hReads]; exact h.reads

/-- A new exchange takes a connection that nobody holds. -/
theorem hold (h : InSync prim s) (hFree : s.Free x.conn)
    (hSocket : s.sockets x.conn = some ⟨x.job.upstreamAddr, []⟩) :
    InSync prim { s with active := s.active ++ [(id, x)] } where
  fresh := h.fresh
  pooled := h.pooled
  once := h.once
  held i y hMem := by
    rcases mem_append.mp hMem with hOld | hNew
    · exact h.held i y hOld
    · cases mem_singleton.mp hNew
      exact ⟨[], hSocket, .inl rfl⟩
  apart i y hMem addr pc hPc := by
    rcases mem_append.mp hMem with hOld | hNew
    · exact h.apart i y hOld addr pc hPc
    · cases mem_singleton.mp hNew
      exact hFree.pooled addr pc hPc
  alone i y j z hy hz hEq := by
    -- two old exchanges, one old and the new one, or twice the new one
    rcases mem_append.mp hy with hOldY | hNewY <;>
      rcases mem_append.mp hz with hOldZ | hNewZ
    · exact h.alone i y j z hOldY hOldZ hEq
    · cases mem_singleton.mp hNewZ
      exact absurd hEq (hFree.active i y hOldY)
    · cases mem_singleton.mp hNewY
      exact absurd hEq.symm (hFree.active j z hOldZ)
    · cases mem_singleton.mp hNewY
      cases mem_singleton.mp hNewZ
      exact ⟨rfl, rfl⟩
  reads := h.reads

theorem setSocket (h : InSync prim s) {sk : Option Socket} (hFree : s.Free conn)
    (hOpened : sk = none ∨ conn < s.nextConn) :
    InSync prim { s with sockets := update s.sockets conn sk } := by
  have hFresh : ∀ c, s.nextConn ≤ c → update s.sockets conn sk c = none := by
    intro c hc
    by_cases hEq : c = conn
    · rcases hOpened with rfl | hLt
      · rw [hEq, update_self]
      · omega
    · rw [update_of_ne hEq, h.fresh c hc]
  refine h.shrink (fun id x hMem => ⟨x, hMem, rfl, rfl⟩) (fun _ => .refl _) ?_ hFresh rfl
  intro c hOwned
  have hNe : c ≠ conn := by
    rintro rfl
    exact hOwned ⟨hFree.active, hFree.pooled⟩
  exact update_of_ne hNe _ _

/-- `Put` of a connection that nobody holds, with nothing in its queue. -/
theorem putConn (h : InSync prim s) {addr : String} (now : Time)
    (hFree : s.Free conn) (hSocket : s.sockets conn = some ⟨addr, []⟩) :
    InSync prim (s.putConn addr conn now) := by
  unfold UdpState.putConn
  rcases hPut : s.pool.put addr conn now with ⟨pool, kept⟩
  cases kept with
  | false =>
    obtain rfl := UDPConnPool.put_eq_false hPut
    exact h.setSocket hFree (.inl rfl)
  | true =>
    obtain ⟨hHere, hElse⟩ := UDPConnPool.put_eq_true hPut
    -- an entry of the new pool is an old one, or the one just put
    have hMem : ∀ a pc, pc ∈ pool.conns a → pc ∈ s.pool.conns a ∨ (a = addr ∧ pc.conn = conn) := by
      intro a pc hPc
      by_cases hAddr : a = addr
      · subst hAddr
        rw [hHere] at hPc
        rcases mem_append.mp hPc with hOld | hNew
        · exact .inl hOld
        · exact .inr ⟨rfl, by rw [mem_singleton.mp hNew]⟩
      · exact .inl (by rwa [hElse a hAddr] at hPc)
    refine ⟨h.fresh, ?_, ?_, h.held, ?_, h.alone, h.reads⟩
    · intro a pc hPc
      rcases hMem a pc hPc with hOld | ⟨rfl, hConn⟩
      · exact h.pooled a pc hOld
      · exact hConn ▸ hSocket
    · intro a
      by_cases hAddr : a = addr
      · subst hAddr
        rw [hHere, map_append, nodup_append]
        refine ⟨h.once a, by simp, ?_⟩
        intro c hc d hd
        obtain ⟨pc, hPc, rfl⟩ := mem_map.mp hc
        rw [map_singleton, mem_singleton] at hd
        exact hd ▸ hFree.pooled a pc hPc
      · rw [hElse a hAddr]
        exact h.once a
    · intro id x hx a pc hPc
      rcases hMem a pc hPc with hOld | ⟨-, hConn⟩
      · exact h.apart id x hx a pc hOld
      · exact hConn ▸ (hFree.active id x hx).symm

/-! ## Steps -/

section

variable (h : InSync prim s)
include h

theorem finish (id : Nat) (result : Except GoError Bytes) (reused : Bool) :
    InSync prim (s.finish id result reused) :=
  h.shrink (fun _ x hMem => ⟨x, (mem_filter.mp hMem).1, rfl, rfl⟩) (fun _ => .refl _)
    (fun _ _ => rfl) h.fresh rfl

/-- The connection of an exchange that has returned is nobody's. -/
theorem free_finish (hx : (id, x) ∈ s.active)
    (result : Except GoError Bytes) (reused : Bool) : (s.finish id result reused).Free x.conn where
  active i y hMem hEq := by
    obtain ⟨hy, hNe⟩ := mem_filter.mp hMem
    exact of_decide_eq_true hNe (h.alone i y id x hy hx hEq).1
  pooled := h.apart id x hx

/-- An exchange gives up: its connection is discarded. -/
theorem discard (hx : (id, x) ∈ s.active) (result : Except GoError Bytes) (reused : Bool) :
    InSync prim ((s.closeSocket x.conn).finish id result reused) :=
  (h.finish id result reused).setSocket (h.free_finish hx result reused) (.inl rfl)

/-- An exchange moves on, with the connection and the job it has. -/
theorem setExchange {x y : UdpExchange} (hx : (id, x) ∈ s.active)
    (hConn : x.conn = y.conn) (hJob : x.job = y.job) : InSync prim (s.setExchange id y) := by
  refine h.shrink ?_ (fun _ => .refl _) (fun _ _ => rfl) h.fresh rfl
  intro i z hMem
  obtain ⟨e, he, hEq⟩ := mem_map.mp hMem
  split at hEq
  · cases hEq
    exact ⟨x, hx, hConn, hJob⟩
  · exact ⟨z, hEq ▸ he, rfl, rfl⟩

theorem write (hx : (id, x) ∈ s.active)
    (err : Option GoError) : InSync prim (s.write id x err) := by
  cases err with
  | some err => exact h.discard hx _ _
  | none => exact h.setExchange hx rfl rfl

theorem readError (hx : (id, x) ∈ s.active)
    (err : GoError) : InSync prim (s.readError id x err) := by
  unfold UdpState.readError
  split
  · exact h.discard hx _ _
  · exact h.setExchange hx rfl rfl

/-- What `Get` returns: a connection to the address, held by nobody, with
nothing in its queue. -/
theorem getConn {addr : String} {dialErr : Option GoError}
    {reused : Bool} (hGet : s.getConn addr dialErr = (s', .ok (conn, reused))) :
    InSync prim s' ∧ s'.Free conn ∧ s'.sockets conn = some ⟨addr, []⟩ := by
  unfold UdpState.getConn at hGet
  rcases hPool : s.pool.get addr with ⟨pool, _ | c⟩
  · rw [hPool] at hGet
    cases dialErr with
    | some err => cases hGet
    | none =>
      cases hGet
      -- a new socket: nobody can hold it, since it was not open before
      have hFree : s.Free s.nextConn := by
        refine ⟨fun id x hx => ?_, fun a pc hPc => Nat.ne_of_lt (h.lt_nextConn (h.pooled a pc hPc))⟩
        obtain ⟨queue, hSocket, -⟩ := h.held id x hx
        exact Nat.ne_of_lt (h.lt_nextConn hSocket)
      have hRoom : InSync prim { s with nextConn := s.nextConn + 1 } :=
        h.shrink (fun _ x hMem => ⟨x, hMem, rfl, rfl⟩) (fun _ => .refl _) (fun _ _ => rfl)
          (fun c hc => h.fresh c (Nat.le_of_succ_le hc)) rfl
      refine ⟨hRoom.setSocket ⟨hFree.active, hFree.pooled⟩ (.inr (Nat.lt_succ_self _)),
        ⟨hFree.active, hFree.pooled⟩, update_self _ _ _⟩
  · rw [hPool] at hGet
    cases hGet
    obtain ⟨pc, rfl, hHere, hElse⟩ := UDPConnPool.get_eq_some hPool
    have hPc : pc ∈ s.pool.conns addr := by
      rw [hHere]
      exact mem_append_right _ (mem_singleton_self pc)
    have hSub : ∀ a, (pool.conns a).Sublist (s.pool.conns a) := by
      intro a
      by_cases hAddr : a = addr
      · rw [hAddr, hHere]
        exact sublist_append_left _ _
      · rw [hElse a hAddr]
    refine ⟨h.shrink (fun _ x hMem => ⟨x, hMem, rfl, rfl⟩) hSub (fun _ _ => rfl) h.fresh rfl,
      ⟨fun id x hx => (h.apart id x hx addr pc hPc).symm, fun a other hOther hEq => ?_⟩,
      h.pooled addr pc hPc⟩
    -- another entry for the same connection: its address is the same one, and
    -- there the connection was listed once
    have hSame := h.pooled a other ((hSub a).subset hOther)
    rw [hEq, h.pooled addr pc hPc] at hSame
    obtain rfl : addr = a := by cases hSame; rfl
    have hOnce := h.once addr
    rw [hHere, map_append, nodup_append] at hOnce
    exact hOnce.2.2 _ (mem_map_of_mem hOther) _ (mem_singleton_self _) hEq

theorem start (job : UdpJob) (dialErr deadlineErr : Option GoError) :
    InSync prim (s.start job dialErr deadlineErr) := by
  have hNumbered : InSync prim { s with nextId := s.nextId + 1 } :=
    ⟨h.fresh, h.pooled, h.once, h.held, h.apart, h.alone, h.reads⟩
  unfold UdpState.start
  dsimp only
  rcases hGet : UdpState.getConn { s with nextId := s.nextId + 1 } job.upstreamAddr dialErr with
    ⟨t, err | ⟨conn, reused⟩⟩
  · have hSame : t = { s with nextId := s.nextId + 1 } := by
      unfold UdpState.getConn at hGet
      split at hGet <;> cases hGet
      rfl
    exact hSame ▸ hNumbered.finish _ _ _
  · obtain ⟨hSync, hFree, hSocket⟩ := hNumbered.getConn hGet
    cases deadlineErr with
    | some err => exact (hSync.setSocket hFree (.inl rfl)).finish _ _ _
    | none => exact hSync.hold hFree hSocket

/-- A read of the one datagram in the queue. -/
theorem read (hx : (id, x) ∈ s.active) (now : Time) {head : Bytes} {rest : List Bytes}
    (hSocket : s.sockets x.conn = some sk) (hQueue : sk.queue = head :: rest) :
    InSync prim (s.read prim id x now head rest) := by
  obtain ⟨queue, hHeld, hAwaited⟩ := h.held id x hx
  rw [hHeld, some.injEq] at hSocket
  subst hSocket
  subst hQueue
  -- the queue holds one datagram, the answer that `x` waits for, and is empty afterwards
  rcases hAwaited with hEmpty | ⟨datagram, hOne, hAnswer⟩
  · cases hEmpty
  · obtain ⟨rfl, rfl⟩ : head = datagram ∧ rest = [] := by
      cases hOne
      exact ⟨rfl, rfl⟩
    have hOpened : x.conn < s.nextConn := h.lt_nextConn hHeld
    unfold UdpState.read UdpState.receive
    dsimp only
    generalize (s.pool.put x.job.upstreamAddr x.conn now).2 = kept
    -- the datagram is on record before the connection changes hands
    have hRead : InSync prim { s with
        reads := s.reads ++ [⟨x.job, head.take MaxDNSPacketSize, kept⟩] } := by
      refine ⟨h.fresh, h.pooled, h.once, h.held, h.apart, h.alone, fun r hr => ?_⟩
      rcases mem_append.mp hr with hOld | hNew
      · exact h.reads r hOld
      · rw [mem_singleton.mp hNew]
        rw [take_of_length_le hAnswer.fits]
        exact hAnswer.decrypt_ok
    have hFree := hRead.free_finish hx
      (decrypt prim x.job.keys (head.take MaxDNSPacketSize)) x.connReused
    refine InSync.putConn ((hRead.finish id _ _).setSocket hFree (.inr hOpened)) now
      ⟨hFree.active, hFree.pooled⟩ (update_self _ _ _)

theorem deliver {datagram : Bytes}
    (hSocket : s.sockets conn = some sk) (hOk : OneAnswer prim s (.deliver conn datagram)) :
    InSync prim (s.deliver conn sk datagram) := by
  obtain ⟨hEmpty, id, x, hx, rfl, -, hAnswer⟩ := hOk
  have hOpened : x.conn < s.nextConn := h.lt_nextConn hSocket
  unfold UdpState.deliver
  rw [hEmpty sk hSocket]
  refine ⟨fun c hc => ?_, fun addr pc hPc => ?_, h.once, fun i y hy => ?_, h.apart, h.alone,
    h.reads⟩
  · dsimp only at hc ⊢
    rw [update_of_ne (by omega)]
    exact h.fresh c hc
  · dsimp only at hPc ⊢
    rw [update_of_ne (h.apart id x hx addr pc hPc)]
    exact h.pooled addr pc hPc
  · obtain ⟨queue, hHeld, hAwaited⟩ := h.held i y hy
    dsimp only
    by_cases hEq : y.conn = x.conn
    · -- only the exchange that waits for this answer holds the socket
      obtain ⟨-, hJob⟩ := h.alone i y id x hy hx hEq
      rw [hEq, hSocket, some.injEq] at hHeld
      subst hHeld
      rw [hEq, update_self]
      exact ⟨[datagram], rfl, .inr ⟨datagram, rfl, hJob ▸ hAnswer⟩⟩
    · rw [update_of_ne hEq]
      exact ⟨queue, hHeld, hAwaited⟩

/-- Pooled connections are closed, and leave the pool. -/
theorem closePooled {gone : PooledConn → Bool} {pool : UDPConnPool}
    (hPool : ∀ addr, pool.conns addr = (s.pool.conns addr).filter fun pc => !gone pc) :
    InSync prim { s with sockets := s.closePooled gone, pool := pool } := by
  have hSub : ∀ addr, (pool.conns addr).Sublist (s.pool.conns addr) := by
    intro addr
    rw [hPool addr]
    exact filter_sublist
  refine h.shrink (fun _ x hMem => ⟨x, hMem, rfl, rfl⟩) hSub (fun c hOwned => ?_)
    (fun c hc => ?_) rfl
  · -- a socket that was closed has no owner left
    by_contra hClosed
    obtain ⟨sk, hSocket, pc, hPc, hConn, hGone⟩ : ∃ sk, s.sockets c = some sk ∧
        ∃ pc ∈ s.pool.conns sk.addr, pc.conn = c ∧ gone pc = true := by
      dsimp only [UdpState.closePooled] at hClosed
      cases hSocket : s.sockets c with
      | none => exact absurd (by rw [hSocket]; rfl) hClosed
      | some sk =>
        refine ⟨sk, rfl, ?_⟩
        by_contra hKept
        refine hClosed ?_
        rw [hSocket, bind_some, if_neg]
        rintro hAny
        obtain ⟨pc, hPc, hBoth⟩ := any_eq_true.mp hAny
        rw [Bool.and_eq_true, decide_eq_true_eq] at hBoth
        exact hKept ⟨pc, hPc, hBoth⟩
    refine hOwned ⟨fun id x hx hEq => ?_, fun addr other hOther hEq => ?_⟩
    · exact h.apart id x hx sk.addr pc hPc (hConn.trans hEq.symm)
    · dsimp only at hOther
      rw [hPool addr, mem_filter] at hOther
      have hSame := h.pooled addr other hOther.1
      rw [hEq, hSocket, some.injEq] at hSame
      subst hSame
      obtain rfl := inj_on_of_nodup_map (h.once addr) hPc hOther.1 (hConn.trans hEq.symm)
      rw [hGone] at hOther
      cases hOther.2
  · dsimp only [UdpState.closePooled]
    rw [h.fresh c hc]
    rfl

end

theorem init (hInit : (udpMachine prim).init s) : InSync prim s := by
  obtain ⟨hSockets, hPool, hActive, hReads⟩ := hInit
  have hNoConn : ∀ addr pc, pc ∉ s.pool.conns addr := by simp [hPool]
  have hNoExchange : ∀ e, e ∉ s.active := by simp [hActive]
  exact
    { fresh := fun c _ => by rw [hSockets]
      pooled := fun addr pc hPc => absurd hPc (hNoConn addr pc)
      once := fun addr => by simp [hPool]
      held := fun id x hx => absurd hx (hNoExchange _)
      apart := fun id x hx => absurd hx (hNoExchange _)
      alone := fun id x id' y hx => absurd hx (hNoExchange _)
      reads := fun r hr => by simp [hReads] at hr }

end InSync

theorem UdpState.find_eq_some {s : UdpState} {id : Nat} {written : Bool} {x : UdpExchange}
    (h : s.find id written = some x) : (id, x) ∈ s.active := by
  obtain ⟨⟨i, y⟩, hFind, rfl⟩ := map_eq_some_iff.mp h
  have hId := find?_some hFind
  rw [decide_eq_true_eq] at hId
  obtain ⟨rfl, -⟩ := hId
  exact mem_of_find?_eq_some hFind

namespace InSync

variable {prim : Primitives} {s s' : UdpState}

/-- Every step that the network is allowed keeps the pool in sync. -/
theorem step (h : InSync prim s) {l : UdpLabel} (hOk : OneAnswer prim s l)
    (hStep : (udpMachine prim).step s l = some s') : InSync prim s' := by
  cases l with
  | start job dialErr deadlineErr =>
    cases hStep
    exact h.start job dialErr deadlineErr
  | write id err =>
    obtain ⟨x, hFind, rfl⟩ := map_eq_some_iff.mp hStep
    exact h.write (UdpState.find_eq_some hFind) err
  | readError id err =>
    obtain ⟨x, hFind, rfl⟩ := map_eq_some_iff.mp hStep
    exact h.readError (UdpState.find_eq_some hFind) err
  | read id now =>
    obtain ⟨x, hFind, hRest⟩ := bind_eq_some_iff.mp hStep
    obtain ⟨sk, hSocket, hNext⟩ := bind_eq_some_iff.mp hRest
    split at hNext
    · cases hNext
    · rename_i head rest hQueue
      cases hNext
      exact h.read (UdpState.find_eq_some hFind) now hSocket hQueue
  | deliver conn datagram =>
    obtain ⟨sk, hSocket, rfl⟩ := map_eq_some_iff.mp hStep
    exact h.deliver hSocket hOk
  | cleanupStale now =>
    cases hStep
    exact h.closePooled fun _ => rfl
  | close =>
    cases hStep
    refine h.closePooled fun addr => ?_
    simp [UDPConnPool.close]

theorem of_reach (hs : (udpMachine prim).Reach (OneAnswer prim) s) : InSync prim s :=
  hs.invariant (fun _ => init) fun _ _ _ h hOk hStep => h.step hOk hStep

end InSync

/-- **A connection is put back only in sync.** As long as each socket gets no
datagram but the one answer that its exchange waits for, every datagram read on
a connection that went back into the pool authenticated as the answer to that
exchange's query, and the pooled connections are open with nothing in their
queues. -/
theorem pooled_in_sync {prim : Primitives} {s : UdpState}
    (hs : (udpMachine prim).Reach (OneAnswer prim) s) :
    (∀ r ∈ s.reads, r.pooled = true → ∃ packet, decrypt prim r.job.keys r.datagram = .ok packet) ∧
      ∀ addr pc, pc ∈ s.pool.conns addr → s.sockets pc.conn = some ⟨addr, []⟩ :=
  ⟨fun r hr _ => (InSync.of_reach hs).reads r hr, (InSync.of_reach hs).pooled⟩

/-! ## A server that is in the clear -/

/-- Boxes with sixteen bytes of tag and nothing encrypted. -/
def clearPrimitives : Primitives where
  secretboxOpen _ _ box := some (box.drop TagSize)
  xsecretboxOpen _ _ box := .ok (box.drop TagSize)

/-- The `n`-th query to one server. -/
def clearJob (n : UInt8) : UdpJob where
  upstreamAddr := "192.0.2.1:443"
  keys :=
    { construction := .xSalsa20Poly1305
      sharedKey := []
      clientNonce := replicate HalfNonceSize n
      pqStripControl := .ok }

/-- Its answer. -/
def clearAnswer (n : UInt8) : Bytes :=
  ServerMagic ++ (replicate HalfNonceSize n ++ replicate HalfNonceSize 0) ++
    (replicate TagSize 0 ++ (replicate MinDNSPacketSize n ++ 0x80 :: []))

theorem clearAnswer_serverAnswer (n : UInt8) :
    ServerAnswer clearPrimitives (clearJob n).keys (clearAnswer n) where
  fits := by
    simp only [clearAnswer, length_append, length_replicate, length_cons, length_nil]
    decide
  built := by
    have hTake : ((clearJob n).keys.clientNonce).take HalfNonceSize =
        replicate HalfNonceSize n := by
      simp [clearJob]
    refine ⟨replicate HalfNonceSize 0, _, _, replicate MinDNSPacketSize n, 0,
      congrArg (fun half => ServerMagic ++ (half ++ _) ++ _) hTake.symm,
      length_replicate, length_replicate, ?_, rfl, ?_, ?_⟩
    · simp only [length_append, length_replicate, length_cons]
      omega
    · rw [if_neg (by simp [clearJob]), drop_left' length_replicate]
      rfl
    · exact Nat.le_of_eq length_replicate.symm

def idleUdp : UdpState where
  sockets _ := none
  nextConn := 0
  pool := .new
  active := []
  nextId := 0
  reads := []
  ended := []

theorem idleUdp_init : (udpMachine clearPrimitives).init idleUdp := ⟨rfl, rfl, rfl, rfl⟩

/-- The first query is written. -/
def firstWritten : UdpState :=
  { idleUdp with
    sockets := update (fun _ => none) 0 (some ⟨"192.0.2.1:443", []⟩)
    nextConn := 1
    nextId := 1
    active := [(0, { job := clearJob 1, conn := 0, connReused := false, tries := 2
                     written := true })] }

/-- Its answer arrives. -/
def firstAnswered : UdpState :=
  firstWritten.deliver 0 ⟨"192.0.2.1:443", []⟩ (clearAnswer 1)

/-- One query, answered: the connection is pooled, and in sync. -/
theorem pooled_in_sync_first :
    ∃ s, (udpMachine clearPrimitives).Reach (OneAnswer clearPrimitives) s ∧
      s.pool.conns "192.0.2.1:443" = [⟨0, 5⟩] ∧ s.sockets 0 = some ⟨"192.0.2.1:443", []⟩ ∧
      ∃ r ∈ s.reads, r.pooled = true ∧ r.datagram = clearAnswer 1 ∧
        ∃ packet, decrypt clearPrimitives r.job.keys r.datagram = .ok packet := by
  have hExec : (udpMachine clearPrimitives).exec idleUdp
      [.start (clearJob 1) none none, .write 0 none] = some firstWritten := rfl
  have hWritten : (udpMachine clearPrimitives).Reach (OneAnswer clearPrimitives) firstWritten :=
    Machine.Reach.exec (by simp [OneAnswer]) (.init idleUdp_init) hExec
  have hAnswered :
      (udpMachine clearPrimitives).Reach (OneAnswer clearPrimitives) firstAnswered := by
    refine .step (l := .deliver 0 (clearAnswer 1)) hWritten ⟨?_, ?_⟩ rfl
    · intro sk hSocket
      cases hSocket
      rfl
    · exact ⟨0, _, mem_singleton_self _, rfl, .inl rfl, clearAnswer_serverAnswer 1⟩
  have hRead : (udpMachine clearPrimitives).Reach (OneAnswer clearPrimitives)
      (firstAnswered.read clearPrimitives 0 _ 5 (clearAnswer 1) []) :=
    .step (l := .read 0 5) hAnswered trivial rfl
  obtain ⟨hReads, hPooled⟩ := pooled_in_sync hRead
  refine ⟨_, hRead, rfl, hPooled "192.0.2.1:443" ⟨0, 5⟩ (mem_singleton_self _), _,
    mem_singleton_self _, rfl, ?_, hReads _ (mem_singleton_self _) rfl⟩
  decide +kernel

/-- Three queries over one connection; the network duplicates the first answer
and is faultless otherwise. -/
def duplicateRun : List UdpLabel :=
  [.start (clearJob 1) none none, .write 0 none, .deliver 0 (clearAnswer 1),
    .deliver 0 (clearAnswer 1), .read 0 5,
    .start (clearJob 2) none none, .write 1 none, .deliver 0 (clearAnswer 2), .read 1 6,
    .start (clearJob 3) none none, .write 2 none, .deliver 0 (clearAnswer 3), .read 2 7]

theorem duplicateRun_isSome :
    ((udpMachine clearPrimitives).exec idleUdp duplicateRun).isSome = true := rfl

/-- After one duplicate, each later query reads the answer to the one before,
fails to authenticate it, and puts the connection back. -/
theorem duplicate_shifts_answers :
    ∃ s, (udpMachine clearPrimitives).Reach Machine.anyStep s ∧
      s.reads.map (fun r => r.datagram) = [clearAnswer 1, clearAnswer 1, clearAnswer 2] ∧
      s.reads.map (fun r => (decrypt clearPrimitives r.job.keys r.datagram).isOk) =
        [true, false, false] ∧
      s.reads.map (fun r => r.pooled) = [true, true, true] ∧
      s.pool.conns "192.0.2.1:443" = [⟨0, 7⟩] ∧
      s.sockets 0 = some ⟨"192.0.2.1:443", [clearAnswer 3]⟩ := by
  refine ⟨_, Machine.Reach.exec_get (.init idleUdp_init) duplicateRun_isSome, ?_, ?_, ?_, ?_, ?_⟩
  all_goals decide +kernel

end DnscryptProxy
