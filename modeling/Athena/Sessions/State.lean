import Athena.Lib.Scripts
import Athena.Lib.Table

/-!
# Session revocation

Every process keeps the revoked tokens it knows in memory and synchronizes them with
Redis.  A token is revoked in memory first and written to Redis after; what Redis is not
known to hold stays pending.  A synchronization writes the pending revocations, scans the
keys, and replaces the tokens in memory by what it found and what is still pending.

In each process one goroutine synchronizes, and tokens are revoked and notices received at
any time.  A Redis operation may fail; a write that fails may have been done.  A key is
there until its time to live has passed.  A scan reports every key that was there from its
beginning to its end, and only keys that were there at some time of it.  There is one clock.
-/

namespace Athena.Sessions

open Athena.Lib Function

/-! ## The memory of a process -/

/-- A revocation with the time it is needed for, as it is kept pending and published. -/
structure Notice where
  id : String
  expiresAt : ℕ
  deriving DecidableEq

/-- The memory of a process.  `found` is the map that the synchronization in progress has
built from its scan. -/
structure Process where
  revokedTokens : String → Bool := fun _ => false
  pendingRevocations : Table Notice.id := .empty
  initialized : Bool := false
  found : Option (List String) := none

def isTokenRevoked (p : Process) (id : String) : Bool := !p.initialized || p.revokedTokens id

namespace Process

def enter (p : Process) (n : Notice) : Process :=
  { p with
    revokedTokens := update p.revokedTokens n.id true
    pendingRevocations := p.pendingRevocations.upsert n }

/-- Replace the revoked tokens by those found in Redis and those that are still pending.
A revocation that has expired or was found is pending no longer. -/
def install (p : Process) (now : ℕ) (found : List String) : Process where
  revokedTokens := fun id => found.contains id ||
    p.pendingRevocations.rows.any fun n => n.id = id && now < n.expiresAt
  pendingRevocations := p.pendingRevocations.filter fun n =>
    now < n.expiresAt && !found.contains n.id
  initialized := true
  found := none

end Process

/-! ## The functions -/

inductive Call
  | now
  | enter (process : ℕ) (notice : Notice)
  | set (id : String) (ttl : ℕ)
  | publish (notice : Notice)
  | readPending (process : ℕ)
  | scanBegin (process : ℕ)
  | scanEnd (process : ℕ)
  | install (process : ℕ)
  deriving DecidableEq

inductive RedisError
  | unavailable
  deriving DecidableEq

@[reducible] def Call.Reply : Call → Type
  | .now => ℕ
  | .enter .. | .scanBegin _ | .install _ => Unit
  | .set .. | .publish _ => Except RedisError Unit
  | .readPending _ => List Notice
  | .scanEnd _ => Except RedisError Unit

inductive Failure
  | notConfigured
  | invalid
  | redis (e : RedisError)
  deriving DecidableEq

abbrev Handler := Program Call Call.Reply Failure

abbrev Entry : Type := Program.Entry Call.Reply

def ask (c : Call) : Handler c.Reply := Program.ask c

def accept (reply : Except RedisError Unit) : Handler Unit := .ofExcept (reply.mapError .redis)

/-- Revoke a token for some time: in memory, then in Redis, then for the other processes. -/
def revokeToken (configured : Bool) (process : ℕ) (id : String) (expiringAt : ℤ) :
    Handler Unit := do
  if ¬configured then .fail .notConfigured
  else if id = "" ∨ expiringAt ≤ 0 then .fail .invalid
  else
    let now ← ask .now
    let notice : Notice := ⟨id, now + expiringAt.toNat⟩
    ask (.enter process notice)
    accept (← ask (.set id expiringAt.toNat))
    accept (← ask (.publish notice))

/-- A notice from another process.  One that is malformed or has expired is ignored. -/
def receiveNotice (process : ℕ) (notice : Notice) : Handler Unit := do
  if notice.id = "" then pure ()
  else
    let now ← ask .now
    if now < notice.expiresAt then ask (.enter process notice) else pure ()

def persistAll (now : ℕ) : List Notice → Handler Unit
  | [] => pure ()
  | n :: rest =>
    if now < n.expiresAt then do
      accept (← ask (.set n.id (n.expiresAt - now)))
      persistAll now rest
    else persistAll now rest

def persistPendingRevocations (process : ℕ) : Handler Unit := do
  let pending ← ask (.readPending process)
  let now ← ask .now
  persistAll now pending

def loadRevokedTokens (process : ℕ) : Handler Unit := do
  persistPendingRevocations process
  ask (.scanBegin process)
  accept (← ask (.scanEnd process))
  ask (.install process)

/-- The synchronizing goroutine: one load after another, whether they fail or not. -/
def synchronize (process : ℕ) : ℕ → Handler Unit
  | 0 => pure ()
  | n + 1 => do
      let _ ← (loadRevokedTokens process).attempt
      synchronize process n

/-! ## The environment -/

/-- A scan in progress: the keys that were there since it began, and the keys that were
there at some time of it. -/
structure Scan where
  since : List String
  ever : List String

structure Key where
  id : String
  expires : ℕ

/-- The clock, Redis with the scans in progress, and the processes.  Keys that have expired
are kept, and are not there. -/
structure Shared where
  now : ℕ := 0
  redis : Table Key.id := .empty
  scans : ℕ → Option Scan := fun _ => none
  processes : ℕ → Process := fun _ => {}

namespace Shared

def keysAt (s : Shared) (t : ℕ) : List String :=
  (s.redis.rows.filter fun k => t < k.expires).map Key.id

def tick (s : Shared) (t : ℕ) : Shared :=
  { s with
    now := t
    scans := fun p => (s.scans p).map fun scan =>
      { scan with since := scan.since.filter fun id => id ∈ s.keysAt t } }

def set (s : Shared) (id : String) (ttl : ℕ) : Shared :=
  { s with
    redis := s.redis.upsert ⟨id, s.now + ttl⟩
    scans := fun p => (s.scans p).map fun scan => { scan with ever := id :: scan.ever } }

def modify (s : Shared) (p : ℕ) (f : Process → Process) : Shared :=
  { s with processes := update s.processes p (f (s.processes p)) }

def beginLoad (s : Shared) (p : ℕ) : Shared :=
  { s with
    scans := update s.scans p none
    processes := update s.processes p { s.processes p with found := none } }

def beginScan (s : Shared) (p : ℕ) : Shared :=
  { s with
    scans := update s.scans p (some ⟨s.keysAt s.now, s.keysAt s.now⟩)
    processes := update s.processes p { s.processes p with found := none } }

def endScan (s : Shared) (p : ℕ) (found : Option (List String)) : Shared :=
  { s with
    scans := update s.scans p none
    processes := update s.processes p { s.processes p with found := found } }

end Shared

/-- How the calls of the functions are served.  A write that fails may have been done.  The
pending revocations are read in any order. -/
def serves (s : Shared) : (c : Call) → c.Reply → Shared → Prop
  | .now, r, s' => r = s.now ∧ s' = s
  | .enter p n, _, s' => s' = s.modify p (·.enter n)
  | .set id ttl, r, s' => (r = .ok () ∧ s' = s.set id ttl) ∨
      (r = .error .unavailable ∧ (s' = s ∨ s' = s.set id ttl))
  | .publish _, _, s' => s' = s
  | .readPending p, r, s' =>
    r.Perm (s.processes p).pendingRevocations.rows ∧ s' = s.beginLoad p
  | .scanBegin p, _, s' => s' = s.beginScan p
  | .scanEnd p, r, s' =>
    (r = .error .unavailable ∧ s' = s.endScan p none) ∨
      (r = .ok () ∧ ∃ (scan : Scan) (found : List String), s.scans p = some scan ∧
        (∀ id ∈ scan.since, id ∈ found) ∧ (∀ id ∈ found, id ∈ scan.ever) ∧
        s' = s.endScan p (some (found.filter (· ≠ ""))))
  | .install p, _, s' => ∃ found, (s.processes p).found = some found ∧
      s' = s.modify p fun process => process.install s.now found

inductive Request
  | revoke (configured : Bool) (process : ℕ) (id : String) (expiringAt : ℤ)
  | receive (process : ℕ) (notice : Notice)

def Request.handler : Request → Handler Unit
  | .revoke configured process id expiringAt => revokeToken configured process id expiringAt
  | .receive process notice => receiveNotice process notice

/-- The processes over one Redis.  The turns with even numbers synchronize, each a process
of its own; the others revoke a token or receive a notice, each as it is requested. -/
def pool (requests : ℕ → Request) : Pool Shared Call Call.Reply Failure where
  init := {}
  starts i p :=
    (∃ process n, i = 2 * process ∧ p = synchronize process n) ∨
      ∃ j, i = 2 * j + 1 ∧ p = (requests j).handler
  serves := serves
  drifts s s' := ∃ t, s.now ≤ t ∧ s' = s.tick t

abbrev World : Type := Pool.World Shared Call.Reply Failure

abbrev Event : Type := Pool.Event Shared Call.Reply

end Athena.Sessions
