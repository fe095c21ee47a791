import WebhookDelivery.Expiring

/-!
# The distributed lock

The one command and the two scripts of `lock.ts` on the keys of a server.  The
scripts compare the stored token before they act.
-/

namespace WebhookDelivery

/-- A random UUID that proves the ownership of a lock. -/
abbrev Token := Nat

structure Lock where
  key : String
  token : Token
  deriving DecidableEq

/-- The keys of the server that hold locks, and its clock. -/
structure LockServer where
  keys : String → Option (Expiring Token)
  clock : Int

namespace LockServer

def empty : LockServer where
  keys := fun _ => none
  clock := 0

def get (server : LockServer) (key : String) : Option Token :=
  (server.keys key).bind (Expiring.read server.clock)

/-- `SET key token PX ttl NX`. -/
def acquire (server : LockServer) (lock : Lock) (ttlMs : Int) :
    Bool × LockServer :=
  match server.get lock.key with
  | none =>
      (true, { server with
        keys := Function.update server.keys lock.key
          (some ⟨lock.token, some (server.clock + ttlMs)⟩) })
  | some _ => (false, server)

/-- `RELEASE_SCRIPT`. -/
def release (server : LockServer) (lock : Lock) : Bool × LockServer :=
  if server.get lock.key = some lock.token then
    (true,
      { server with keys := Function.update server.keys lock.key none })
  else
    (false, server)

/-- `RENEW_SCRIPT`. -/
def renew (server : LockServer) (lock : Lock) (ttlMs : Int) :
    Bool × LockServer :=
  if server.get lock.key = some lock.token then
    (true, { server with
      keys := Function.update server.keys lock.key
        (Expiring.pexpire server.clock ttlMs lock.token) })
  else
    (false, server)

def elapse (server : LockServer) (ms : Nat) : LockServer :=
  { server with clock := server.clock + ms }

variable {server : LockServer} {lock : Lock} {ttlMs : Int}

/-- A lock that is held cannot be acquired. -/
theorem acquire_of_held {token : Token}
    (held : server.get lock.key = some token) :
    server.acquire lock ttlMs = (false, server) := by
  simp [acquire, held]

/-- Without the stored token, the scripts do nothing. -/
theorem renew_of_other (other : server.get lock.key ≠ some lock.token) :
    server.renew lock ttlMs = (false, server) :=
  if_neg other

theorem release_of_other (other : server.get lock.key ≠ some lock.token) :
    server.release lock = (false, server) :=
  if_neg other

/-- A renewed lock is still held. -/
theorem get_renew (positive : 0 < ttlMs)
    (held : server.get lock.key = some lock.token) :
    (server.renew lock ttlMs).2.get lock.key = some lock.token := by
  have lives : server.clock < server.clock + ttlMs := by omega
  simp only [renew, if_pos held]
  simp [get, Expiring.pexpire, positive, Expiring.read, lives]

theorem get_release (held : server.get lock.key = some lock.token) :
    (server.release lock).2.get lock.key = none := by
  simp only [release, if_pos held]
  simp [get]

/-- A lock is lost over time only when its lifetime ends. -/
theorem get_elapse {key : String} {token : Token} {ms : Nat}
    (held : server.get key = some token)
    (lost : (server.elapse ms).get key ≠ some token) :
    (server.elapse ms).get key = none ∧
      ∃ expiresAt, server.keys key = some ⟨token, some expiresAt⟩ ∧
        expiresAt ≤ (server.elapse ms).clock := by
  obtain ⟨⟨value, expiresAt?⟩, stored, read⟩ := Option.bind_eq_some_iff.mp held
  have later : (server.elapse ms).get key =
      Expiring.read (server.clock + ms) ⟨value, expiresAt?⟩ := by
    simp [get, elapse, stored]
  rw [later] at lost ⊢
  cases expiresAt? with
  | none =>
      cases read
      exact absurd rfl lost
  | some expiresAt =>
      simp only [Expiring.read] at read lost ⊢
      split at read
      next lives =>
        cases read
        by_cases still : server.clock + ms < expiresAt
        · simp [still] at lost
        · simp only [still, if_false, true_and]
          exact ⟨expiresAt, stored, Int.not_lt.mp still⟩
      · cases read

end LockServer

end WebhookDelivery
