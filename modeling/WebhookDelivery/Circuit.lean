import WebhookDelivery.Expiring

/-!
# The circuit breaker scripts

A breaker is one Redis hash with three optional fields.  Each script is a
function from the hash it reads to its reply and the hash it leaves.
-/

namespace WebhookDelivery

inductive CircuitState
  | closed
  | opened
  | halfOpen
  deriving DecidableEq, Repr

structure Breaker where
  state : Option CircuitState := none
  failures : Option Int := none
  openedAt : Option Int := none
  deriving DecidableEq

namespace Circuit

/-- Keep breaker state around for one hour. -/
def stateTtlMs : Int := 60 * 60 * 1000

/-- `CHECK_SCRIPT`; the hash is written only on the move to half-open. -/
def checkScript (now cooldown : Int) (hash : Option Breaker) :
    CircuitState × Option Breaker :=
  let breaker := hash.getD {}
  match breaker.state with
  | none => (.closed, none)
  | some .closed => (.closed, none)
  | some .halfOpen => (.halfOpen, none)
  | some .opened =>
      if now - breaker.openedAt.getD 0 ≥ cooldown then
        (.halfOpen, some { breaker with state := some .halfOpen })
      else
        (.opened, none)

def successScript (hash : Option Breaker) : Breaker :=
  { hash.getD {} with state := some .closed, failures := some 0 }

def failureScript (threshold now : Int) (hash : Option Breaker) :
    CircuitState × Breaker :=
  let breaker := hash.getD {}
  if breaker.state = some .halfOpen then
    (.opened, { state := some .opened, openedAt := some now,
                failures := some threshold })
  else
    let failures := breaker.failures.getD 0 + 1
    if failures ≥ threshold then
      (.opened, { state := some .opened, openedAt := some now,
                  failures := some failures })
    else
      (.closed, { breaker with failures := some failures })

end Circuit

end WebhookDelivery
