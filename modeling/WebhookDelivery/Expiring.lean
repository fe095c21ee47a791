import WebhookDelivery.Types
import Mathlib.Logic.Function.Basic
import Mathlib.Order.Basic

/-!
# Keys with a lifetime
-/

namespace WebhookDelivery

/-- A stored value and the server time at which it disappears, if any. -/
structure Expiring (Value : Type) where
  value : Value
  expiresAt : Option Int

namespace Expiring

variable {Value : Type}

/-- The value a command reads at server time `clock`. -/
def read (clock : Int) (entry : Expiring Value) : Option Value :=
  match entry.expiresAt with
  | none => some entry.value
  | some expiresAt => if clock < expiresAt then some entry.value else none

/-- What is still there later was there before. -/
theorem read_of_later {clock later : Int} (passes : clock ≤ later)
    {entry : Expiring Value} {value : Value}
    (there : entry.read later = some value) :
    entry.read clock = some value := by
  unfold read at there ⊢
  split at there
  · exact there
  next expiresAt _ =>
    have live : later < expiresAt := by
      by_contra gone
      rw [if_neg gone] at there
      cases there
    rw [if_pos live] at there
    rw [if_pos (by omega)]
    exact there

/-- The deadline an overwritten field keeps: that of the key, if the key is
still there. -/
def liveUntil (clock : Int) (entry : Expiring Value) : Option Int :=
  entry.expiresAt.filter fun expiresAt => decide (clock < expiresAt)

/-- A key just written and given a lifetime; a lifetime that is not positive
deletes it. -/
def pexpire (clock ttlMs : Int) (value : Value) : Option (Expiring Value) :=
  if 0 < ttlMs then some ⟨value, some (clock + ttlMs)⟩ else none

end Expiring

end WebhookDelivery
