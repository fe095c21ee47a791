import WebhookDelivery.Expiring
import Mathlib.Data.Rat.Floor

/-!
# The token bucket script

Token levels are exact rationals: the script's floating-point arithmetic is
idealised, its comparisons and roundings are kept.
-/

namespace WebhookDelivery

structure Bucket where
  tokens : ℚ
  ts : Int
  deriving DecidableEq

structure RateResult where
  allowed : Bool
  retryAfterMs : Int
  deriving DecidableEq

namespace RateLimit

/-- `TOKEN_BUCKET_SCRIPT` up to its `HSET`: reply and bucket written. -/
def takeScript (rate burst now cost : Int) (state : Option Bucket) :
    RateResult × Bucket :=
  let bucket := state.getD ⟨burst, now⟩
  let elapsedSec : ℚ := (max 0 (now - bucket.ts) : Int) / 1000
  let tokens := min (burst : ℚ) (bucket.tokens + elapsedSec * rate)
  if (cost : ℚ) ≤ tokens then
    (⟨true, 0⟩, ⟨tokens - cost, now⟩)
  else
    (⟨false, Int.ceil ((cost - tokens) / rate * 1000)⟩, ⟨tokens, now⟩)

/-- The lifetime passed to `PEXPIRE`. -/
def ttlMs (rate burst : Int) : Int :=
  Int.ceil ((burst : ℚ) / rate * 1000) + 1000

end RateLimit

end WebhookDelivery
