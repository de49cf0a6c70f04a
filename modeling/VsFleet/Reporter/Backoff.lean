import VsFleet.Misc.Duration

/-!
# The backoff of the reporter

How long the reporter waits before it connects again (`fleet-reporter/src/backoff.rs`).
-/

namespace VsFleet

/-- `Backoff` (`backoff.rs:24-33`). -/
structure Backoff where
  initial : Duration
  max : Duration
  factor : Nat
  current : Duration
  consecutiveFailures : Nat

/-- What comes of an attempt to connect. -/
inductive Attempt where
  | failed
  | succeeded
  deriving DecidableEq, Repr

namespace Backoff

/-- `new` (`backoff.rs:39-49`). -/
def new (initial max : Duration) (factor : Nat) : Backoff where
  initial
  max := Max.max max initial
  factor := Max.max factor 1
  current := initial
  consecutiveFailures := 0

/-- `default_policy` (`backoff.rs:52-54`). -/
def defaultPolicy : Backoff := new (.fromMillis 200) (.fromSecs 30) 2

/-- `current_delay` (`backoff.rs:60-62`). -/
def currentDelay (b : Backoff) : Duration := b.current

/-- The milliseconds of the next delay, in `u128`, where the product saturates. -/
def nextMs (b : Backoff) : Nat :=
  min (min (b.current.asMillis * b.factor) 0xffffffffffffffffffffffffffffffff) b.max.asMillis

/-- `record_failure` (`backoff.rs:74-88`); the cast to `u64` wraps. -/
def recordFailure (b : Backoff) : Duration × Backoff :=
  let current :=
    if b.consecutiveFailures > 0 then .fromMillis (UInt64.ofNat b.nextMs) else min b.initial b.max
  (current, { b with
    current
    consecutiveFailures := min (b.consecutiveFailures + 1) 0xffffffff })

/-- `record_success` (`backoff.rs:91-94`). -/
def recordSuccess (b : Backoff) : Backoff :=
  { b with current := b.initial, consecutiveFailures := 0 }

/-- One connection attempt. -/
def step (b : Backoff) : Attempt → Backoff
  | .failed => b.recordFailure.2
  | .succeeded => b.recordSuccess

end Backoff

end VsFleet
