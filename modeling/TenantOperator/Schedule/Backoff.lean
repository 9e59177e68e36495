import TenantOperator.Decimal.Binary64
import TenantOperator.Error

/-! Retries with growing delays. An operation is attempted until it succeeds, fails for good, has
used up its attempts, or the run is cancelled by the time it would wait for the next one. A delay
that no timer can keep breaks the run off. -/
namespace TenantOperator

/-- Times are in milliseconds. An infinite multiplier is one past every double here, on either side
of zero; what is no number counts as one above, since both lead from any delay to the maximum. -/
structure RetryConfig where
  /-- Attempts before the last error is given up on; 0 sets no limit. -/
  maxAttempts : Nat := 0
  initialDelay : Rat := 100
  maxDelay : Rat := 30000
  multiplier : Rat := 2
  deriving DecidableEq

abbrev Growth := Rat → Rat → Rat

/-- The factor by which the wait after each attempt is stretched, at random. -/
abbrev Jitter := Nat → Rat

/-- Waits are taken as they are. -/
def Jitter.steady : Jitter := fun _ => 1

/-- Why a number of seconds is not a time. -/
inductive TimeFault where
  | negative
  | tooLong
  deriving DecidableEq

namespace TimeFault

def message : TimeFault → String
  | negative => "cannot convert float seconds to Duration: value is negative"
  | tooLong => "cannot convert float seconds to Duration: value is either too big or NaN"

/-- A timer counts whole seconds in 64 bits. -/
def of? (seconds : Rat) : Option TimeFault :=
  if seconds < 0 then some .negative
  else if seconds < (Nat.pow 2 64 : Nat) then none
  else some .tooLong

end TimeFault

namespace Growth

def exact : Growth := fun delay factor => delay * factor

def nanosInMilli : Nat := Nat.pow 10 6
def nanosInSecond : Nat := Nat.pow 10 9

/-- A number of nanoseconds in seconds: the whole seconds and the rest are rounded each, then their
sum. -/
def seconds (nanos : Nat) : Binary64 :=
  (Binary64.ofNat (nanos / nanosInSecond)).add
    ((Binary64.ofNat (nanos % nanosInSecond)).div (Binary64.ofNat nanosInSecond))

/-- Clocks keep whole nanoseconds and multiply them as doubles of seconds. -/
def product (delay factor : Rat) : Rat :=
  ((seconds (delay * nanosInMilli).floor.toNat).mul (Binary64.ofRat factor)).toRat

def ofSeconds (seconds : Rat) : Rat :=
  mkRat (Binary64.roundHalfEven (seconds.num.toNat * nanosInSecond) seconds.den) nanosInMilli

def clocked : Growth := fun delay factor => ofSeconds (product delay factor)

end Growth

/-- How far a run has come. -/
inductive Ending (α : Type) where
  /-- Another attempt is due. -/
  | pending
  | result (r : Except Error α)
  /-- No timer can keep a delay, and the run gives nothing. -/
  | fault (f : TimeFault)

def Ending.ofFault {α : Type} : Option TimeFault → Ending α
  | none => .pending
  | some f => .fault f

namespace RetryConfig

def nextDelay (c : RetryConfig) (grow : Growth) (d : Rat) : Rat :=
  if grow d c.multiplier ≤ grow c.maxDelay 1 then grow d c.multiplier else grow c.maxDelay 1

/-- Wait between attempt `n + 1` and the one after it. -/
def delay (c : RetryConfig) (grow : Growth) : Nat → Rat
  | 0 => c.initialDelay
  | n + 1 => c.nextDelay grow (c.delay grow n)

/-- The same wait as a timer keeps it, in whole milliseconds. -/
def wait (c : RetryConfig) (n : Nat) : Nat := (c.delay .clocked n).ceil.toNat

/-- Whether the stretched wait after attempt `n + 1` is a time. -/
def waitFault (c : RetryConfig) (jitter : Jitter) (n : Nat) : Option TimeFault :=
  TimeFault.of? (Growth.product (c.delay .clocked n) (jitter n))

/-- Whether the delay that follows it is one. -/
def growthFault (c : RetryConfig) (n : Nat) : Option TimeFault :=
  let next := Growth.product (c.delay .clocked n) c.multiplier
  let most := Growth.product c.maxDelay 1
  TimeFault.of? (if next ≤ most then next else most)

def isLast (c : RetryConfig) (n : Nat) {α : Type} : Except Error α → Bool
  | .ok _ => true
  | .error e => !e.isRetryable || (c.maxAttempts > 0 && n ≥ c.maxAttempts)

/-- What attempt `n + 1` leaves of a run when it ended in `r`; without an ending a wait follows. -/
def settle (c : RetryConfig) (jitter : Jitter) (n : Nat) {α : Type} (r : Except Error α) :
    Ending α :=
  if c.isLast (n + 1) r then .result r else .ofFault (c.waitFault jitter n)

/-- What the wait after attempt `n + 1` leaves of a run. -/
def resume (c : RetryConfig) (n : Nat) (cancelled : Bool) {α : Type} : Ending α :=
  if cancelled then .result (.error .cancelled) else .ofFault (c.growthFault n)

/-- What attempt `n + 1` and the wait after it leave of a run. -/
def verdict (c : RetryConfig) (jitter : Jitter) (n : Nat) (cancelled : Bool) {α : Type}
    (r : Except Error α) : Ending α :=
  match c.settle jitter n r with
  | .pending => c.resume n cancelled
  | ending => ending

end RetryConfig

/-- A run that has ended, or was left while it still went on. -/
structure Attempts (σ α : Type) where
  count : Nat
  state : σ
  ending : Ending α

/-- Attempts of an operation over a state, at most `fuel` more after the first `n`. -/
def retryFrom {σ α : Type} (c : RetryConfig) (jitter : Jitter) (cancelled : σ → Bool)
    (operation : σ → Except Error α × σ) : (fuel n : Nat) → σ → Attempts σ α
  | 0, n, st => ⟨n, st, .pending⟩
  | fuel + 1, n, st =>
    let (r, st) := operation st
    match c.verdict jitter n (cancelled st) r with
    | .pending => retryFrom c jitter cancelled operation fuel (n + 1) st
    | ending => ⟨n + 1, st, ending⟩

def retry {σ α : Type} (c : RetryConfig) (jitter : Jitter) (cancelled : σ → Bool)
    (operation : σ → Except Error α × σ) (fuel : Nat) (st : σ) : Attempts σ α :=
  retryFrom c jitter cancelled operation fuel 0 st

/-- The power of ten nearest to a positive number on a logarithmic scale. -/
def nearestPowerOfTen (n : Nat) : Nat :=
  let k := (Nat.toDigits 10 n).length - 1
  if n * n ≥ Nat.pow 10 (2 * k + 1) then k + 1 else k

/-- Order of magnitude of each wait of a run of `count` attempts; a wait of no time has none. -/
def magnitudes (c : RetryConfig) (count : Nat) : List (Option Nat) :=
  (List.range (count - 1)).map fun n =>
    let ms := c.wait n
    if ms = 0 then none else some (nearestPowerOfTen ms)

end TenantOperator
