import Mathlib.Algebra.Order.Ring.Rat
import Mathlib.Data.List.Chain
import Mathlib.Data.Nat.Cast.Order.Ring
import TenantOperator.Command.Options
import TenantOperator.Proofs.Schedule.Times

/-! How long a run waits between its attempts, in exact arithmetic. Each delay is the last one
multiplied and cut off at the maximum, so from the second wait on a closed form holds: the initial
delay times a power of the multiplier, cut off once. The first wait is the initial delay as it was
configured, which nothing cuts off. -/
namespace TenantOperator
namespace RetryConfig

/-- The waits between the attempts of a run. -/
def waits (c : RetryConfig) (grow : Growth) (attempts : Nat) : List Rat :=
  (List.range (attempts - 1)).map (c.delay grow)

/-- No wait is longer than `most`, and none is shorter than the one before it. -/
structure Growing (most : Rat) (ws : List Rat) : Prop where
  le_most : ∀ w ∈ ws, w ≤ most
  isChain : ws.IsChain (· ≤ ·)

/-- Delays that a clock can keep, and a multiplier that does not shrink them. -/
structure Grows (c : RetryConfig) : Prop where
  initial_nonneg : 0 ≤ c.initialDelay
  max_nonneg : 0 ≤ c.maxDelay
  one_le : 1 ≤ c.multiplier

theorem magnitudes_eq (c : RetryConfig) (attempts : Nat) :
    magnitudes c attempts = (c.waits .clocked attempts).map fun w =>
      if w.ceil.toNat = 0 then none else some (nearestPowerOfTen w.ceil.toNat) := by
  rw [magnitudes, waits, List.map_map]
  rfl

theorem waits_cons (c : RetryConfig) (grow : Growth) (n : Nat) :
    c.waits grow (n + 2) = c.initialDelay :: (List.range n).map fun i => c.delay grow (i + 1) := by
  rw [waits, Nat.add_one_sub_one, List.range_succ_eq_map, List.map_cons, List.map_map]
  rfl

theorem growing_map_range {most : Rat} {f : Nat → Rat} (hmost : ∀ n, f n ≤ most)
    (hstep : ∀ n, f n ≤ f (n + 1)) (n : Nat) : Growing most ((List.range n).map f) where
  le_most w hw := by
    obtain ⟨i, -, rfl⟩ := List.mem_map.1 hw
    exact hmost i
  isChain := List.isChain_iff_getElem.2 fun i hi => by
    simpa using hstep i

section exact
variable {c : RetryConfig} (h : c.Grows)
include h

/-- Cutting off at every step is cutting off once. -/
theorem delay_exact_succ (n : Nat) :
    c.delay .exact (n + 1) = min (c.initialDelay * c.multiplier ^ (n + 1)) c.maxDelay := by
  have hstep (d : Rat) : c.nextDelay .exact d = min (d * c.multiplier) c.maxDelay := by
    rw [nextDelay, Growth.exact, Growth.exact, mul_one, min_def]
  have hm : 0 ≤ c.multiplier := zero_le_one.trans h.one_le
  have hmax : c.maxDelay ≤ c.maxDelay * c.multiplier := le_mul_of_one_le_right h.max_nonneg h.one_le
  induction n with
  | zero => rw [delay, hstep, delay, pow_one]
  | succ n ih =>
    rw [delay, hstep, ih, min_mul_of_nonneg _ _ hm, mul_assoc, ← pow_succ, min_assoc,
      min_eq_right hmax]

theorem delay_succ_le_max (n : Nat) : c.delay .exact (n + 1) ≤ c.maxDelay := by
  rw [delay_exact_succ h]
  exact min_le_right ..

theorem delay_succ_le_delay (n : Nat) : c.delay .exact (n + 1) ≤ c.delay .exact (n + 2) := by
  have hpow : c.multiplier ^ (n + 1) ≤ c.multiplier ^ (n + 2) :=
    pow_le_pow_right₀ h.one_le (n + 1).le_succ
  rw [delay_exact_succ h, delay_exact_succ h]
  exact min_le_min_right _ (mul_le_mul_of_nonneg_left hpow h.initial_nonneg)

/-- The first step is one up as well, unless the initial delay is past the maximum. -/
theorem delay_zero_le_delay (hle : c.initialDelay ≤ c.maxDelay) :
    c.delay .exact 0 ≤ c.delay .exact 1 := by
  rw [delay_exact_succ h, delay, pow_one]
  exact le_min (le_mul_of_one_le_right h.initial_nonneg h.one_le) hle

theorem growing_tail_waits (attempts : Nat) :
    Growing c.maxDelay (c.waits .exact attempts).tail := by
  match attempts with
  | 0 | 1 => exact ⟨nofun, .nil⟩
  | n + 2 =>
    rw [waits_cons]
    exact growing_map_range (delay_succ_le_max h) (delay_succ_le_delay h) n

theorem growing_waits (hle : c.initialDelay ≤ c.maxDelay) (attempts : Nat) :
    Growing c.maxDelay (c.waits .exact attempts) := by
  refine growing_map_range (fun n => ?_) (fun n => ?_) _
  · cases n with
    | zero => exact hle
    | succ n => exact delay_succ_le_max h n
  · cases n with
    | zero => exact delay_zero_le_delay h hle
    | succ n => exact delay_succ_le_delay h n

/-- From the second wait on, the waits of a run never shrink and never pass the maximum. All of them
do so exactly if there is none, or the initial delay is not past the maximum. -/
theorem growing_waits_retry_iff {σ α : Type} (jitter : Jitter) (cancelled : σ → Bool)
    (operation : σ → Except Error α × σ) (fuel : Nat) (st : σ) :
    let ws := c.waits .exact (retry c jitter cancelled operation fuel st).count
    Growing c.maxDelay ws.tail ∧
      (Growing c.maxDelay ws ↔ ws = [] ∨ c.initialDelay ≤ c.maxDelay) := by
  refine ⟨growing_tail_waits h _, ?_⟩
  generalize (retry c jitter cancelled operation fuel st).count = attempts
  constructor
  · intro hgrow
    match attempts with
    | 0 | 1 => exact Or.inl rfl
    | n + 2 =>
      rw [waits_cons] at hgrow
      exact Or.inr (hgrow.le_most _ List.mem_cons_self)
  · rintro (hnil | hle)
    · rw [hnil]
      exact ⟨nofun, .nil⟩
    · exact growing_waits h hle attempts

end exact

theorem grows_retry (o : Command.Options) : o.retry.Grows where
  initial_nonneg := Nat.cast_nonneg o.retryInitialMs
  max_nonneg := mul_nonneg (Nat.cast_nonneg o.retryMaxSecs) (by decide)
  one_le := show (1 : Rat) ≤ 2 by decide

/-- A first delay of 100 seconds, and a maximum of one. -/
def longStart : RetryConfig :=
  ({ retryInitialMs := 100000, retryMaxSecs := 1 } : Command.Options).retry

def outage : Unit → Except Error Unit × Unit := fun st => (.error (.store "down"), st)

theorem waits_longStart :
    longStart.waits .exact (retry longStart .steady (fun _ => false) outage 4 ()).count =
      [100000, 1000, 1000] := by
  decide +kernel

theorem growing_waits_longStart :
    longStart.Grows ∧
      let ws := longStart.waits .exact (retry longStart .steady (fun _ => false) outage 4 ()).count
      ws = [100000, 1000, 1000] ∧ Growing longStart.maxDelay ws.tail ∧
        ¬Growing longStart.maxDelay ws := by
  have hgrows : longStart.Grows := grows_retry _
  obtain ⟨htail, hiff⟩ := growing_waits_retry_iff hgrows .steady (fun _ => false) outage 4 ()
  have hsome :
      longStart.waits .exact (retry longStart .steady (fun _ => false) outage 4 ()).count ≠ [] := by
    rw [waits_longStart]
    nofun
  have hlong : ¬longStart.initialDelay ≤ longStart.maxDelay := by decide +kernel
  exact ⟨hgrows, waits_longStart, htail, fun hgrow => (hiff.1 hgrow).elim hsome hlong⟩

/-- The maximum is none for the first wait. -/
theorem not_forall_growing_waits :
    ¬∀ (c : RetryConfig) (jitter : Jitter) (operation : Unit → Except Error Unit × Unit)
      (fuel : Nat), c.Grows → Stretches jitter →
      (∀ st, ∃ e, (operation st).1 = .error e ∧ e.isRetryable = true) →
      Growing c.maxDelay
        (c.waits .exact (retry c jitter (fun _ => false) operation fuel ()).count) := by
  intro h
  have hgrow := h longStart .steady outage 4 (grows_retry _) stretches_steady
    fun _ => ⟨.store "down", rfl, rfl⟩
  rw [waits_longStart] at hgrow
  exact absurd (hgrow.le_most 100000 List.mem_cons_self) (by decide +kernel)

end RetryConfig
end TenantOperator
