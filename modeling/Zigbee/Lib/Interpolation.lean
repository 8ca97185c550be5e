import Mathlib.Tactic.Linarith
import Mathlib.Tactic.Ring

/-!
# Interpolation with truncating division

`interpolate start target total elapsed` — the point that a straight movement from `start` to `target`
over `total` has reached, rounded toward `start`.

* `interpolate_between`, `interpolate_mono`, `interpolate_anti` — it stays between the ends and does
  not turn back.
* `interpolate_eq_target` — it arrives when the time is over, and not before.
-/

namespace Interpolation

def interpolate (start target : Int) (total elapsed : Nat) : Int :=
  if total ≤ elapsed then target else start + ((target - start) * elapsed).tdiv total

variable {start target : Int} {total elapsed elapsed' : Nat}

theorem interpolate_arrived (h : total ≤ elapsed) : interpolate start target total elapsed = target := if_pos h

theorem interpolate_moving (h : elapsed < total) :
    interpolate start target total elapsed = start + ((target - start) * elapsed).tdiv total :=
  if_neg (Nat.not_le.mpr h)

theorem interpolate_start (h : 0 < total) : interpolate start target total 0 = start := by
  rw [interpolate_moving h]
  simp

/-- Time beyond the end counts for nothing. -/
theorem interpolate_min : interpolate start target total (min elapsed total) = interpolate start target total elapsed := by
  by_cases h : total ≤ elapsed
  · rw [Nat.min_eq_right h, interpolate_arrived (Nat.le_refl _), interpolate_arrived h]
  · rw [Nat.min_eq_left (by omega)]

/-- A movement down is the mirror image of a movement up. -/
theorem interpolate_neg : interpolate (-start) (-target) total elapsed = -interpolate start target total elapsed := by
  unfold interpolate
  split
  · rfl
  · rw [show (-target - -start) * (elapsed : Int) = -((target - start) * elapsed) by ring, Int.neg_tdiv]
    ring

/-! ## A movement up -/

/-- The way covered is short of the whole until the time is over. -/
theorem part_lt (hup : start < target) (h : elapsed < total) : ((target - start) * elapsed).tdiv total < target - start := by
  have hd : 0 < target - start := by omega
  rw [Int.tdiv_eq_ediv_of_nonneg (by positivity)]
  refine Int.ediv_lt_of_lt_mul (by omega) ?_
  exact Int.mul_lt_mul_of_pos_left (by omega) hd

theorem part_nonneg (hup : start ≤ target) : 0 ≤ ((target - start) * elapsed).tdiv total :=
  Int.tdiv_nonneg (Int.mul_nonneg (by omega) (Int.natCast_nonneg _)) (Int.natCast_nonneg _)

theorem up_between (hup : start ≤ target) :
    start ≤ interpolate start target total elapsed ∧ interpolate start target total elapsed ≤ target := by
  by_cases h : total ≤ elapsed
  · rw [interpolate_arrived h]
    exact ⟨hup, Int.le_refl _⟩
  · rw [interpolate_moving (Nat.not_le.mp h)]
    have hpos : 0 ≤ ((target - start) * elapsed).tdiv total := part_nonneg hup
    rcases Int.lt_or_eq_of_le hup with hlt | rfl
    · have := part_lt hlt (Nat.not_le.mp h)
      omega
    · simp

theorem interpolate_mono (hup : start ≤ target) (h : elapsed ≤ elapsed') :
    interpolate start target total elapsed ≤ interpolate start target total elapsed' := by
  by_cases hend : total ≤ elapsed'
  · rw [interpolate_arrived hend]
    exact (up_between hup).2
  · rw [interpolate_moving (by omega), interpolate_moving (by omega)]
    have hd : 0 ≤ target - start := by omega
    have hmul : (target - start) * elapsed ≤ (target - start) * elapsed' :=
      Int.mul_le_mul_of_nonneg_left (by omega) hd
    have := Int.tdiv_le_tdiv (c := total) (by omega) hmul
    omega

/-! ## Any movement -/

theorem interpolate_anti (hdown : target ≤ start) (h : elapsed ≤ elapsed') :
    interpolate start target total elapsed' ≤ interpolate start target total elapsed := by
  have hup : -start ≤ -target := by omega
  have : interpolate (-start) (-target) total elapsed ≤ interpolate (-start) (-target) total elapsed' := interpolate_mono hup h
  rw [interpolate_neg, interpolate_neg] at this
  omega

theorem interpolate_between :
    min start target ≤ interpolate start target total elapsed ∧
      interpolate start target total elapsed ≤ max start target := by
  rcases Int.le_total start target with hup | hdown
  · have : start ≤ interpolate start target total elapsed ∧ interpolate start target total elapsed ≤ target := up_between hup
    omega
  · have hup : -start ≤ -target := by omega
    have : -start ≤ interpolate (-start) (-target) total elapsed ∧ interpolate (-start) (-target) total elapsed ≤ -target :=
      up_between hup
    rw [interpolate_neg] at this
    omega

theorem interpolate_eq_target : interpolate start target total elapsed = target ↔ total ≤ elapsed ∨ start = target := by
  constructor
  · intro h
    by_contra hcon
    obtain ⟨hmoving, hne⟩ := not_or.mp hcon
    rcases Int.lt_or_gt_of_ne hne with hup | hdown
    · rw [interpolate_moving (by omega)] at h
      have : ((target - start) * elapsed).tdiv total < target - start := part_lt hup (by omega)
      omega
    · have hneg : interpolate (-start) (-target) total elapsed = -target := by rw [interpolate_neg, h]
      rw [interpolate_moving (by omega)] at hneg
      have hup : -start < -target := by omega
      have : ((-target - -start) * elapsed).tdiv total < -target - -start := part_lt hup (by omega)
      omega
  · rintro (h | rfl)
    · exact interpolate_arrived h
    · unfold interpolate
      split <;> simp

end Interpolation
