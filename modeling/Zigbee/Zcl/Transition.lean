import Mathlib.Tactic.Positivity
import Zigbee.Lib.Interpolation

/-!
# Attribute transitions

Model of `Transition` of `zigbee-zcl/src/transition.rs`.

* `Transition.tick` — the interpolation, in 64-bit arithmetic that may overflow.
* `tick_spec` — it never does, and a tick leads to the point of the straight movement.
* `valueAfter_new` — the value after some ticks depends on the elapsed time alone.
* `valueAt_path` — it goes straight to the target.
-/

namespace Zigbee.Zcl

open Interpolation

/-- A 64-bit result, or an overflow. -/
def i64 (x : Int) : Option Int := if -2 ^ 63 ≤ x ∧ x < 2 ^ 63 then some x else none

theorem i64_of_bounds {x : Int} (hlow : -2 ^ 63 ≤ x) (hhigh : x < 2 ^ 63) : i64 x = some x := if_pos ⟨hlow, hhigh⟩

/-- One transition of one attribute, in deciseconds. -/
structure Transition where
  startValue : Int32
  targetValue : Int32
  remainingDs : UInt16
  totalDs : UInt16
  remaining_le : remainingDs ≤ totalDs
  deriving DecidableEq

namespace Transition

def new (start target : Int32) (timeDs : UInt16) : Transition := ⟨start, target, timeDs, timeDs, UInt16.le_refl _⟩

/-- The time that has passed, up to the duration. -/
def elapsedDs (t : Transition) : Nat := t.totalDs.toNat - t.remainingDs.toNat

def finish (t : Transition) : Transition := { t with remainingDs := 0, remaining_le := UInt16.zero_le }

/-- The transition with less time left. -/
def shorten (t : Transition) (elapsedDs : UInt16) (h : ¬ t.remainingDs ≤ elapsedDs) : Transition :=
  { t with
    remainingDs := t.remainingDs - elapsedDs
    remaining_le := by
      have hle := UInt16.le_iff_toNat_le.mp t.remaining_le
      have hlt := UInt16.lt_iff_toNat_lt.mp (UInt16.not_le.mp h)
      rw [UInt16.le_iff_toNat_le, UInt16.toNat_sub_of_le _ _ (UInt16.le_of_lt (UInt16.not_le.mp h))]
      omega }

/-- Advance by `elapsedDs`, and the value then; `none` stands for an overflow. -/
def tick (t : Transition) (elapsedDs : UInt16) : Option (Transition × Int32) :=
  if h : t.remainingDs ≤ elapsedDs then some (t.finish, t.targetValue)
  else
    let t' := t.shorten elapsedDs h
    if t.totalDs = 0 then some (t', t.targetValue)
    else do
      let elapsedTotal := (t.totalDs - t'.remainingDs).toNat
      let delta ← i64 (t.targetValue.toInt - t.startValue.toInt)
      let product ← i64 (delta * elapsedTotal)
      let value ← i64 (t.startValue.toInt + product.tdiv t.totalDs.toNat)
      some (t', Int32.ofInt value)

def isComplete (t : Transition) : Bool := t.remainingDs == 0

/-- The value that the transition has after `elapsed` deciseconds. -/
def valueAt (t : Transition) (elapsed : Nat) : Int32 :=
  Int32.ofInt (interpolate t.startValue.toInt t.targetValue.toInt t.totalDs.toNat elapsed)

variable {t : Transition}

theorem valueAt_toInt (t : Transition) (elapsed : Nat) :
    (t.valueAt elapsed).toInt = interpolate t.startValue.toInt t.targetValue.toInt t.totalDs.toNat elapsed := by
  have hbetween : min t.startValue.toInt t.targetValue.toInt ≤
      interpolate t.startValue.toInt t.targetValue.toInt t.totalDs.toNat elapsed ∧
      interpolate t.startValue.toInt t.targetValue.toInt t.totalDs.toNat elapsed ≤
        max t.startValue.toInt t.targetValue.toInt := interpolate_between
  have hs := t.startValue.le_toInt
  have hs' := t.startValue.toInt_lt
  have ht := t.targetValue.le_toInt
  have ht' := t.targetValue.toInt_lt
  exact Int32.toInt_ofInt_of_le (by omega) (by omega)

/-- The product of a 32-bit difference and a duration. -/
theorem product_bounds {delta : Int} {n : Nat} (hd : -2 ^ 32 ≤ delta ∧ delta ≤ 2 ^ 32) (hn : n ≤ 2 ^ 16) :
    -2 ^ 48 ≤ delta * n ∧ delta * n ≤ 2 ^ 48 := by
  have hn' : (n : Int) ≤ 2 ^ 16 := by exact_mod_cast hn
  have h0 : (0 : Int) ≤ n := Int.natCast_nonneg n
  constructor
  · nlinarith
  · nlinarith

/-- What one tick does: the time passes, and the value is the point that the movement has reached. -/
structure Ticked (t : Transition) (elapsedDs : UInt16) (t' : Transition) (value : Int32) : Prop where
  startValue : t'.startValue = t.startValue
  targetValue : t'.targetValue = t.targetValue
  totalDs : t'.totalDs = t.totalDs
  elapsed : t'.elapsedDs = min (t.elapsedDs + elapsedDs.toNat) t.totalDs.toNat
  value : value = t.valueAt (t.elapsedDs + elapsedDs.toNat)

/-- **No tick overflows**, and it leads to the point of the straight movement. -/
theorem tick_spec (t : Transition) (elapsedDs : UInt16) : ∃ r, t.tick elapsedDs = some r ∧ Ticked t elapsedDs r.1 r.2 := by
  have hle := UInt16.le_iff_toNat_le.mp t.remaining_le
  unfold tick
  by_cases h : t.remainingDs ≤ elapsedDs
  · rw [dif_pos h]
    have hnat := UInt16.le_iff_toNat_le.mp h
    have hover : t.totalDs.toNat ≤ t.elapsedDs + elapsedDs.toNat := by
      unfold Transition.elapsedDs
      omega
    refine ⟨_, rfl, rfl, rfl, rfl, ?_, ?_⟩
    · rw [Nat.min_eq_right hover]
      rfl
    · rw [← Int32.toInt_inj, valueAt_toInt, interpolate_arrived hover]
  · rw [dif_neg h]
    have hlt := UInt16.lt_iff_toNat_lt.mp (UInt16.not_le.mp h)
    have hpos : t.totalDs ≠ 0 := by
      intro hzero
      rw [hzero] at hle
      simp at hle
      omega
    have hremaining : (t.shorten elapsedDs h).remainingDs.toNat = t.remainingDs.toNat - elapsedDs.toNat :=
      UInt16.toNat_sub_of_le _ _ (UInt16.le_of_lt (UInt16.not_le.mp h))
    have helapsed : (t.totalDs - (t.shorten elapsedDs h).remainingDs).toNat = t.elapsedDs + elapsedDs.toNat := by
      have hshort : (t.shorten elapsedDs h).remainingDs ≤ t.totalDs := (t.shorten elapsedDs h).remaining_le
      rw [UInt16.toNat_sub_of_le _ _ hshort, hremaining]
      unfold Transition.elapsedDs
      omega
    have hmoving : t.elapsedDs + elapsedDs.toNat < t.totalDs.toNat := by
      unfold Transition.elapsedDs
      omega
    have hs := t.startValue.le_toInt
    have hs' := t.startValue.toInt_lt
    have ht := t.targetValue.le_toInt
    have ht' := t.targetValue.toInt_lt
    have hvalue := valueAt_toInt t (t.elapsedDs + elapsedDs.toNat)
    have hv := (t.valueAt (t.elapsedDs + elapsedDs.toNat)).le_toInt
    have hv' := (t.valueAt (t.elapsedDs + elapsedDs.toNat)).toInt_lt
    rw [interpolate_moving hmoving] at hvalue
    have hrange : -2 ^ 32 ≤ t.targetValue.toInt - t.startValue.toInt ∧ t.targetValue.toInt - t.startValue.toInt ≤ 2 ^ 32 := by
      omega
    have hproduct := product_bounds hrange (n := t.elapsedDs + elapsedDs.toNat) (by have := t.totalDs.toNat_lt; omega)
    have hdelta : i64 (t.targetValue.toInt - t.startValue.toInt) = some _ := i64_of_bounds (by omega) (by omega)
    simp only [if_neg hpos, helapsed, hdelta, i64_of_bounds (x := (t.targetValue.toInt - t.startValue.toInt) *
      (t.elapsedDs + elapsedDs.toNat : Nat)) (by omega) (by omega), Option.bind_eq_bind, Option.bind_some]
    rw [i64_of_bounds (by omega) (by omega)]
    refine ⟨_, rfl, rfl, rfl, rfl, ?_, ?_⟩
    · rw [Nat.min_eq_left (by omega)]
      change t.totalDs.toNat - (t.shorten elapsedDs h).remainingDs.toNat = _
      rw [hremaining]
      unfold Transition.elapsedDs
      omega
    · rw [valueAt, interpolate_moving hmoving]

/-! ## Several ticks -/

def ticks (t : Transition) : List UInt16 → Option Transition
  | [] => some t
  | e :: es => (t.tick e).bind fun r => r.1.ticks es

/-- The value that the last tick returns. -/
def valueAfter (t : Transition) (es : List UInt16) (last : UInt16) : Option Int32 :=
  (t.ticks es).bind fun t' => (t'.tick last).map (·.2)

/-- The length of the ticks together. -/
def totalOf (es : List UInt16) : Nat := (es.map (·.toNat)).sum

/-- The values depend on the parameters of the transition, and on the time only up to its duration. -/
theorem valueAt_congr {t' : Transition} (hs : t'.startValue = t.startValue) (ht : t'.targetValue = t.targetValue)
    (hd : t'.totalDs = t.totalDs) (elapsed : Nat) : t'.valueAt elapsed = t.valueAt (min elapsed t.totalDs.toNat) := by
  rw [valueAt, valueAt, hs, ht, hd, interpolate_min]

theorem ticks_spec (t : Transition) (es : List UInt16) :
    ∃ t', t.ticks es = some t' ∧ t'.startValue = t.startValue ∧ t'.targetValue = t.targetValue ∧
      t'.totalDs = t.totalDs ∧ t'.elapsedDs = min (t.elapsedDs + totalOf es) t.totalDs.toNat := by
  induction es generalizing t with
  | nil =>
    refine ⟨t, rfl, rfl, rfl, rfl, ?_⟩
    unfold Transition.elapsedDs
    simp [totalOf]
  | cons e es ih =>
    obtain ⟨⟨t₁, v⟩, htick, h₁⟩ := t.tick_spec e
    obtain ⟨t₂, hticks, hs, ht, hd, helapsed⟩ := ih t₁
    refine ⟨t₂, ?_, hs.trans h₁.startValue, ht.trans h₁.targetValue, hd.trans h₁.totalDs, ?_⟩
    · rw [ticks, htick, Option.bind_some, hticks]
    · have hsum : totalOf (e :: es) = e.toNat + totalOf es := rfl
      rw [helapsed, h₁.elapsed, h₁.totalDs, hsum]
      omega

theorem valueAfter_new (start target : Int32) (timeDs : UInt16) (es : List UInt16) (last : UInt16) :
    valueAfter (new start target timeDs) es last =
      some ((new start target timeDs).valueAt (min (totalOf es + last.toNat) timeDs.toNat)) := by
  obtain ⟨t', hticks, hs, ht, hd, helapsed⟩ := (new start target timeDs).ticks_spec es
  obtain ⟨⟨t₂, v⟩, htick, h⟩ := t'.tick_spec last
  have hstart : (new start target timeDs).elapsedDs = 0 := Nat.sub_self _
  have htotal : (new start target timeDs).totalDs = timeDs := rfl
  have hvalue : v = t'.valueAt (t'.elapsedDs + last.toNat) := h.value
  have htime : min (t'.elapsedDs + last.toNat) timeDs.toNat = min (totalOf es + last.toNat) timeDs.toNat := by
    rw [helapsed, hstart, htotal]
    omega
  rw [valueAfter, hticks, Option.bind_some, htick, Option.map_some, hvalue, valueAt_congr hs ht hd, htotal, htime]

/-- The way of a value from `start` to `target`. -/
structure Path (start target : Int32) (duration : Nat) (value : Nat → Int32) : Prop where
  departs : 0 < duration → value 0 = start
  between : ∀ e, min start.toInt target.toInt ≤ (value e).toInt ∧ (value e).toInt ≤ max start.toInt target.toInt
  rises : start ≤ target → ∀ e e', e ≤ e' → value e ≤ value e'
  falls : target ≤ start → ∀ e e', e ≤ e' → value e' ≤ value e
  arrives : ∀ e, value e = target ↔ duration ≤ e ∨ start = target

theorem valueAt_path (start target : Int32) (timeDs : UInt16) :
    Path start target timeDs.toNat (new start target timeDs).valueAt where
  departs h := by
    rw [← Int32.toInt_inj, valueAt_toInt]
    exact interpolate_start h
  between e := by
    rw [valueAt_toInt]
    exact interpolate_between
  rises h e e' he := by
    rw [Int32.le_iff_toInt_le, valueAt_toInt, valueAt_toInt]
    exact interpolate_mono (Int32.le_iff_toInt_le.mp h) he
  falls h e e' he := by
    rw [Int32.le_iff_toInt_le, valueAt_toInt, valueAt_toInt]
    exact interpolate_anti (Int32.le_iff_toInt_le.mp h) he
  arrives e := by
    rw [← Int32.toInt_inj, valueAt_toInt]
    change interpolate start.toInt target.toInt timeDs.toNat e = target.toInt ↔ _
    rw [interpolate_eq_target, Int32.toInt_inj]

end Transition

end Zigbee.Zcl
