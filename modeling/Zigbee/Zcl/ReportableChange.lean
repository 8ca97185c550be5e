import Zigbee.Zcl.DataTypes

/-!
# Reportable change

Model of `exceeds_threshold` and of what it uses in `zigbee-zcl/src/data_types.rs`.  Floating-point
numbers are computed with the language's own model of binary32 and binary64.

* `f16ToF32`, `float32ExceedsThreshold`, `float64ExceedsThreshold`, `exceedsThreshold` — the source's functions.
* `Differs`, `Reaches` — what a reportable change asks of two values.
* `exceedsThreshold_of_reaches` — a change that is reached is noticed, unless it is a negative
  floating-point number.
-/

namespace Zigbee.Zcl

/-- `f32::EPSILON` -/
def F32_EPSILON : Float32.Model := .ofBits 0x34000000

/-- `f64::EPSILON` -/
def F64_EPSILON : Float.Model := .ofBits 0x3CB0000000000000

/-- IEEE 754 binary16 bits as a binary32 number, exactly. -/
def f16ToF32 (h : UInt16) : Float32.Model :=
  let sign : UInt32 := (h.toUInt32 &&& 0x8000) <<< 16
  let exp : UInt32 := ((h >>> 10) &&& 0x1F).toUInt32
  let man : UInt32 := (h &&& 0x3FF).toUInt32
  if exp = 0 then
    if man = 0 then .ofBits sign
    else
      -- subnormal: man * 2^-24
      let v := .ofUInt32 man * .ofBits 0x33800000
      if sign ≠ 0 then -v else v
  else if exp = 0x1F then .ofBits (sign ||| 0x7F800000 ||| (man <<< (13 : UInt32)))
  else .ofBits (sign ||| ((exp + 112) <<< (23 : UInt32)) ||| (man <<< (13 : UInt32)))

def float32ExceedsThreshold (current previous threshold : Float32.Model) : Bool :=
  if !current.isFinite || !previous.isFinite then
    if current.isNaN && previous.isNaN then false else current != previous
  else if current == previous || !threshold.isFinite || threshold < .ofBits 0 then false
  else
    let difference := (current - previous).abs
    let roundingTolerance := F32_EPSILON * max (max current.abs previous.abs) threshold * .ofBits 0x40000000
    threshold ≤ difference || threshold - difference ≤ roundingTolerance

def float64ExceedsThreshold (current previous threshold : Float.Model) : Bool :=
  if !current.isFinite || !previous.isFinite then
    if current.isNaN && previous.isNaN then false else current != previous
  else if current == previous || !threshold.isFinite || threshold < .ofBits 0 then false
  else
    let difference := (current - previous).abs
    let roundingTolerance := F64_EPSILON * max (max current.abs previous.abs) threshold * .ofBits 0x4000000000000000
    threshold ≤ difference || threshold - difference ≤ roundingTolerance

namespace ZclValue

/-- `==` of values: floating-point numbers compare as numbers. -/
def partialEq : ZclValue → ZclValue → Bool
  | float32 a, float32 b => Float32.Model.ofBits a == Float32.Model.ofBits b
  | float64 a, float64 b => Float.Model.ofBits a == Float.Model.ofBits b
  | v, w => v = w

/-- Integer value, extended to 64 bits, and whether it is signed. -/
def intBits : ZclValue → Option (UInt64 × Bool)
  | u8 v => some (v.toUInt64, false)
  | u16 v => some (v.toUInt64, false)
  | u24 v | u32 v | utcTime v => some (v.toUInt64, false)
  | u48 v | u64 v => some (v, false)
  | i8 v => some (v.toInt64.toUInt64, true)
  | i16 v => some (v.toInt64.toUInt64, true)
  | i32 v => some (v.toInt64.toUInt64, true)
  | i64 v => some (v.toUInt64, true)
  | _ => none

/-- `abs_diff` and `unsigned_abs` are exact. -/
def intExceedsThreshold (signed : Bool) (a b t : UInt64) : Bool :=
  let (diff, t) :=
    if signed then ((a.toInt64.toInt - b.toInt64.toInt).natAbs, t.toInt64.toInt.natAbs)
    else (((a.toNat : Int) - b.toNat).natAbs, t.toNat)
  diff != 0 && t ≤ diff

def isFloat32 : ZclValue → Bool
  | float32 _ => true
  | _ => false

def isFloat64 : ZclValue → Bool
  | float64 _ => true
  | _ => false

/-- The comparison of values that are not three integers of one type. -/
def otherExceedsThreshold (floats : FloatSupport) : ZclValue → ZclValue → ZclValue → Bool
  | float16 a, float16 b, float16 t =>
    if floats.float32 then float32ExceedsThreshold (f16ToF32 a) (f16ToF32 b) (f16ToF32 t) else a != b
  | float32 a, float32 b, float32 t =>
    if floats.float32 then float32ExceedsThreshold (.ofBits a) (.ofBits b) (.ofBits t) else a != b
  | float64 a, float64 b, float64 t =>
    if floats.float64 then float64ExceedsThreshold (.ofBits a) (.ofBits b) (.ofBits t) else a != b
  | current, previous, _ =>
    -- without support for a type, its values differ as bits
    if !floats.float32 && (current.isFloat32 || previous.isFloat32) then current != previous
    else if !floats.float64 && (current.isFloat64 || previous.isFloat64) then current != previous
    else !current.partialEq previous

/-- Whether the values differ, by the threshold at least if the three are numbers of one type. -/
def exceedsThreshold (floats : FloatSupport) (current other threshold : ZclValue) : Bool :=
  if current.dataType = other.dataType ∧ current.dataType = threshold.dataType then
    match current.intBits, other.intBits, threshold.intBits with
    | some (a, signed), some (b, _), some (t, _) => intExceedsThreshold signed a b t
    | _, _, _ => otherExceedsThreshold floats current other threshold
  else otherExceedsThreshold floats current other threshold

/-! ### Equality is symmetric -/

theorem unpacked_compare_swap (a b : Float.Model.UnpackedFloat) : (a.compare b).map Ordering.swap = b.compare a := by
  rcases a with ⟨⟨⟩⟩ | _ | ⟨⟨⟩⟩ | ⟨⟨⟩, m, e, hm⟩ <;> rcases b with ⟨⟨⟩⟩ | _ | ⟨⟨⟩⟩ | ⟨⟨⟩, m', e', hm'⟩ <;> try rfl
  all_goals
    unfold Float.Model.UnpackedFloat.compare
    simp [Ordering.swap_then, Int.compare_swap, Nat.compare_swap]

theorem beq_eq_of_swap {x y : Option Ordering} (h : x.map Ordering.swap = y) : (x == some .eq) = (y == some .eq) := by
  subst h
  rcases x with _ | ⟨⟨⟩⟩ <;> rfl

theorem float32_beq_comm (a b : Float32.Model) : (a == b) = (b == a) := beq_eq_of_swap (unpacked_compare_swap a.unpack b.unpack)

theorem float64_beq_comm (a b : Float.Model) : (a == b) = (b == a) := beq_eq_of_swap (unpacked_compare_swap a.unpack b.unpack)

theorem partialEq_comm (v w : ZclValue) : v.partialEq w = w.partialEq v := by
  unfold partialEq
  split
  · exact float32_beq_comm _ _
  · exact float64_beq_comm _ _
  · rename_i h32 h64
    split
    · exact absurd rfl (h32 _ _ rfl)
    · exact absurd rfl (h64 _ _ rfl)
    · simp [eq_comm]

/-! ## What a reportable change asks -/

/-- The number that an integer value stands for. -/
def intValue : ZclValue → Option Int
  | u8 v => some v.toNat
  | u16 v => some v.toNat
  | u24 v | u32 v | utcTime v => some v.toNat
  | u48 v | u64 v => some v.toNat
  | i8 v => some v.toInt
  | i16 v => some v.toInt
  | i32 v => some v.toInt
  | i64 v => some v.toInt
  | _ => none

/-- The binary32 number that a value stands for. -/
def float32Value : ZclValue → Option Float32.Model
  | float16 h => some (f16ToF32 h)
  | float32 bits => some (.ofBits bits)
  | _ => none

def float64Value : ZclValue → Option Float.Model
  | float64 bits => some (.ofBits bits)
  | _ => none

def isNumber (v : ZclValue) : Bool := v.intValue.isSome || v.float32Value.isSome || v.float64Value.isSome

/-- The values are not equal, however they are compared. -/
def Differs (current last : ZclValue) : Prop := current ≠ last ∧ current.partialEq last = false

/-- The values differ by the magnitude of `change` at least.  Numbers of one type are compared as such, and
    any other two values count when they differ. -/
inductive Reaches (current last change : ZclValue) : Prop where
  | int {a b t : Int} (types : current.dataType = last.dataType ∧ current.dataType = change.dataType)
      (values : current.intValue = some a ∧ last.intValue = some b ∧ change.intValue = some t)
      (differ : a ≠ b) (reached : t.natAbs ≤ (a - b).natAbs)
  | float32 {a b t : Float32.Model} (types : current.dataType = last.dataType ∧ current.dataType = change.dataType)
      (values : current.float32Value = some a ∧ last.float32Value = some b ∧ change.float32Value = some t)
      (differ : Differs current last ∧ (a == b) = false ∧ a.isNaN = false ∧ b.isNaN = false) (finite : t.isFinite = true)
      (reached : (if t < .ofBits 0 then -t else t) ≤ (a - b).abs)
  | float64 {a b t : Float.Model} (types : current.dataType = last.dataType ∧ current.dataType = change.dataType)
      (values : current.float64Value = some a ∧ last.float64Value = some b ∧ change.float64Value = some t)
      (differ : Differs current last ∧ (a == b) = false ∧ a.isNaN = false ∧ b.isNaN = false) (finite : t.isFinite = true)
      (reached : (if t < .ofBits 0 then -t else t) ≤ (a - b).abs)
  | other (types : ¬ (current.dataType = last.dataType ∧ current.dataType = change.dataType ∧ current.isNumber = true))
      (differ : Differs current last)

/-- A floating-point change below zero, in a build that supports its type. -/
def isNegativeFloat (floats : FloatSupport) (change : ZclValue) : Bool :=
  (floats.float32 && change.float32Value.any (· < .ofBits 0)) || (floats.float64 && change.float64Value.any (· < .ofBits 0))

/-! ## A change that is reached is noticed -/

variable {v current last change : ZclValue}

/-- The 64 bits of an integer stand for its value. -/
theorem intBits_of_intValue {n : Int} (h : v.intValue = some n) :
    ∃ u signed, v.intBits = some (u, signed) ∧ (if signed then u.toInt64.toInt else (u.toNat : Int)) = n := by
  cases v <;> simp only [intValue, Option.some.injEq, reduceCtorEq] at h <;> subst h
  all_goals exact ⟨_, _, rfl, by simp⟩

/-- Integers of one type are all signed or all unsigned. -/
theorem intBits_signed {w : ZclValue} {u u' : UInt64} {signed signed' : Bool} (htype : v.dataType = w.dataType)
    (h : v.intBits = some (u, signed)) (h' : w.intBits = some (u', signed')) : signed = signed' := by
  have hsigned : ∀ {x : ZclValue} {y : UInt64} {b : Bool}, x.intBits = some (y, b) →
      b = (x.dataType == .i8 || x.dataType == .i16 || x.dataType == .i32 || x.dataType == .i64) := by
    intro x y b hx
    cases x <;> simp only [intBits, Option.some.injEq, Prod.mk.injEq, reduceCtorEq] at hx <;> exact hx.2.symm
  rw [hsigned h, hsigned h', htype]

theorem intExceedsThreshold_of_reached {a b t : Int} {ua ub ut : UInt64} {signed : Bool}
    (ha : (if signed then ua.toInt64.toInt else (ua.toNat : Int)) = a)
    (hb : (if signed then ub.toInt64.toInt else (ub.toNat : Int)) = b)
    (ht : (if signed then ut.toInt64.toInt else (ut.toNat : Int)) = t) (hdiffer : a ≠ b)
    (hreached : t.natAbs ≤ (a - b).natAbs) : intExceedsThreshold signed ua ub ut = true := by
  have hpos : (a - b).natAbs ≠ 0 := by omega
  cases signed with
  | true =>
    simp only [if_true] at ha hb ht
    simp [intExceedsThreshold, ha, hb, ht, hreached]
    omega
  | false =>
    simp only [Bool.false_eq_true, if_false] at ha hb ht
    subst ht
    simp only [Int.natAbs_natCast] at hreached
    simp [intExceedsThreshold, ha, hb, hreached]
    omega

theorem float32ExceedsThreshold_of_reached {a b t : Float32.Model} (hdiffer : (a == b) = false) (ha : a.isNaN = false)
    (hfinite : t.isFinite = true) (hpos : ¬ t < .ofBits 0) (hreached : t ≤ (a - b).abs) :
    float32ExceedsThreshold a b t = true := by
  unfold float32ExceedsThreshold
  split
  · simp [ha, bne, hdiffer]
  · simp [hdiffer, hfinite, hpos, hreached]

theorem float64ExceedsThreshold_of_reached {a b t : Float.Model} (hdiffer : (a == b) = false) (ha : a.isNaN = false)
    (hfinite : t.isFinite = true) (hpos : ¬ t < .ofBits 0) (hreached : t ≤ (a - b).abs) :
    float64ExceedsThreshold a b t = true := by
  unfold float64ExceedsThreshold
  split
  · simp [ha, bne, hdiffer]
  · simp [hdiffer, hfinite, hpos, hreached]

theorem float32Value_cases {a : Float32.Model} (h : v.float32Value = some a) :
    (∃ bits, v = float16 bits ∧ f16ToF32 bits = a) ∨ ∃ bits, v = float32 bits ∧ .ofBits bits = a := by
  cases v <;> simp only [float32Value, Option.some.injEq, reduceCtorEq] at h
  · exact Or.inl ⟨_, rfl, h⟩
  · exact Or.inr ⟨_, rfl, h⟩

theorem float64Value_cases {a : Float.Model} (h : v.float64Value = some a) : ∃ bits, v = float64 bits ∧ .ofBits bits = a := by
  cases v <;> simp only [float64Value, Option.some.injEq, reduceCtorEq] at h
  exact ⟨_, rfl, h⟩

theorem otherExceedsThreshold_of_differs (floats : FloatSupport)
    (htypes : ¬ (current.dataType = last.dataType ∧ current.dataType = change.dataType ∧ current.isNumber = true))
    (h : Differs current last) : otherExceedsThreshold floats current last change = true := by
  unfold otherExceedsThreshold
  split
  · exact absurd ⟨rfl, rfl, rfl⟩ htypes
  · exact absurd ⟨rfl, rfl, rfl⟩ htypes
  · exact absurd ⟨rfl, rfl, rfl⟩ htypes
  · split
    · exact bne_iff_ne.mpr h.1
    · split
      · exact bne_iff_ne.mpr h.1
      · rw [h.2, Bool.not_false]

theorem exceedsThreshold_of_intBits_none {floats : FloatSupport} (h : current.intBits = none) :
    exceedsThreshold floats current last change = otherExceedsThreshold floats current last change := by
  unfold exceedsThreshold
  rw [h]
  split <;> rfl

theorem exceedsThreshold_of_types {floats : FloatSupport}
    (h : ¬ (current.dataType = last.dataType ∧ current.dataType = change.dataType)) :
    exceedsThreshold floats current last change = otherExceedsThreshold floats current last change := by
  unfold exceedsThreshold
  rw [if_neg h]

/-- **A change that is reached is noticed**, unless the change is a negative floating-point number. -/
theorem exceedsThreshold_of_reaches {floats : FloatSupport} (h : Reaches current last change)
    (hneg : isNegativeFloat floats change = false) : exceedsThreshold floats current last change = true := by
  simp only [isNegativeFloat, Bool.or_eq_false_iff, Bool.and_eq_false_imp] at hneg
  cases h with
  | int types values differ reached =>
    obtain ⟨hcurrent, hlast, hchange⟩ := values
    obtain ⟨ua, signed, hua, ha⟩ := intBits_of_intValue hcurrent
    obtain ⟨ub, _, hub, hb⟩ := intBits_of_intValue hlast
    obtain ⟨ut, _, hut, ht⟩ := intBits_of_intValue hchange
    obtain rfl := intBits_signed types.1 hua hub
    obtain rfl := intBits_signed types.2 hua hut
    rw [exceedsThreshold, if_pos types, hua, hub, hut]
    exact intExceedsThreshold_of_reached ha hb ht differ reached
  | @float32 a b t types values differ finite reached =>
    obtain ⟨hcurrent, hlast, hchange⟩ := values
    obtain ⟨⟨hne, -⟩, hbeq, hnan, -⟩ := differ
    have hnoticed : floats.float32 = true → float32ExceedsThreshold a b t = true := by
      intro hsupport
      have hpos : ¬ t < .ofBits 0 := by simpa [hchange] using hneg.1 hsupport
      rw [if_neg hpos] at reached
      exact float32ExceedsThreshold_of_reached hbeq hnan finite hpos reached
    rcases float32Value_cases hcurrent with ⟨x, rfl, rfl⟩ | ⟨x, rfl, rfl⟩ <;>
      rcases float32Value_cases hlast with ⟨y, rfl, rfl⟩ | ⟨y, rfl, rfl⟩ <;>
      rcases float32Value_cases hchange with ⟨z, rfl, rfl⟩ | ⟨z, rfl, rfl⟩ <;>
      simp only [dataType, reduceCtorEq, false_and, and_false] at types
    all_goals
      rw [exceedsThreshold_of_intBits_none rfl, otherExceedsThreshold]
      split
      · rename_i hsupport
        exact hnoticed hsupport
      · refine bne_iff_ne.mpr fun hxy => hne ?_
        rw [hxy]
  | @float64 a b t types values differ finite reached =>
    obtain ⟨hcurrent, hlast, hchange⟩ := values
    obtain ⟨⟨hne, -⟩, hbeq, hnan, -⟩ := differ
    have hnoticed : floats.float64 = true → float64ExceedsThreshold a b t = true := by
      intro hsupport
      have hpos : ¬ t < .ofBits 0 := by simpa [hchange] using hneg.2 hsupport
      rw [if_neg hpos] at reached
      exact float64ExceedsThreshold_of_reached hbeq hnan finite hpos reached
    obtain ⟨x, rfl, rfl⟩ := float64Value_cases hcurrent
    obtain ⟨y, rfl, rfl⟩ := float64Value_cases hlast
    obtain ⟨z, rfl, rfl⟩ := float64Value_cases hchange
    rw [exceedsThreshold_of_intBits_none rfl, otherExceedsThreshold]
    split
    · rename_i hsupport
      exact hnoticed hsupport
    · refine bne_iff_ne.mpr fun hxy => hne ?_
      rw [hxy]
  | other types differ =>
    have hother := otherExceedsThreshold_of_differs floats types differ
    by_cases htypes : current.dataType = last.dataType ∧ current.dataType = change.dataType
    · rw [exceedsThreshold_of_intBits_none, hother]
      have hnumber : current.isNumber = false := by
        by_contra hnumber
        exact types ⟨htypes.1, htypes.2, Bool.not_eq_false _ ▸ hnumber⟩
      cases current <;> first | rfl | cases hnumber
    · rw [exceedsThreshold_of_types htypes, hother]

end ZclValue

end Zigbee.Zcl
