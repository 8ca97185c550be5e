import Zigbee.Lib.Der
import Zigbee.Lib.FieldReader

/-!
# Signatures in DER

Model of the signature parser of `mcuboot-image/src/p256.rs`: a SEQUENCE of two INTEGERs into two scalars of
32 bytes.

* `parseDerInteger`, `parseDerSignature` — the parser.
* `parseDerInteger_inverse` — an INTEGER is accepted where it is the encoding of a scalar.
* `parse_der_signature_strict` — **exactly the encodings of two scalars are accepted**.
-/

namespace Zigbee.Mcuboot

open Bytes (Buf Inverse arrayAt)
open Der

abbrev Scalar := Vector UInt8 32

/-- A value of at most 32 bytes, with zeros before it. -/
def scalarOf (value : Buf) : Option Scalar :=
  if 32 < value.length then none else some (arrayAt 32 (List.replicate (32 - value.length) 0 ++ value) 0)

/-- The contents octets of an INTEGER that is not negative. -/
def parseDerValue (value : Buf) : Option Scalar :=
  if value.getD 0 0 &&& 0x80 ≠ 0 then none
  else if value.getD 0 0 = 0 ∧ 1 < value.length then
    -- A leading zero is only allowed to clear the sign bit.
    if value.getD 1 0 &&& 0x80 = 0 then none else scalarOf (value.drop 1)
  else scalarOf value

def parseDerInteger : Buf → Option (Scalar × Buf)
  | tag :: length :: rest =>
    if tag ≠ 0x02 ∨ length.toNat = 0 ∨ 33 < length.toNat ∨ rest.length < length.toNat then none
    else (parseDerValue (rest.take length.toNat)).map (·, rest.drop length.toNat)
  | _ => none

def parseDerSignature : Buf → Option (Scalar × Scalar)
  | tag :: length :: body =>
    if tag ≠ 0x30 ∨ length.toNat ≠ body.length ∨ 0x80 ≤ length then none
    else do
      let (r, rest) ← parseDerInteger body
      let (s, rest) ← parseDerInteger rest
      if rest.isEmpty then some (r, s) else none
  | _ => none

/-! ## Scalars -/

/-- The number that a scalar stands for. -/
def Scalar.value (v : Scalar) : Nat := unsigned v.toList

theorem Scalar.value_lt (v : Scalar) : v.value < 256 ^ 32 := by
  have hlt := unsigned_lt v.toList
  rw [Vector.length_toList] at hlt
  exact hlt

theorem scalarOf_eq_some {value : Buf} {v : Scalar} :
    scalarOf value = some v ↔ value.length ≤ 32 ∧ v.toList = List.replicate (32 - value.length) 0 ++ value := by
  have hlist : value.length ≤ 32 → (arrayAt 32 (List.replicate (32 - value.length) 0 ++ value) 0).toList =
      List.replicate (32 - value.length) 0 ++ value := by
    intro hle
    have hlen : (List.replicate (32 - value.length) 0 ++ value).length = 32 := by
      rw [List.length_append, List.length_replicate]
      omega
    rw [Bytes.arrayAt_zero_toList (by omega), List.take_of_length_le (by omega)]
  unfold scalarOf
  split
  · exact iff_of_false (fun h => by cases h) fun h => by omega
  · rename_i hle
    rw [Option.some.injEq, ← Vector.toList_inj, hlist (by omega)]
    exact ⟨fun h => ⟨by omega, h.symm⟩, fun h => h.2.symm⟩

/-- The scalar of a value has its number. -/
theorem scalarOf_value {value : Buf} {v : Scalar} (h : scalarOf value = some v) : v.value = unsigned value := by
  unfold Scalar.value
  rw [(scalarOf_eq_some.mp h).2, unsigned_zeros]

theorem scalarOf_complete {value : Buf} {v : Scalar} (hlen : value.length ≤ 32) (h : v.value = unsigned value) :
    scalarOf value = some v := by
  refine scalarOf_eq_some.mpr ⟨hlen, unsigned_injective ?_ ?_⟩
  · rw [Vector.length_toList, List.length_append, List.length_replicate]
    omega
  · rw [unsigned_zeros]
    exact h

/-! ## The parser -/

theorem sign_clear (b : UInt8) : b &&& 0x80 = 0 ↔ b < 0x80 := by
  have hall : ∀ n < 256, UInt8.ofNat n &&& 0x80 = 0 ↔ UInt8.ofNat n < 0x80 := by decide +kernel
  have hb := hall b.toNat b.toNat_lt
  rwa [UInt8.ofNat_toNat] at hb

/-- **The contents octets are those of the scalar.** -/
theorem parseDerValue_eq_some {value : Buf} {v : Scalar} (hne : value ≠ []) (hlen : value.length ≤ 33) :
    parseDerValue value = some v ↔ value = integerContent v.value := by
  obtain ⟨a, l, rfl⟩ := List.exists_cons_of_ne_nil hne
  rw [List.length_cons] at hlen
  constructor
  · intro h
    unfold parseDerValue at h
    split at h
    · cases h
    · rename_i hsign
      have hpos : a < 0x80 := (sign_clear a).mp (not_not.mp hsign)
      split at h
      · rename_i hzero
        obtain ⟨ha, hlong⟩ := hzero
        obtain rfl : a = 0 := ha
        obtain ⟨b, l, rfl⟩ := List.exists_cons_of_length_pos (by simpa using hlong : 0 < l.length)
        split at h
        · cases h
        · rename_i hb
          have hneg : ¬ b < 0x80 := fun hb' => hb ((sign_clear b).mpr hb')
          rw [scalarOf_value h, List.drop_one, List.tail_cons, ← unsigned_zero_cons]
          refine (integerContent_unsigned (List.cons_ne_nil _ _) hpos fun b' rest heq => ?_).symm
          obtain ⟨-, heq⟩ := List.cons.inj heq
          obtain ⟨rfl, -⟩ := List.cons.inj heq
          exact hneg
      · rename_i hsmall
        rw [scalarOf_value h]
        refine (integerContent_unsigned (List.cons_ne_nil _ _) hpos fun b rest heq => ?_).symm
        rw [heq] at hsmall
        exact absurd ⟨rfl, by simp⟩ hsmall
  · intro h
    have hmin := integerContent_minimal v.value
    have hpos := integerContent_head v.value
    have hvalue := unsigned_integerContent v.value
    rw [← h] at hmin hpos hvalue
    unfold parseDerValue
    have hsign : ¬ (a :: l).getD 0 0 &&& 0x80 ≠ 0 := not_not.mpr ((sign_clear a).mpr hpos)
    rw [if_neg hsign]
    split
    · rename_i hzero
      obtain ⟨ha, hlong⟩ := hzero
      obtain rfl : a = 0 := ha
      obtain ⟨b, l, rfl⟩ := List.exists_cons_of_length_pos (by simpa using hlong : 0 < l.length)
      have hneg : ¬ b < 0x80 := fun hb => (hmin.shortest 0 b l rfl).1 ⟨rfl, hb⟩
      have hsign' : ¬ (0 :: b :: l).getD 1 0 &&& 0x80 = 0 := fun hb => hneg ((sign_clear b).mp hb)
      rw [if_neg hsign']
      refine scalarOf_complete ?_ ?_
      · rw [List.drop_one, List.tail_cons]
        omega
      · rw [List.drop_one, List.tail_cons, ← unsigned_zero_cons, hvalue]
    · rename_i hsmall
      refine scalarOf_complete ?_ hvalue.symm
      by_cases ha : a = 0
      · have hshort : ¬ 1 < (a :: l).length := fun hlong => hsmall ⟨ha, hlong⟩
        omega
      · have hmagnitude : magnitude (unsigned (a :: l)) = a :: l := magnitude_unsigned fun x hx => by
          obtain rfl : a = x := Option.some.inj hx
          exact ha
        have hfits := magnitude_length v.value_lt
        rw [← hvalue, hmagnitude] at hfits
        exact hfits

/-- **An INTEGER is accepted where it is the encoding of a scalar**, whatever follows it. -/
theorem parseDerInteger_inverse : Inverse (fun _ => True) parseDerInteger fun v => integer v.value := by
  have hshort : ∀ v : Scalar, (integerContent v.value).length ≤ 33 := fun v =>
    integerContent_length v.value_lt (by decide)
  have hencode : ∀ (v : Scalar) (rest : Buf), integer v.value ++ rest =
      0x02 :: UInt8.ofNat (integerContent v.value).length :: (integerContent v.value ++ rest) := by
    intro v rest
    have := hshort v
    unfold integer
    rw [element_short (by omega)]
    rfl
  constructor
  · intro v rest _
    have hlen := hshort v
    have hne := (integerContent_minimal v.value).nonempty
    have hpos := List.length_pos_iff.mpr hne
    have hlength : (UInt8.ofNat (integerContent v.value).length).toNat = (integerContent v.value).length :=
      Nat.mod_eq_of_lt (by omega)
    have hguard : ¬ ((0x02 : UInt8) ≠ 0x02 ∨ (integerContent v.value).length = 0 ∨ 33 < (integerContent v.value).length ∨
        (integerContent v.value ++ rest).length < (integerContent v.value).length) := by
      rw [List.length_append]
      simp only [ne_eq, not_true_eq_false, false_or]
      omega
    rw [hencode, parseDerInteger, hlength, if_neg hguard, List.take_left, List.drop_left,
      (parseDerValue_eq_some hne hlen).mpr rfl]
    rfl
  · intro d v rest h
    refine ⟨trivial, ?_⟩
    unfold parseDerInteger at h
    split at h
    · rename_i tag length body
      split at h
      · cases h
      · rename_i hguard
        simp only [not_or, not_not, Nat.not_lt] at hguard
        obtain ⟨rfl, hpos, hle, hbody⟩ := hguard
        obtain ⟨w, hvalue, heq⟩ := Option.map_eq_some_iff.mp h
        obtain ⟨rfl, rfl⟩ := Prod.mk.inj heq
        have hlen : (body.take length.toNat).length = length.toNat := by
          rw [List.length_take]
          omega
        have hne : body.take length.toNat ≠ [] := fun hnil => hpos (by rw [← hlen, hnil]; rfl)
        have hcontent := (parseDerValue_eq_some hne (by omega)).mp hvalue
        rw [hencode, ← hcontent, hlen, List.take_append_drop, UInt8.ofNat_toNat]
    · cases h

/-- The encoding of two numbers. -/
def derSignature (r s : Nat) : Buf := sequence (integer r ++ integer s)

theorem derSignature_short (r s : Scalar) : (integer r.value ++ integer s.value).length < 0x80 := by
  have hone : ∀ v : Scalar, (integer v.value).length ≤ 35 := by
    intro v
    have hlen := integerContent_length v.value_lt (by decide)
    unfold integer
    rw [element_short (by omega), List.length_cons, List.length_cons]
    omega
  have := hone r
  have := hone s
  rw [List.length_append]
  omega

theorem parseDerSignature_eq_some {der : Buf} {r s : Scalar} :
    parseDerSignature der = some (r, s) ↔ der = derSignature r.value s.value := by
  have hshort := derSignature_short r s
  have hencode : derSignature r.value s.value = 0x30 :: UInt8.ofNat (integer r.value ++ integer s.value).length ::
      (integer r.value ++ integer s.value) := element_short hshort
  have hlength : (UInt8.ofNat (integer r.value ++ integer s.value).length).toNat =
      (integer r.value ++ integer s.value).length := Nat.mod_eq_of_lt (by omega)
  have hbody : ∀ body : Buf, (do
      let (r', rest) ← parseDerInteger body
      let (s', rest) ← parseDerInteger rest
      if rest.isEmpty then some (r', s') else none) = some (r, s) ↔ body = integer r.value ++ integer s.value := by
    intro body
    rw [parseDerInteger_inverse.bind_eq_some]
    constructor
    · rintro ⟨r', rest, -, rfl, h⟩
      obtain ⟨s', rest', -, rfl, hend⟩ := parseDerInteger_inverse.bind_eq_some.mp h
      cases rest' with
      | nil =>
        obtain ⟨rfl, rfl⟩ := Prod.mk.inj (Option.some.inj hend)
        rw [List.append_nil]
      | cons => cases hend
    · rintro rfl
      refine ⟨r, _, trivial, rfl, parseDerInteger_inverse.bind_eq_some.mpr ⟨s, [], trivial, (List.append_nil _).symm, rfl⟩⟩
  constructor
  · intro h
    unfold parseDerSignature at h
    split at h
    · rename_i tag length body
      split at h
      · cases h
      · rename_i hguard
        simp only [not_or, not_not] at hguard
        obtain ⟨rfl, hlen, -⟩ := hguard
        obtain rfl := (hbody body).mp h
        rw [hencode, ← hlen, UInt8.ofNat_toNat]
    · cases h
  · rintro rfl
    have hsmall : ¬ 0x80 ≤ UInt8.ofNat (integer r.value ++ integer s.value).length := by
      rw [UInt8.not_le, UInt8.lt_iff_toNat_lt, hlength]
      exact hshort
    rw [hencode, parseDerSignature, if_neg (not_or.mpr ⟨not_not.mpr rfl, not_or.mpr ⟨not_not.mpr hlength, hsmall⟩⟩)]
    exact (hbody _).mpr rfl

/-- The scalar of a number. -/
theorem exists_scalar {n : Nat} (h : n < 2 ^ 256) : ∃ v : Scalar, v.value = n := by
  have hlt : n < 256 ^ 32 := h
  have hlen := magnitude_length hlt
  obtain ⟨v, hv⟩ : ∃ v, scalarOf (magnitude n) = some v := ⟨_, if_neg (by omega)⟩
  exact ⟨v, by rw [scalarOf_value hv, unsigned_magnitude]⟩

/-- **A byte string is accepted exactly if it is the encoding of two numbers below 2^256**, whose INTEGERs have the
    only minimal contents octets; the result is their scalars, and no two byte strings have the same. -/
theorem parse_der_signature_strict :
    (∀ (der : Buf) (r s : Scalar), parseDerSignature der = some (r, s) ↔ der = derSignature r.value s.value) ∧
      (∀ der : Buf, (parseDerSignature der).isSome = true ↔ ∃ m n, m < 2 ^ 256 ∧ n < 2 ^ 256 ∧ der = derSignature m n) ∧
      (∀ m n, m < 2 ^ 256 → n < 2 ^ 256 →
        ∃ r s : Scalar, r.value = m ∧ s.value = n ∧ parseDerSignature (derSignature m n) = some (r, s)) ∧
      (∀ der der' v, parseDerSignature der = some v → parseDerSignature der' = some v → der = der') ∧
      ∀ (n : Nat) (content : Buf), Minimal content ∧ signed content = n ↔ content = integerContent n := by
  have hcomplete : ∀ m n, m < 2 ^ 256 → n < 2 ^ 256 →
      ∃ r s : Scalar, r.value = m ∧ s.value = n ∧ parseDerSignature (derSignature m n) = some (r, s) := by
    intro m n hm hn
    obtain ⟨r, rfl⟩ := exists_scalar hm
    obtain ⟨s, rfl⟩ := exists_scalar hn
    exact ⟨r, s, rfl, rfl, parseDerSignature_eq_some.mpr rfl⟩
  refine ⟨fun _ _ _ => parseDerSignature_eq_some, fun der => ?_, hcomplete, fun der der' v h h' => ?_,
    fun _ _ => integerContent_iff⟩
  · constructor
    · intro h
      obtain ⟨⟨r, s⟩, hrs⟩ := Option.isSome_iff_exists.mp h
      exact ⟨r.value, s.value, r.value_lt, s.value_lt, parseDerSignature_eq_some.mp hrs⟩
    · rintro ⟨m, n, hm, hn, rfl⟩
      obtain ⟨r, s, -, -, h⟩ := hcomplete m n hm hn
      rw [h]
      rfl
  · rw [parseDerSignature_eq_some.mp h, parseDerSignature_eq_some.mp h']

end Zigbee.Mcuboot
