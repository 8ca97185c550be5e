import Mathlib.Data.Nat.Digits.Lemmas
import Zigbee.Lib.Bytes

/-!
# The distinguished encoding of natural numbers

* `unsigned`, `magnitude` — big-endian numbers, and the bytes of a number without leading zeros.
* `Minimal`, `signed` — the shortest two's complement contents of an INTEGER, and their value.
* `integerContent_iff` — **a natural number has exactly one minimal encoding**.
* `integer`, `sequence` — elements with their identifier and length octets.
-/

namespace Der

open Bytes (Buf)

/-! ## Big-endian numbers -/

def unsigned : Buf → Nat
  | [] => 0
  | b :: l => b.toNat * 256 ^ l.length + unsigned l

/-- The shortest big-endian bytes of a number; none for zero. -/
def magnitude (n : Nat) : Buf := (Nat.digits 256 n).reverse.map UInt8.ofNat

variable {b : UInt8} {l : Buf} {n : Nat}

theorem ofDigits_reverse (l : Buf) : Nat.ofDigits 256 (l.reverse.map UInt8.toNat) = unsigned l := by
  induction l with
  | nil => rfl
  | cons b l ih =>
    rw [List.reverse_cons, List.map_append, Nat.ofDigits_append, ih, List.map_cons, List.map_nil, Nat.ofDigits_singleton,
      List.length_map, List.length_reverse, unsigned]
    ring

theorem unsigned_lt (l : Buf) : unsigned l < 256 ^ l.length := by
  have hlt := Nat.ofDigits_lt_base_pow_length (b := 256) (l := l.reverse.map UInt8.toNat) (by decide) fun x hx => by
    obtain ⟨b, -, rfl⟩ := List.mem_map.mp hx
    exact b.toNat_lt
  rw [ofDigits_reverse, List.length_map, List.length_reverse] at hlt
  exact hlt

theorem unsigned_zeros (k : Nat) (l : Buf) : unsigned (List.replicate k 0 ++ l) = unsigned l := by
  induction k with
  | zero => rfl
  | succ k ih =>
    rw [List.replicate_succ, List.cons_append, unsigned, ih]
    exact (congrArg (· + unsigned l) (Nat.zero_mul _)).trans (Nat.zero_add _)

theorem unsigned_magnitude (n : Nat) : unsigned (magnitude n) = n := by
  rw [← ofDigits_reverse]
  unfold magnitude
  rw [← List.map_reverse, List.reverse_reverse, List.map_map]
  have hdigits : (Nat.digits 256 n).map (UInt8.toNat ∘ UInt8.ofNat) = Nat.digits 256 n := by
    refine (List.map_congr_left fun d hd => ?_).trans (List.map_id _)
    exact Nat.mod_eq_of_lt (Nat.digits_lt_base (by decide) hd)
  rw [hdigits, Nat.ofDigits_digits]

/-- Bytes without a leading zero are those of their value. -/
theorem magnitude_unsigned (h : ∀ b ∈ l.head?, b ≠ 0) : magnitude (unsigned l) = l := by
  have hdigits : Nat.digits 256 (unsigned l) = l.reverse.map UInt8.toNat := by
    rw [← ofDigits_reverse]
    refine Nat.digits_ofDigits 256 (by decide) _ (fun x hx => ?_) fun hne hlast => ?_
    · obtain ⟨b, -, rfl⟩ := List.mem_map.mp hx
      exact b.toNat_lt
    · rw [List.getLast_map] at hlast
      have hne' : l ≠ [] := fun hl => hne (by rw [hl]; rfl)
      rw [List.getLast_reverse] at hlast
      exact h (l.head hne') (List.head?_eq_some_head hne') (UInt8.toNat_inj.mp hlast)
  unfold magnitude
  rw [hdigits, ← List.map_reverse, List.reverse_reverse, List.map_map]
  refine (List.map_congr_left fun b _ => ?_).trans (List.map_id _)
  exact UInt8.ofNat_toNat

theorem magnitude_head (h : b ∈ (magnitude n).head?) : b ≠ 0 := by
  unfold magnitude at h
  rw [List.head?_map, List.head?_reverse] at h
  obtain ⟨d, hd, rfl⟩ := Option.map_eq_some_iff.mp (Option.mem_def.mp h)
  have hn : n ≠ 0 := by
    rintro rfl
    rw [Nat.digits_zero] at hd
    cases hd
  have hlast := Nat.getLast_digit_ne_zero 256 hn
  rw [List.getLast?_eq_some_getLast (Nat.digits_ne_nil_iff_ne_zero.mpr hn)] at hd
  obtain rfl := Option.some.inj hd
  intro hzero
  have hlt : (Nat.digits 256 n).getLast (Nat.digits_ne_nil_iff_ne_zero.mpr hn) < 256 :=
    Nat.digits_lt_base (by decide) (List.getLast_mem _)
  have hvalue : (UInt8.ofNat ((Nat.digits 256 n).getLast _)).toNat = _ := Nat.mod_eq_of_lt hlt
  rw [hzero] at hvalue
  exact hlast hvalue.symm

theorem unsigned_injective {l' : Buf} (hlen : l.length = l'.length) (h : unsigned l = unsigned l') : l = l' := by
  rw [← ofDigits_reverse, ← ofDigits_reverse] at h
  have hbound : ∀ m : Buf, ∀ x ∈ m.reverse.map UInt8.toNat, x < 256 := fun m x hx => by
    obtain ⟨b, -, rfl⟩ := List.mem_map.mp hx
    exact b.toNat_lt
  have hsame := Nat.ofDigits_inj_of_len_eq (b := 256) (by decide) (by simp [hlen]) (hbound l) (hbound l') h
  exact List.reverse_injective (List.map_injective_iff.mpr (fun _ _ => UInt8.toNat_inj.mp) hsame)

theorem magnitude_length {k : Nat} (h : n < 256 ^ k) : (magnitude n).length ≤ k := by
  unfold magnitude
  rw [List.length_map, List.length_reverse]
  exact (Nat.digits_length_le_iff (by decide) n).mpr h

/-! ## Integers -/

/-- The value of the contents octets, in two's complement. -/
def signed (l : Buf) : Int := if 0x80 ≤ l.headD 0 then (unsigned l : Int) - 256 ^ l.length else unsigned l

/-- There are contents octets, and the first nine bits are not all alike. -/
structure Minimal (l : Buf) : Prop where
  nonempty : l ≠ []
  shortest : ∀ a b rest, l = a :: b :: rest → ¬ (a = 0 ∧ b < 0x80) ∧ ¬ (a = 0xFF ∧ 0x80 ≤ b)

/-- The contents octets of a natural number. -/
def integerContent (n : Nat) : Buf :=
  match magnitude n with
  | [] => [0]
  | b :: l => if b < 0x80 then b :: l else 0 :: b :: l

theorem unsigned_zero_cons (l : Buf) : unsigned (0 :: l) = unsigned l := unsigned_zeros 1 l

theorem unsigned_integerContent (n : Nat) : unsigned (integerContent n) = n := by
  have hvalue := unsigned_magnitude n
  unfold integerContent
  split
  · rename_i hm
    rw [hm] at hvalue
    exact hvalue
  · rename_i hm
    rw [hm] at hvalue
    split
    · exact hvalue
    · rw [unsigned_zero_cons, hvalue]

theorem integerContent_head (n : Nat) : (integerContent n).headD 0 < 0x80 := by
  unfold integerContent
  split
  · decide
  · split
    · assumption
    · show (0 : UInt8) < 0x80
      decide

/-- Contents without a superfluous zero are those of their value. -/
theorem integerContent_unsigned (hne : l ≠ []) (hpos : l.headD 0 < 0x80)
    (hshort : ∀ b rest, l = 0 :: b :: rest → ¬ b < 0x80) : integerContent (unsigned l) = l := by
  obtain ⟨a, l, rfl⟩ := List.exists_cons_of_ne_nil hne
  have hpos : a < 0x80 := hpos
  by_cases ha : a = 0
  · subst ha
    rw [unsigned_zero_cons]
    cases l with
    | nil => rfl
    | cons b l =>
      have hb := hshort b l rfl
      have hmagnitude : magnitude (unsigned (b :: l)) = b :: l := magnitude_unsigned fun x hx => by
        obtain rfl : b = x := Option.some.inj hx
        rintro rfl
        exact hb (by decide)
      unfold integerContent
      rw [hmagnitude]
      exact if_neg hb
  · have hmagnitude : magnitude (unsigned (a :: l)) = a :: l := magnitude_unsigned fun x hx => by
      obtain rfl : a = x := Option.some.inj hx
      exact ha
    unfold integerContent
    rw [hmagnitude]
    exact if_pos hpos

theorem signed_of_pos (h : l.headD 0 < 0x80) : signed l = unsigned l :=
  if_neg (UInt8.not_le.mpr h)

theorem pos_of_signed (h : 0 ≤ signed l) : l.headD 0 < 0x80 := by
  by_contra hneg
  have hlt : (unsigned l : Int) < 256 ^ l.length := by exact_mod_cast unsigned_lt l
  unfold signed at h
  rw [if_pos (UInt8.not_lt.mp hneg)] at h
  omega

theorem integerContent_minimal (n : Nat) : Minimal (integerContent n) := by
  unfold integerContent
  cases hm : magnitude n with
  | nil => exact ⟨List.cons_ne_nil _ _, fun a b rest h => by cases h⟩
  | cons b l =>
    have hb : b ≠ 0 := magnitude_head (n := n) (by rw [hm]; rfl)
    dsimp only
    split
    · rename_i hpos
      refine ⟨List.cons_ne_nil _ _, fun a b' rest h => ?_⟩
      obtain ⟨rfl, -⟩ := List.cons.inj h
      refine ⟨fun hzero => hb hzero.1, fun hff => ?_⟩
      rw [hff.1] at hpos
      exact absurd hpos (by decide)
    · rename_i hneg
      refine ⟨List.cons_ne_nil _ _, fun a b' rest h => ?_⟩
      obtain ⟨ha, h⟩ := List.cons.inj h
      obtain ⟨rfl, -⟩ := List.cons.inj h
      exact ⟨fun hzero => hneg hzero.2, fun hff => absurd (ha.trans hff.1) (by decide)⟩

/-- **A natural number has exactly one minimal encoding.** -/
theorem integerContent_iff : Minimal l ∧ signed l = n ↔ l = integerContent n := by
  constructor
  · rintro ⟨hmin, hsigned⟩
    have hpos : l.headD 0 < 0x80 := pos_of_signed (by omega)
    rw [signed_of_pos hpos] at hsigned
    obtain rfl : unsigned l = n := by exact_mod_cast hsigned
    exact (integerContent_unsigned hmin.nonempty hpos fun b rest h hb => (hmin.shortest 0 b rest h).1 ⟨rfl, hb⟩).symm
  · rintro rfl
    refine ⟨integerContent_minimal n, ?_⟩
    rw [signed_of_pos (integerContent_head n), unsigned_integerContent]

theorem integerContent_length {k : Nat} (h : n < 256 ^ k) (hk : 0 < k) : (integerContent n).length ≤ k + 1 := by
  have hlen := magnitude_length h
  unfold integerContent
  cases hm : magnitude n with
  | nil =>
    show 1 ≤ k + 1
    omega
  | cons b l =>
    rw [hm] at hlen
    dsimp only
    split
    · omega
    · exact Nat.succ_le_succ hlen

/-! ## Elements -/

/-- Length octets, in the fewest. -/
def lengthOctets (n : Nat) : Buf :=
  if n < 0x80 then [UInt8.ofNat n] else UInt8.ofNat (0x80 + (magnitude n).length) :: magnitude n

def element (tag : UInt8) (content : Buf) : Buf := tag :: (lengthOctets content.length ++ content)

def integer (n : Nat) : Buf := element 0x02 (integerContent n)

def sequence (content : Buf) : Buf := element 0x30 content

theorem element_short {tag : UInt8} {content : Buf} (h : content.length < 0x80) :
    element tag content = tag :: UInt8.ofNat content.length :: content := by
  unfold element lengthOctets
  rw [if_pos h]
  rfl

end Der
