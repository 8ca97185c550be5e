import Mathlib.Data.Finset.Card
import Mathlib.Data.Finset.Range

/-!
# Machine words as sets of bits

A word of `w` bits stands for the set of the positions below `w` that are set.

* `insert`, `erase`, `ofRange` — one bit set or cleared, and a range of bits as a fold over its positions.
* `card` — the number of bits that are set.
* `card_le_card`, `card_lt_card`, `card_lt_of_missing` — more bits, greater number.
-/

namespace BitSet

variable {w : Nat}

/-- `m | (1 << i)`. -/
def insert (m : BitVec w) (i : Nat) : BitVec w := m ||| BitVec.twoPow w i

/-- `m & !(1 << i)`. -/
def erase (m : BitVec w) (i : Nat) : BitVec w := m &&& ~~~(BitVec.twoPow w i)

/-- The bits from `a` up to `b`, set one after another. -/
def ofRange (w a b : Nat) : BitVec w := (List.range' a (b - a)).foldl insert 0#w

theorem getLsbD_insert (m : BitVec w) {i : Nat} (hi : i < w) (j : Nat) :
    (insert m i).getLsbD j = (m.getLsbD j || i == j) := by
  rw [insert, BitVec.getLsbD_or, BitVec.getLsbD_twoPow]
  simp only [hi, decide_true, Bool.true_and]
  congr 1

theorem getLsbD_erase (m : BitVec w) (i j : Nat) : (erase m i).getLsbD j = (m.getLsbD j && i != j) := by
  rw [erase, BitVec.getLsbD_and, BitVec.getLsbD_not, BitVec.getLsbD_twoPow]
  by_cases hj : j < w
  · by_cases hij : i = j
    · subst hij
      simp [hj]
    · simp [hj, hij]
  · rw [BitVec.getLsbD_of_ge _ _ (by omega)]
    rfl

/-- A fold sets the bits of its list. -/
theorem getLsbD_foldl_insert {l : List Nat} (hl : ∀ i ∈ l, i < w) (m : BitVec w) (j : Nat) :
    (l.foldl insert m).getLsbD j = (m.getLsbD j || l.contains j) := by
  induction l generalizing m with
  | nil => simp
  | cons i l ih =>
    rw [List.foldl_cons, ih (fun k hk => hl k (List.mem_cons_of_mem _ hk)), getLsbD_insert m (hl i List.mem_cons_self),
      List.contains_cons, Bool.or_assoc, Bool.beq_comm]

theorem getLsbD_ofRange {a b j : Nat} (hb : b ≤ w) : (ofRange w a b).getLsbD j = true ↔ a ≤ j ∧ j < b := by
  rw [ofRange, getLsbD_foldl_insert]
  · simp only [BitVec.getLsbD_zero, Bool.false_or, List.contains_iff_mem, List.mem_range'_1]
    omega
  · intro i hi
    have := List.mem_range'_1.mp hi
    omega

/-- The number of bits that are set. -/
def card (m : BitVec w) : Nat := ((Finset.range w).filter fun i => m.getLsbD i = true).card

theorem card_le_card {m m' : BitVec w} (h : ∀ i, m.getLsbD i = true → m'.getLsbD i = true) : card m ≤ card m' := by
  apply Finset.card_le_card
  intro i hi
  rw [Finset.mem_filter] at hi ⊢
  exact ⟨hi.1, h i hi.2⟩

theorem card_lt_card {m m' : BitVec w} {i : Nat} (h : ∀ i, m.getLsbD i = true → m'.getLsbD i = true)
    (hnew : m'.getLsbD i = true) (hold : m.getLsbD i = false) : card m < card m' := by
  apply Finset.card_lt_card
  refine ⟨fun j hj => ?_, fun hsub => ?_⟩
  · rw [Finset.mem_filter] at hj ⊢
    exact ⟨hj.1, h j hj.2⟩
  · have hi : i ∈ (Finset.range w).filter fun i => m'.getLsbD i = true := by
      rw [Finset.mem_filter, Finset.mem_range]
      exact ⟨BitVec.lt_of_getLsbD hnew, hnew⟩
    have := (Finset.mem_filter.mp (hsub hi)).2
    rw [hold] at this
    cases this

/-- A set of positions below `n` that lacks one of them has fewer than `n`. -/
theorem card_lt_of_missing {m : BitVec w} {n i : Nat} (h : ∀ j, m.getLsbD j = true → j < n) (hi : i < n)
    (hmissing : m.getLsbD i = false) : card m < n := by
  have hsub : (Finset.range w).filter (fun j => m.getLsbD j = true) ⊆ (Finset.range n).erase i := by
    intro j hj
    have hj := (Finset.mem_filter.mp hj).2
    rw [Finset.mem_erase, Finset.mem_range]
    refine ⟨?_, h j hj⟩
    rintro rfl
    rw [hj] at hmissing
    cases hmissing
  calc card m ≤ ((Finset.range n).erase i).card := Finset.card_le_card hsub
    _ = n - 1 := by rw [Finset.card_erase_of_mem (Finset.mem_range.mpr hi), Finset.card_range]
    _ < n := by omega

end BitSet
