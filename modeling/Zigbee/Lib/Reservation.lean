import Mathlib

/-!
# Ranges handed out above a mark

A reservation is a half-open range `[lo, hi)` of a linear order.  A history of reservations that were
each taken at or above a mark, and moved the mark to their end, never overlaps.

* `Ledger lo hi l mark` — the history `l` under its mark.
* `Ledger.snoc`, `Ledger.mono` — one more reservation, and a mark that was raised for another reason.
* `Ledger.disjoint` — the ranges are pairwise disjoint.
-/

namespace Reservation

variable {ρ α : Type} [LinearOrder α] {lo hi : ρ → α} {l : List ρ} {r : ρ} {mark mark' : α}

/-- The ranges of `l` are not empty, follow each other, and end at or below the mark. -/
structure Ledger (lo hi : ρ → α) (l : List ρ) (mark : α) : Prop where
  nonempty : ∀ r ∈ l, lo r < hi r
  increasing : l.Pairwise fun a b => hi a ≤ lo b
  below : ∀ r ∈ l, hi r ≤ mark

theorem Ledger.nil (lo hi : ρ → α) (mark : α) : Ledger lo hi [] mark :=
  ⟨by simp, List.Pairwise.nil, by simp⟩

/-- The mark may be raised. -/
theorem Ledger.mono (h : Ledger lo hi l mark) (hle : mark ≤ mark') : Ledger lo hi l mark' :=
  ⟨h.nonempty, h.increasing, fun r hr => (h.below r hr).trans hle⟩

/-- **A reservation at or above the mark.** -/
theorem Ledger.snoc (h : Ledger lo hi l mark) (hmark : mark ≤ lo r) (hr : lo r < hi r) :
    Ledger lo hi (l ++ [r]) (hi r) where
  nonempty := by
    intro x hx
    rcases List.mem_append.mp hx with hx | hx
    · exact h.nonempty x hx
    · rw [List.mem_singleton.mp hx]
      exact hr
  increasing := by
    rw [List.pairwise_append]
    refine ⟨h.increasing, List.pairwise_singleton _ _, fun a ha b hb => ?_⟩
    rw [List.mem_singleton.mp hb]
    exact (h.below a ha).trans hmark
  below := by
    intro x hx
    rcases List.mem_append.mp hx with hx | hx
    · exact (h.below x hx).trans (hmark.trans hr.le)
    · rw [List.mem_singleton.mp hx]

/-- No value is in two of the ranges. -/
theorem Ledger.disjoint (h : Ledger lo hi l mark) :
    l.Pairwise fun a b => Disjoint (Set.Ico (lo a) (hi a)) (Set.Ico (lo b) (hi b)) :=
  h.increasing.imp fun hab => by
    rw [Set.disjoint_left]
    rintro x ⟨-, hxa⟩ ⟨hxb, -⟩
    exact absurd (hxa.trans_le (hab.trans hxb)) (lt_irrefl x)

end Reservation
