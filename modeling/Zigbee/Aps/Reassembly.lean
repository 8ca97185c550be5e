import Mathlib.Algebra.Order.BigOperators.Group.Finset
import Zigbee.Aps.Fragment

/-!
# A reassembly session

What a session holds of the blocks of one ASDU, in any cut into blocks that a session can take.

* `Fragmented` — the blocks of an ASDU, and the window that they arrive in.
* `Assembly` — the session holds blocks of the ASDU, up to the end of its window.
* `Assembly.asdu_eq` — a complete session holds the ASDU.
* `Assembly.announce`, `Assembly.slide`, `Assembly.store` — the parts of `offer`.
* `Assembly.offer` — **what a session makes of a block of its ASDU**.
-/

namespace Zigbee.Aps

/-- The blocks of an ASDU that a session can take. -/
structure Fragmented where
  total : Nat
  block : Nat → List UInt8
  /-- The receive window, in blocks. -/
  window : Nat
  total_pos : 0 < total
  total_le : total ≤ APS_MAX_FRAGMENT_BLOCKS
  window_pos : 0 < window
  window_le : window ≤ APS_MAX_WINDOW_SIZE
  fits : ∑ b ∈ Finset.range total, (block b).length ≤ APS_MAX_FRAGMENTED_ASDU

namespace Fragmented

def asdu (a : Fragmented) : List UInt8 := (List.range a.total).flatMap a.block

/-- The block count that a block announces. -/
def announced (a : Fragmented) (b : Nat) : Option Nat := if b = 0 then some a.total else none

end Fragmented

theorem sum_length_range (f : Nat → List UInt8) (n : Nat) :
    (∑ b ∈ Finset.range n, (f b).length) = ((List.range n).flatMap f).length := by
  induction n with
  | zero => rfl
  | succ n ih =>
    rw [Finset.sum_range_succ, ih, List.range_succ, List.flatMap_append, List.flatMap_singleton, List.length_append]

theorem clampWindowSize_pos (windowSize : Nat) : 0 < clampWindowSize windowSize := by
  unfold clampWindowSize
  split
  · omega
  · split <;> simp only [APS_MAX_WINDOW_SIZE] at * <;> omega

theorem clampWindowSize_le (windowSize : Nat) : clampWindowSize windowSize ≤ APS_MAX_WINDOW_SIZE := by
  unfold clampWindowSize
  split
  · decide
  · split <;> omega

/-- What a session holds of an ASDU. -/
structure Assembly (a : Fragmented) (e : ReassemblyEntry) : Prop where
  has_lt : ∀ {b}, e.has b = true → b < a.total
  /-- Nothing beyond the window is held, and everything before it is. -/
  has_window : ∀ {b}, e.has b = true → b < e.windowStart + a.window
  has_before : ∀ {b}, b < e.windowStart → e.has b = true
  window_lt : e.windowStart < a.total
  window_dvd : a.window ∣ e.windowStart
  total_eq : e.totalBlocks = 0 ∨ e.totalBlocks = a.total
  total_known : e.has 0 = true → e.totalBlocks = a.total
  /-- Every block that is held is found in the buffer. -/
  stored : ∀ {b}, e.has b = true → (e.data.drop (e.blockOffset b)).take (e.blockLen b) = a.block b
  inside : ∀ {b}, e.has b = true → e.blockOffset b + e.blockLen b ≤ e.data.length
  length_eq : e.data.length = ∑ b ∈ (Finset.range a.total).filter (fun b => e.has b = true), (a.block b).length

variable {a : Fragmented} {e : ReassemblyEntry} {b : Nat}

theorem ReassemblyEntry.hasAll_iff {i j : Nat} : e.hasAll i j = true ↔ ∀ k, i ≤ k → k < j → e.has k = true := by
  unfold hasAll
  rw [List.all_eq_true]
  constructor
  · intro h k hi hj
    exact h k (List.mem_range'_1.mpr ⟨hi, by omega⟩)
  · intro h k hk
    obtain ⟨hi, hj⟩ := List.mem_range'_1.mp hk
    exact h k hi (by omega)

open ReassemblyEntry

theorem ReassemblyEntry.isComplete_iff : e.isComplete = true ↔ e.totalBlocks ≠ 0 ∧ ∀ i, i < e.totalBlocks → e.has i = true := by
  unfold isComplete
  rw [Bool.and_eq_true, bne_iff_ne, hasAll_iff]
  simp

namespace Assembly

/-- A complete session holds the ASDU. -/
theorem asdu_eq (h : Assembly a e) (hcomplete : e.isComplete = true) : e.asdu = a.asdu := by
  obtain ⟨hne, hall⟩ := isComplete_iff.mp hcomplete
  have htotal : e.totalBlocks = a.total := h.total_eq.resolve_left hne
  rw [asdu, Fragmented.asdu, htotal]
  apply List.flatMap_congr
  intro b hb
  exact h.stored (hall b (by rw [htotal]; exact List.mem_range.mp hb))

/-- A session is complete once it holds every block. -/
theorem isComplete_iff (h : Assembly a e) : e.isComplete = true ↔ ∀ b, b < a.total → e.has b = true := by
  rw [ReassemblyEntry.isComplete_iff]
  constructor
  · rintro ⟨hne, hall⟩ b hb
    exact hall b (by rwa [h.total_eq.resolve_left hne])
  · intro hall
    have htotal := h.total_known (hall 0 a.total_pos)
    exact ⟨htotal ▸ Nat.ne_of_gt a.total_pos, fun b hb => hall b (htotal ▸ hb)⟩

/-- A complete session has as many octets as the ASDU. -/
theorem length_data (h : Assembly a e) (hcomplete : e.isComplete = true) : e.data.length = a.asdu.length := by
  rw [h.length_eq, Finset.filter_true_of_mem fun b hb => h.isComplete_iff.mp hcomplete b (Finset.mem_range.mp hb)]
  exact sum_length_range a.block a.total

theorem opened (a : Fragmented) (e : ReassemblyEntry) (nowUs : UInt32) (src : ShortAddress) (ieee : Option IeeeAddress)
    (counter : UInt8) : Assembly a (e.opened nowUs src ieee counter) := by
  have hnone : ∀ b, (e.opened nowUs src ieee counter).has b = false := by
    intro b
    simp [ReassemblyEntry.has, ReassemblyEntry.opened, ReassemblyEntry.reset]
  constructor
  case window_lt => exact a.total_pos
  case window_dvd => exact dvd_zero _
  case total_eq => exact Or.inl rfl
  case has_before => exact fun h => absurd h (Nat.not_lt_zero _)
  case length_eq =>
    rw [Finset.filter_false_of_mem fun b _ => by rw [hnone b]; exact Bool.false_ne_true]
    rfl
  all_goals
    intros
    simp_all

/-- A block count agrees with what is stored. -/
theorem announce (h : Assembly a e) (b : Nat) :
    ∃ e₁, e.announce (a.announced b) = .ok e₁ ∧ Assembly a e₁ ∧ (b = 0 → e₁.totalBlocks = a.total) ∧
      e₁ = { e with totalBlocks := e₁.totalBlocks } ∧ (e.totalBlocks = 0 ∨ e₁ = e) := by
  have hshift : e.received >>> a.total = 0 := by
    apply BitVec.eq_of_getLsbD_eq
    intro i _
    rw [BitVec.getLsbD_ushiftRight]
    by_contra hne
    have hhas : e.has (a.total + i) = true := by
      rw [has]
      simpa using hne
    have := h.has_lt hhas
    omega
  unfold Fragmented.announced
  by_cases h0 : b = 0
  · rw [if_pos h0]
    dsimp only [ReassemblyEntry.announce]
    by_cases hzero : e.totalBlocks = 0
    · rw [if_pos hzero, if_neg (by rw [hshift]; exact fun h => h rfl)]
      exact ⟨_, rfl, { h with total_eq := Or.inr rfl, total_known := fun _ => rfl }, fun _ => rfl, rfl, Or.inl hzero⟩
    · have htotal := h.total_eq.resolve_left hzero
      rw [if_neg hzero, if_neg (by rw [htotal]; exact fun h => h rfl)]
      exact ⟨e, rfl, h, fun _ => htotal, rfl, Or.inr rfl⟩
  · rw [if_neg h0]
    exact ⟨e, rfl, h, fun h => absurd h h0, rfl, Or.inr rfl⟩

/-- The window moves on at most once, over blocks that are held. -/
theorem slide (h : Assembly a e) (hb : b < a.total) (nowUs : UInt32) :
    (e.slide nowUs a.window b = none ∧ e.windowStart + a.window ≤ b ∧
      ((∃ i, e.windowStart ≤ i ∧ i < e.windowStart + a.window ∧ e.has i = false) ∨ e.totalBlocks = 0 ∨
        e.windowStart + 2 * a.window ≤ b)) ∨
    (e.slide nowUs a.window b = some e ∧ b < e.windowStart + a.window) ∨
    ∃ e₁, e.slide nowUs a.window b = some e₁ ∧ Assembly a e₁ ∧ e.windowStart + a.window ≤ b ∧
      e₁.windowStart = e.windowStart + a.window ∧ b < e₁.windowStart + a.window ∧
      e₁ = { e with windowStart := e₁.windowStart, lastProgressUs := e₁.lastProgressUs } := by
  have hwmax := a.window_le
  have hwindow := h.window_lt
  have hmax := a.total_le
  have hmax' : APS_MAX_FRAGMENT_BLOCKS = 16 := rfl
  have hwmax' : APS_MAX_WINDOW_SIZE = 8 := rfl
  have hsat : saturatingAdd8 e.windowStart a.window = e.windowStart + a.window := by
    unfold saturatingAdd8
    omega
  unfold ReassemblyEntry.slide
  by_cases hin : e.windowStart + a.window ≤ b
  · rw [if_pos hin]
    by_cases hcomplete : e.windowComplete a.window = true
    · rw [hcomplete, Bool.not_true, if_neg Bool.false_ne_true, hsat]
      dsimp only
      rw [windowComplete, Bool.and_eq_true, bne_iff_ne, hasAll_iff] at hcomplete
      obtain ⟨hne, hall⟩ := hcomplete
      have htotal := h.total_eq.resolve_left hne
      have hend : e.windowEnd a.window = e.windowStart + a.window := by
        unfold windowEnd
        dsimp only
        rw [if_pos hne, hsat, htotal]
        omega
      rw [hend] at hall
      by_cases hnext : e.windowStart + a.window + a.window ≤ b
      · rw [if_pos hnext]
        exact Or.inl ⟨rfl, hin, Or.inr (Or.inr (by omega))⟩
      · rw [if_neg hnext]
        refine Or.inr (Or.inr ⟨_, rfl, ?_, hin, rfl, by dsimp only; omega, rfl⟩)
        refine { h with has_window := ?_, has_before := ?_, window_lt := ?_, window_dvd := ?_ }
        · intro i hi
          have := h.has_window hi
          dsimp only
          omega
        · intro i hi
          dsimp only at hi
          by_cases hold : i < e.windowStart
          · exact h.has_before hold
          · exact hall i (by omega) hi
        · dsimp only
          omega
        · exact Nat.dvd_add h.window_dvd (Nat.dvd_refl _)
    · rw [Bool.not_eq_true] at hcomplete
      rw [hcomplete, Bool.not_false, if_pos rfl]
      refine Or.inl ⟨rfl, hin, ?_⟩
      by_cases hne : e.totalBlocks = 0
      · exact Or.inr (Or.inl hne)
      · refine Or.inl ?_
        by_contra hall
        push Not at hall
        have htotal := h.total_eq.resolve_left hne
        have : e.windowComplete a.window = true := by
          rw [windowComplete, Bool.and_eq_true, bne_iff_ne, hasAll_iff]
          refine ⟨hne, fun i hlo hhi => ?_⟩
          have hlt : i < e.windowStart + a.window := by
            unfold windowEnd at hhi
            dsimp only at hhi
            rw [if_pos hne, hsat] at hhi
            omega
          simpa using hall i hlo hlt
        rw [hcomplete] at this
        cases this
  · rw [if_neg hin]
    exact Or.inr (Or.inl ⟨rfl, by omega⟩)

/-- A block of the window finds room, and the session holds it then. -/
theorem store (h : Assembly a e) (hb : b < a.total) (hwindow : b < e.windowStart + a.window)
    (hzero : b = 0 → e.totalBlocks = a.total) (nowUs : UInt32) :
    ∃ e₁ stored, e.store nowUs b (a.block b) = .ok (e₁, stored) ∧ Assembly a e₁ ∧
      (∀ i, e₁.has i = (e.has i || b == i)) ∧ e₁.active = e.active ∧ e₁.delivered = e.delivered ∧
      e₁.srcAddr = e.srcAddr ∧ e₁.srcIeee = e.srcIeee ∧ e₁.apsCounter = e.apsCounter ∧
      e₁.windowStart = e.windowStart ∧ e₁.totalBlocks = e.totalBlocks := by
  unfold ReassemblyEntry.store
  cases hhas : e.has b with
  | true =>
    refine ⟨e, false, if_pos rfl, h, fun i => ?_, rfl, rfl, rfl, rfl, rfl, rfl, rfl⟩
    by_cases hi : b = i
    · subst hi
      rw [hhas]
      rfl
    · simp [hi]
  | false =>
    -- The block is not among those whose lengths make up the buffer.
    have hnew : ∀ i, BitVec.getLsbD (BitSet.insert e.received b) i = (e.has i || b == i) := by
      intro i
      exact BitSet.getLsbD_insert _ (Nat.lt_of_lt_of_le hb a.total_le) i
    have hfilter : (Finset.range a.total).filter (fun i => (BitSet.insert e.received b).getLsbD i = true) =
        insert b ((Finset.range a.total).filter fun i => e.has i = true) := by
      ext i
      rw [Finset.mem_filter, Finset.mem_insert, Finset.mem_filter, hnew, Bool.or_eq_true, beq_iff_eq, Finset.mem_range]
      constructor
      · rintro ⟨hi, hhas | rfl⟩
        · exact Or.inr ⟨hi, hhas⟩
        · exact Or.inl rfl
      · rintro (rfl | ⟨hi, hhas⟩)
        · exact ⟨hb, Or.inr rfl⟩
        · exact ⟨hi, Or.inl hhas⟩
    have hsum : e.data.length + (a.block b).length =
        ∑ i ∈ (Finset.range a.total).filter (fun i => (BitSet.insert e.received b).getLsbD i = true), (a.block i).length := by
      rw [hfilter, Finset.sum_insert (by simp [hhas]), h.length_eq, Nat.add_comm]
    have hroom : e.data.length + (a.block b).length ≤ ∑ b ∈ Finset.range a.total, (a.block b).length := by
      rw [hsum]
      exact Finset.sum_le_sum_of_subset (Finset.filter_subset _ _)
    have hfits := a.fits
    rw [if_neg Bool.false_ne_true, if_neg (by omega)]
    refine ⟨_, _, rfl, ?_, hnew, rfl, rfl, rfl, rfl, rfl, rfl, rfl⟩
    have hold : ∀ {i}, (BitSet.insert e.received b).getLsbD i = true → i = b ∨ i ≠ b ∧ e.has i = true := by
      intro i hi
      rw [hnew, Bool.or_eq_true, beq_iff_eq] at hi
      by_cases hib : i = b
      · exact Or.inl hib
      · exact Or.inr ⟨hib, hi.resolve_right fun h => hib h.symm⟩
    constructor
    case has_lt =>
      intro i hi
      rcases hold hi with rfl | ⟨-, hi⟩
      · exact hb
      · exact h.has_lt hi
    case has_window =>
      intro i hi
      rcases hold hi with rfl | ⟨-, hi⟩
      · exact hwindow
      · exact h.has_window hi
    case has_before =>
      intro i hi
      have := h.has_before hi
      simp only [has, hnew, Bool.or_eq_true]
      exact Or.inl this
    case window_lt => exact h.window_lt
    case window_dvd => exact h.window_dvd
    case total_eq => exact h.total_eq
    case total_known =>
      intro h0
      rcases hold h0 with h0 | ⟨-, h0⟩
      · exact hzero h0.symm
      · exact h.total_known h0
    case stored =>
      intro i hi
      dsimp only
      rcases hold hi with rfl | ⟨hib, hi⟩
      · rw [Function.update_self, Function.update_self, List.drop_left, List.take_length]
      · have hinside := h.inside hi
        rw [Function.update_of_ne hib, Function.update_of_ne hib, List.drop_append_of_le_length (by omega),
          List.take_append_of_le_length (by rw [List.length_drop]; omega)]
        exact h.stored hi
    case inside =>
      intro i hi
      dsimp only
      rw [List.length_append]
      rcases hold hi with rfl | ⟨hib, hi⟩
      · rw [Function.update_self, Function.update_self]
      · rw [Function.update_of_ne hib, Function.update_of_ne hib]
        have := h.inside hi
        omega
    case length_eq =>
      dsimp only
      rw [List.length_append]
      exact hsum

end Assembly

/-! ## A block for a session -/

/-- The answer to a block that was taken. -/
def ReassemblyEntry.answer (e : ReassemblyEntry) (fragmentation : UInt8) (windowSize b : Nat) (stored : Bool) :
    FragmentOutcome :=
  if e.isComplete then .complete (e.ack fragmentation windowSize)
  else .pending (if e.hasAll (b + 1) (e.windowEnd windowSize) then some (e.ack fragmentation windowSize) else none) stored

/-- The session `e` has become `e'`, which is the same originator's. -/
structure ReassemblyEntry.Becomes (e e' : ReassemblyEntry) (ieee : Option IeeeAddress) : Prop where
  active : e'.active = e.active
  delivered : e'.delivered = e.delivered
  addr : e'.srcAddr = e.srcAddr
  counter : e'.apsCounter = e.apsCounter
  /-- An address that was not known is learned. -/
  ieee : e'.srcIeee = e.srcIeee.or ieee

namespace Fragmented

/-- The block is before the receiver's window, or after it while the window is not complete. -/
def Outside (a : Fragmented) (e : ReassemblyEntry) (b : Nat) : Prop :=
  b < e.windowStart ∨ (e.windowStart + a.window ≤ b ∧
    ((∃ i, e.windowStart ≤ i ∧ i < e.windowStart + a.window ∧ e.has i = false) ∨ e.totalBlocks = 0 ∨
      e.windowStart + 2 * a.window ≤ b))

/-- The session takes a block of its window, or of the next one once its own is complete. -/
structure Takes (a : Fragmented) (e e' : ReassemblyEntry) (b : Nat) : Prop where
  has_iff : ∀ i, e'.has i = (e.has i || b == i)
  start : (e'.windowStart = e.windowStart ∧ e.windowStart ≤ b) ∨
    (e'.windowStart = e.windowStart + a.window ∧ e'.windowStart ≤ b)
  lt : b < e'.windowStart + a.window

end Fragmented

/-- **What a session makes of a block of its ASDU.** -/
theorem Assembly.offer (h : Assembly a e) (hfresh : e.delivered = false) (hb : b < a.total) (nowUs : UInt32)
    (ieee : Option IeeeAddress) (fragmentation : UInt8) :
    ∃ e' outcome, e.offer nowUs a.window ieee fragmentation b (a.announced b) (a.block b) = (e', outcome) ∧
      Assembly a e' ∧ e.Becomes e' ieee ∧
      ((a.Outside e b ∧ e'.received = e.received ∧ e'.windowStart = e.windowStart ∧ outcome = .pending none false) ∨
        (a.Takes e e' b ∧ ∃ stored, outcome = e'.answer fragmentation a.window b stored)) := by
  have hlearn : ∃ e₀, (if e.srcIeee.isNone then { e with srcIeee := ieee } else e) = e₀ ∧
      e₀ = { e with srcIeee := e₀.srcIeee } ∧ e₀.srcIeee = e.srcIeee.or ieee := by
    cases hieee : e.srcIeee with
    | none => exact ⟨_, rfl, rfl, rfl⟩
    | some known => exact ⟨e, rfl, rfl, hieee⟩
  obtain ⟨e₀, hlearn, he₀, hieee₀⟩ := hlearn
  have h₀ : Assembly a e₀ := by
    rw [he₀]
    exact { h with }
  obtain ⟨e₁, hannounce, h₁, hknown, he₁, hsame⟩ := h₀.announce b
  have hbecomes : e.Becomes e₁ ieee := by
    rw [he₁, he₀]
    exact ⟨rfl, rfl, rfl, rfl, hieee₀⟩
  have hreceived : e₁.received = e.received := by rw [he₁, he₀]
  have hstart : e₁.windowStart = e.windowStart := by rw [he₁, he₀]
  have htotal : e₁.totalBlocks = 0 → e.totalBlocks = 0 := by
    intro hzero
    rw [he₀] at hsame
    rcases hsame with hsame | hsame
    · exact hsame
    · rw [hsame] at hzero
      exact hzero
  have hhas : ∀ i, e₁.has i = e.has i := fun i => by rw [has, hreceived]; rfl
  unfold ReassemblyEntry.offer
  rw [if_neg (by rw [hfresh]; exact Bool.false_ne_true)]
  dsimp only
  rw [hlearn, hannounce]
  dsimp only
  have hnot : ¬ (e₁.totalBlocks ≠ 0 ∧ e₁.totalBlocks ≤ b) := by
    rintro ⟨hne, hle⟩
    rw [h₁.total_eq.resolve_left hne] at hle
    omega
  rw [if_neg hnot]
  by_cases hbefore : b < e₁.windowStart
  · rw [if_pos hbefore]
    exact ⟨e₁, _, rfl, h₁, hbecomes, Or.inl ⟨Or.inl (by omega), hreceived, hstart, rfl⟩⟩
  · rw [if_neg hbefore]
    rcases h₁.slide hb nowUs with ⟨hslide, hafter, hwhy⟩ | ⟨hslide, hin⟩ | ⟨e₂, hslide, h₂, hafter, hstart₂, hlt₂, he₂⟩
    · rw [hslide]
      refine ⟨e₁, _, rfl, h₁, hbecomes, Or.inl ⟨Or.inr ⟨by omega, ?_⟩, hreceived, hstart, rfl⟩⟩
      rcases hwhy with ⟨i, hlo, hhi, hi⟩ | hzero | hfar
      · exact Or.inl ⟨i, by omega, by omega, by rw [← hhas, hi]⟩
      · exact Or.inr (Or.inl (htotal hzero))
      · exact Or.inr (Or.inr (by omega))
    · rw [hslide]
      dsimp only
      obtain ⟨e₃, stored, hstore, h₃, hhas₃, hactive, hdelivered, haddr, hieee₃, hcounter, hstart₃, htotal₃⟩ :=
        h₁.store hb hin hknown nowUs
      rw [hstore]
      dsimp only
      refine ⟨e₃, e₃.answer fragmentation a.window b stored, ?_, h₃, ⟨hactive.trans hbecomes.active,
        hdelivered.trans hbecomes.delivered, haddr.trans hbecomes.addr, hcounter.trans hbecomes.counter,
        hieee₃.trans hbecomes.ieee⟩, Or.inr ⟨⟨fun i => ?_, Or.inl ⟨by omega, by omega⟩, by omega⟩, stored, rfl⟩⟩
      · unfold answer
        split <;> rfl
      · rw [hhas₃, hhas]
    · rw [hslide]
      dsimp only
      have hbecomes₂ : e.Becomes e₂ ieee := by
        rw [he₂]
        exact { hbecomes with }
      have hhas₂ : ∀ i, e₂.has i = e₁.has i := fun i => by rw [he₂]; rfl
      have hknown₂ : b = 0 → e₂.totalBlocks = a.total := fun h0 => by
        rw [he₂]
        exact hknown h0
      obtain ⟨e₃, stored, hstore, h₃, hhas₃, hactive, hdelivered, haddr, hieee₃, hcounter, hstart₃, htotal₃⟩ :=
        h₂.store hb hlt₂ hknown₂ nowUs
      rw [hstore]
      dsimp only
      refine ⟨e₃, e₃.answer fragmentation a.window b stored, ?_, h₃, ⟨hactive.trans hbecomes₂.active,
        hdelivered.trans hbecomes₂.delivered, haddr.trans hbecomes₂.addr, hcounter.trans hbecomes₂.counter,
        hieee₃.trans hbecomes₂.ieee⟩, Or.inr ⟨⟨fun i => ?_, Or.inr ⟨by omega, by omega⟩, by omega⟩, stored, rfl⟩⟩
      · unfold answer
        split <;> rfl
      · rw [hhas₃, hhas₂, hhas]

end Zigbee.Aps
