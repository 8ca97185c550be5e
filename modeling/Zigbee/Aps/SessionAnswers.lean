import Zigbee.Aps.Reassembly

/-!
# The answers of a reassembly session

What a session can do with a block, whatever the block is.

* `prepare` — what becomes of a session before it looks for a block among those it has.
* `offer_unprepared`, `offer_prepared` — `offer`, in its two parts.
* `offer_cases` — **the answers to a block**: it is refused, or known, or stored.
* `Prepared` — what is known of a session that has been prepared for a block.
-/

namespace Zigbee.Aps

variable {e₁ : ReassemblyEntry}

namespace ReassemblyEntry

/-- What becomes of a session before it looks for a block among those it has; `none` if it does not get
    that far. -/
def prepare (e : ReassemblyEntry) (nowUs : UInt32) (windowSize : Nat) (srcIeee : Option IeeeAddress) (block : Nat)
    (total : Option Nat) : Option ReassemblyEntry :=
  match (if e.srcIeee.isNone then { e with srcIeee := srcIeee } else e).announce total with
  | .error _ => none
  | .ok e =>
    if e.totalBlocks ≠ 0 ∧ e.totalBlocks ≤ block then none
    else if block < e.windowStart then none
    else e.slide nowUs windowSize block

/-- A block is stored behind the others. -/
def stored (e : ReassemblyEntry) (nowUs : UInt32) (block : Nat) (payload : List UInt8) : ReassemblyEntry :=
  { e with
    data := e.data ++ payload
    blockOffset := Function.update e.blockOffset block e.data.length
    blockLen := Function.update e.blockLen block payload.length
    received := BitSet.insert e.received block
    lastProgressUs := nowUs }

variable {e e' : ReassemblyEntry} {nowUs : UInt32} {windowSize : Nat} {ieee : Option IeeeAddress} {fragmentation : UInt8}
  {b : Nat} {total : Option Nat} {payload : List UInt8}

/-- A session that does not get as far as storing keeps its blocks, or is given up. -/
structure Unchanged (e e' : ReassemblyEntry) : Prop where
  active : e'.active = e.active
  delivered : e'.delivered = e.delivered
  received : e'.received = e.received
  totalBlocks : e'.totalBlocks = e.totalBlocks ∨ e.totalBlocks = 0

/-- A block is not stored: the session keeps its blocks, or it is given up. -/
def Refuses (e e' : ReassemblyEntry) (outcome : FragmentOutcome) : Prop :=
  (e.Unchanged e' ∧ (outcome = .rejected ∨ outcome = .pending none false)) ∨
    (e'.active = false ∧ e'.received = 0 ∧ outcome = .rejected)

theorem announce_ok (h : e.announce total = .ok e₁) :
    e₁ = { e with totalBlocks := e₁.totalBlocks } ∧ (e₁.totalBlocks = e.totalBlocks ∨ e.totalBlocks = 0) ∧
      ∀ n, total = some n → e₁.totalBlocks = n := by
  revert h
  cases total with
  | none =>
    intro h
    cases h
    exact ⟨rfl, Or.inl rfl, nofun⟩
  | some total =>
    dsimp only [announce]
    split
    · rename_i hzero
      split <;> intro h <;> cases h
      exact ⟨rfl, Or.inr hzero, fun n hn => Option.some.inj hn⟩
    · split <;> intro h <;> cases h
      rename_i hsame
      exact ⟨rfl, Or.inl rfl, fun n hn => (not_not.mp hsame).trans (Option.some.inj hn)⟩

theorem announce_error (h : e.announce total = .error e₁) : e₁ = e.reset ∨ e₁ = e := by
  revert h
  cases total with
  | none => exact nofun
  | some total =>
    dsimp only [announce]
    split
    · split <;> intro h <;> cases h
      exact Or.inl rfl
    · split <;> intro h <;> cases h
      exact Or.inr rfl

theorem slide_some (h : e.slide nowUs windowSize b = some e₁) :
    e₁ = { e with windowStart := e₁.windowStart, lastProgressUs := e₁.lastProgressUs } ∧ b < e₁.windowStart + windowSize ∧
      (e.windowStart ≤ b → e₁.windowStart ≤ b) := by
  revert h
  unfold slide
  split
  · split
    · exact nofun
    · dsimp only
      split <;> intro h <;> cases h
      refine ⟨rfl, by dsimp only; omega, fun _ => ?_⟩
      dsimp only [saturatingAdd8]
      omega
  · intro h
    cases h
    exact ⟨rfl, by omega, id⟩

theorem store_eq (e : ReassemblyEntry) (nowUs : UInt32) (b : Nat) (payload : List UInt8) :
    e.store nowUs b payload =
      if e.has b then .ok (e, false)
      else if APS_MAX_FRAGMENTED_ASDU < e.data.length + payload.length then .error e.reset
      else .ok (e.stored nowUs b payload, true) :=
  rfl

/-- A block that is not looked for is not stored. -/
theorem offer_unprepared (hdelivered : e.delivered = false) (h : e.prepare nowUs windowSize ieee b total = none) :
    ∃ e' outcome, e.offer nowUs windowSize ieee fragmentation b total payload = (e', outcome) ∧ e.Refuses e' outcome := by
  have hnot : ¬ e.delivered = true := by
    rw [hdelivered]
    exact Bool.false_ne_true
  revert h
  unfold offer prepare
  rw [if_neg hnot]
  dsimp only
  have hlearn : e.Unchanged (if e.srcIeee.isNone then { e with srcIeee := ieee } else e) := by
    split <;> exact ⟨rfl, rfl, rfl, Or.inl rfl⟩
  generalize (if e.srcIeee.isNone then { e with srcIeee := ieee } else e) = e₀ at hlearn
  cases hannounce : e₀.announce total with
  | error e₁ =>
    refine fun _ => ⟨e₁, _, rfl, ?_⟩
    rcases announce_error hannounce with rfl | rfl
    · exact Or.inr ⟨rfl, rfl, rfl⟩
    · exact Or.inl ⟨hlearn, Or.inl rfl⟩
  | ok e₁ =>
    obtain ⟨he₁, htotal, -⟩ := announce_ok hannounce
    have h₁ : e.Unchanged e₁ := by
      rw [he₁]
      refine ⟨hlearn.active, hlearn.delivered, hlearn.received, ?_⟩
      rcases htotal with htotal | htotal
      · rw [htotal]
        exact hlearn.totalBlocks
      · rcases hlearn.totalBlocks with hsame | hzero
        · exact Or.inr (hsame ▸ htotal)
        · exact Or.inr hzero
    dsimp only
    split
    · exact fun _ => ⟨e₁, _, rfl, Or.inl ⟨h₁, Or.inl rfl⟩⟩
    · split
      · exact fun _ => ⟨e₁, _, rfl, Or.inl ⟨h₁, Or.inr rfl⟩⟩
      · intro h
        rw [h]
        exact ⟨e₁, _, rfl, Or.inl ⟨h₁, Or.inr rfl⟩⟩

theorem offer_prepared (hdelivered : e.delivered = false) (h : e.prepare nowUs windowSize ieee b total = some e₁) :
    e.offer nowUs windowSize ieee fragmentation b total payload =
      match e₁.store nowUs b payload with
      | .error e => (e, .rejected)
      | .ok (e, stored) => (e, e.answer fragmentation windowSize b stored) := by
  have hnot : ¬ e.delivered = true := by
    rw [hdelivered]
    exact Bool.false_ne_true
  revert h
  unfold offer prepare
  rw [if_neg hnot]
  dsimp only
  cases (if e.srcIeee.isNone then { e with srcIeee := ieee } else e).announce total with
  | error e₂ => exact nofun
  | ok e₂ =>
    dsimp only
    split
    · exact nofun
    · split
      · exact nofun
      · intro h
        rw [h]
        dsimp only
        cases e₁.store nowUs b payload with
        | error e₃ => rfl
        | ok stored =>
          dsimp only
          unfold answer
          split <;> rfl

theorem offer_stored (hdelivered : e.delivered = false) (h : e.prepare nowUs windowSize ieee b total = some e₁) (hhas : e₁.has b = false)
    (hroom : e₁.data.length + payload.length ≤ APS_MAX_FRAGMENTED_ASDU) :
    e.offer nowUs windowSize ieee fragmentation b total payload =
      (e₁.stored nowUs b payload, (e₁.stored nowUs b payload).answer fragmentation windowSize b true) := by
  rw [offer_prepared hdelivered h, store_eq, hhas, if_neg Bool.false_ne_true, if_neg (Nat.not_lt.mpr hroom)]

/-- **The answers to a block.** -/
theorem offer_cases (e : ReassemblyEntry) (nowUs : UInt32) (windowSize : Nat) (ieee : Option IeeeAddress)
    (fragmentation : UInt8) (b : Nat) (total : Option Nat) (payload : List UInt8) :
    (∃ e' outcome, e.offer nowUs windowSize ieee fragmentation b total payload = (e', outcome) ∧ e.Refuses e' outcome) ∨
    (∃ e', e.delivered = false ∧ e.prepare nowUs windowSize ieee b total = some e' ∧ e'.has b = true ∧
      e.offer nowUs windowSize ieee fragmentation b total payload = (e', e'.answer fragmentation windowSize b false)) ∨
    (∃ e₁, e.delivered = false ∧ e.prepare nowUs windowSize ieee b total = some e₁ ∧ e₁.has b = false ∧
      e₁.data.length + payload.length ≤ APS_MAX_FRAGMENTED_ASDU ∧
      e.offer nowUs windowSize ieee fragmentation b total payload =
        (e₁.stored nowUs b payload, (e₁.stored nowUs b payload).answer fragmentation windowSize b true)) := by
  cases hdelivered : e.delivered with
  | true =>
    refine Or.inl ⟨e, .pending none false, ?_, Or.inl ⟨⟨rfl, rfl, rfl, Or.inl rfl⟩, Or.inr rfl⟩⟩
    unfold offer
    rw [if_pos hdelivered]
  | false =>
    cases hprepare : e.prepare nowUs windowSize ieee b total with
    | none => exact Or.inl (offer_unprepared hdelivered hprepare)
    | some e₁ =>
      have hoffer : e.offer nowUs windowSize ieee fragmentation b total payload = _ := offer_prepared hdelivered hprepare
      rw [store_eq] at hoffer
      cases hhas : e₁.has b with
      | true =>
        rw [hhas, if_pos rfl] at hoffer
        exact Or.inr (Or.inl ⟨e₁, rfl, rfl, hhas, hoffer⟩)
      | false =>
        rw [hhas, if_neg Bool.false_ne_true] at hoffer
        by_cases hroom : APS_MAX_FRAGMENTED_ASDU < e₁.data.length + payload.length
        · rw [if_pos hroom] at hoffer
          exact Or.inl ⟨e₁.reset, _, hoffer, Or.inr ⟨rfl, rfl, rfl⟩⟩
        · rw [if_neg hroom] at hoffer
          exact Or.inr (Or.inr ⟨e₁, rfl, rfl, hhas, Nat.le_of_not_lt hroom, hoffer⟩)

/-- What is known of a session that gets as far as looking for the block. -/
structure Prepared (e e₁ : ReassemblyEntry) (windowSize : Nat) (ieee : Option IeeeAddress) (b : Nat) (total : Option Nat) :
    Prop where
  eq : e₁ = { e with
    srcIeee := e.srcIeee.or ieee
    totalBlocks := e₁.totalBlocks
    windowStart := e₁.windowStart
    lastProgressUs := e₁.lastProgressUs }
  totalBlocks : e₁.totalBlocks = e.totalBlocks ∨ e.totalBlocks = 0
  announced : ∀ n, total = some n → e₁.totalBlocks = n
  inside : ¬ (e₁.totalBlocks ≠ 0 ∧ e₁.totalBlocks ≤ b)
  start_le : e₁.windowStart ≤ b
  lt_end : b < e₁.windowStart + windowSize

theorem prepared (h : e.prepare nowUs windowSize ieee b total = some e₁) : e.Prepared e₁ windowSize ieee b total := by
  revert h
  unfold prepare
  have hlearn : (if e.srcIeee.isNone then { e with srcIeee := ieee } else e) = { e with srcIeee := e.srcIeee.or ieee } := by
    obtain ⟨active, delivered, srcAddr, srcIeee, apsCounter, totalBlocks, received, windowStart, blockOffset, blockLen, data,
      lastProgressUs⟩ := e
    cases srcIeee <;> rfl
  rw [hlearn]
  cases hannounce : ({ e with srcIeee := e.srcIeee.or ieee } : ReassemblyEntry).announce total with
  | error e₂ => exact nofun
  | ok e₂ =>
    obtain ⟨he₂, htotal, hannounced⟩ := announce_ok hannounce
    dsimp only
    split
    · exact nofun
    · split
      · exact nofun
      · rename_i hinside hbefore
        intro hslide
        obtain ⟨he₁, hlt, hle⟩ := slide_some hslide
        have hsame : e₁.totalBlocks = e₂.totalBlocks := by rw [he₁]
        refine ⟨?_, hsame ▸ htotal, fun n hn => hsame.trans (hannounced n hn), by rwa [hsame], hle (Nat.le_of_not_lt hbefore), hlt⟩
        rw [he₁, he₂]

theorem opened_learn (e : ReassemblyEntry) (openedUs : UInt32) (srcAddr : ShortAddress) (apsCounter : UInt8) :
    (if (e.opened openedUs srcAddr ieee apsCounter).srcIeee.isNone then
      { e.opened openedUs srcAddr ieee apsCounter with srcIeee := ieee } else e.opened openedUs srcAddr ieee apsCounter) =
      e.opened openedUs srcAddr ieee apsCounter := by
  cases ieee <;> rfl

/-- A new session looks for its block, unless that lies beyond the window. -/
theorem prepare_opened (ieee : Option IeeeAddress) (hkind : (b = 0 ∧ ∃ n, total = some n ∧ n ≠ 0) ∨ (b ≠ 0 ∧ total = none)) (hpos : 0 < windowSize)
    (e : ReassemblyEntry) (openedUs nowUs : UInt32) (srcAddr : ShortAddress) (apsCounter : UInt8) :
    (e.opened openedUs srcAddr ieee apsCounter).prepare nowUs windowSize ieee b total =
      if total = none ∧ windowSize ≤ b then none
      else some { e.opened openedUs srcAddr ieee apsCounter with totalBlocks := total.getD 0 } := by
  have hzero : (e.opened openedUs srcAddr ieee apsCounter).totalBlocks = 0 := rfl
  have hstart : (e.opened openedUs srcAddr ieee apsCounter).windowStart = 0 := rfl
  have hreceived : (e.opened openedUs srcAddr ieee apsCounter).received = 0 := rfl
  unfold prepare
  rw [opened_learn]
  rcases hkind with ⟨rfl, n, rfl, hn⟩ | ⟨hb, rfl⟩
  · dsimp only [announce]
    rw [if_pos hzero, hreceived, if_neg (by simp), if_neg fun hcond => nomatch hcond.1]
    dsimp only
    rw [if_neg fun hle => hn (Nat.le_zero.mp hle.2), if_neg (by rw [hstart]; exact Nat.not_lt_zero _)]
    unfold slide
    dsimp only
    rw [if_neg (by rw [hstart]; omega)]
    rfl
  · dsimp only [announce]
    rw [if_neg fun hle => hle.1 hzero, if_neg (by rw [hstart]; exact Nat.not_lt_zero _)]
    by_cases hafter : windowSize ≤ b
    · rw [if_pos (show none = none ∧ windowSize ≤ b from ⟨rfl, hafter⟩)]
      unfold slide
      rw [hstart, Nat.zero_add, if_pos hafter]
      rfl
    · rw [if_neg (show ¬ (none = none ∧ windowSize ≤ b) from fun hcond => hafter hcond.2)]
      unfold slide
      rw [if_neg (by rw [hstart]; omega)]
      rfl

/-- A block beyond the window opens a session, and is not stored. -/
theorem offer_opened_after (hafter : windowSize ≤ b) (e : ReassemblyEntry) (openedUs nowUs : UInt32)
    (srcAddr : ShortAddress) (apsCounter : UInt8) :
    (e.opened openedUs srcAddr ieee apsCounter).offer nowUs windowSize ieee fragmentation b none payload =
      (e.opened openedUs srcAddr ieee apsCounter, .pending none false) := by
  have hzero : (e.opened openedUs srcAddr ieee apsCounter).totalBlocks = 0 := rfl
  have hstart : (e.opened openedUs srcAddr ieee apsCounter).windowStart = 0 := rfl
  unfold offer
  rw [if_neg (show ¬ (e.opened openedUs srcAddr ieee apsCounter).delivered = true from Bool.false_ne_true)]
  dsimp only
  rw [opened_learn]
  dsimp only [announce]
  rw [if_neg fun hle => hle.1 hzero, if_neg (by rw [hstart]; exact Nat.not_lt_zero _)]
  have hslide : (e.opened openedUs srcAddr ieee apsCounter).slide nowUs windowSize b = none := by
    unfold slide
    rw [hstart, Nat.zero_add, if_pos hafter]
    rfl
  rw [hslide]

end ReassemblyEntry

end Zigbee.Aps
