import Zigbee.Lib.Run
import Zigbee.Aps.Layer
import Zigbee.Aps.SessionAnswers

/-!
# Concurrent fragmented transactions

Several originators send the blocks of their ASDUs to one table of sessions, interleaved in any way.
Within a window blocks are repeated and come in any order; a block of a later window comes once the
windows before it have arrived.

* `Transfer` — the fragmented transaction of one originator.
* `expect` — what the calls are to answer, by what has arrived of each ASDU.
* `Tracks` — every ASDU has a session of its own, which holds what has arrived of it.
* `Tracks.block`, `Tracks.take` — the calls for one ASDU.
* `EveryHeld` — every session in use holds a block.
* `order_independent_iff` — **when a run reassembles every ASDU and leaves no session empty**.
-/

namespace Zigbee.Aps

open ReassemblyEntry

/-! ## Calls -/

inductive ReassemblyOp where
  | insertBlock (nowUs : UInt32) (windowSize : Nat) (srcAddr : ShortAddress) (srcIeee : Option IeeeAddress)
      (apsCounter : UInt8) (fragmentation : UInt8) (blockField : Nat) (payload : List UInt8)
  | takeReassembled (srcAddr : ShortAddress) (srcIeee : Option IeeeAddress) (apsCounter : UInt8) (capacity : Nat)
  | finalizeDelivered
  | rollbackBlock (srcAddr : ShortAddress) (apsCounter : UInt8) (block : Nat)

inductive ReassemblyReply where
  | outcome (outcome : FragmentOutcome)
  | asdu (reassembled : Option (List UInt8))
  | done
  deriving DecidableEq

def FragmentReassembly.call (t : FragmentReassembly) : ReassemblyOp → FragmentReassembly × ReassemblyReply
  | .insertBlock nowUs windowSize srcAddr srcIeee apsCounter fragmentation blockField payload =>
    match t.insertBlock nowUs windowSize srcAddr srcIeee apsCounter fragmentation blockField payload with
    | (t, outcome) => (t, .outcome outcome)
  | .takeReassembled srcAddr srcIeee apsCounter capacity =>
    match t.takeReassembled srcAddr srcIeee apsCounter capacity with
    | some (t, _, asdu) => (t, .asdu (some asdu))
    | none => (t, .asdu none)
  | .finalizeDelivered => (t.finalizeDelivered, .done)
  | .rollbackBlock srcAddr apsCounter block => (ApsLayer.rollbackBlock t srcAddr apsCounter block, .done)

/-- The table after a call. -/
def FragmentReassembly.after (t : FragmentReassembly) (op : ReassemblyOp) : FragmentReassembly := (t.call op).1

/-- The session that a block is for: the originator's, or else a new one in a free slot. -/
def FragmentReassembly.sessionFor (t : FragmentReassembly) (nowUs : UInt32) (srcAddr : ShortAddress)
    (srcIeee : Option IeeeAddress) (apsCounter : UInt8) : Option (Nat × ReassemblyEntry) :=
  match t.findIdx? (·.matchesSession srcAddr srcIeee apsCounter) with
  | some idx => (t[idx]?).map fun e => (idx, e)
  | none =>
    match t.findIdx? fun e : ReassemblyEntry => !e.active with
    | some idx => (t[idx]?).map fun e : ReassemblyEntry => (idx, e.opened nowUs srcAddr srcIeee apsCounter)
    | none => none

theorem FragmentReassembly.insertBlockInner_eq (t : FragmentReassembly) (nowUs : UInt32) (windowSize : Nat)
    (srcAddr : ShortAddress) (srcIeee : Option IeeeAddress) (apsCounter : UInt8) {fragmentation : UInt8} {blockField b : Nat}
    {total : Option Nat} {payload : List UInt8} (hblock : blockOf fragmentation blockField payload = some (b, total)) :
    t.insertBlockInner nowUs windowSize srcAddr srcIeee apsCounter fragmentation blockField payload =
      match t.sessionFor nowUs srcAddr srcIeee apsCounter with
      | none => (t, .rejected)
      | some (i, e) =>
        ((t.set i (e.offer nowUs (clampWindowSize windowSize) srcIeee fragmentation b total payload).1),
          (e.offer nowUs (clampWindowSize windowSize) srcIeee fragmentation b total payload).2) := by
  unfold insertBlockInner
  rw [hblock]
  rfl

/-! ## Transactions -/

/-- The fragmented transaction of one originator. -/
structure Transfer where
  src : ShortAddress
  ieee : IeeeAddress
  counter : UInt8
  /-- Every call for it names the IEEE address; otherwise a call may leave it out. -/
  named : Bool
  blocks : List (List UInt8)
  blocks_pos : 0 < blocks.length
  blocks_le : blocks.length ≤ APS_MAX_FRAGMENT_BLOCKS
  block_le : ∀ p ∈ blocks, p.length ≤ 255
  fits : blocks.flatten.length ≤ APS_MAX_FRAGMENTED_ASDU

open FragmentReassembly

namespace Transfer

def total (T : Transfer) : Nat := T.blocks.length

def block (T : Transfer) (b : Nat) : List UInt8 := T.blocks.getD b []

theorem flatMap_block (T : Transfer) : (List.range T.total).flatMap T.block = T.blocks.flatten := by
  rw [List.flatMap_def]
  congr 1
  apply List.ext_getElem
  · simp [total]
  · intro i _ hi
    simp [block, hi]

theorem length_block_le (T : Transfer) (b : Nat) : (T.block b).length ≤ 255 := by
  unfold block
  rw [List.getD_eq_getElem?_getD]
  cases hb : T.blocks[b]? with
  | none => exact Nat.zero_le _
  | some p => exact T.block_le p (List.mem_of_getElem? hb)

/-- The cut of the ASDU, for a receiver with this window. -/
def fragmented (T : Transfer) (windowSize : Nat) : Fragmented where
  total := T.total
  block := T.block
  window := clampWindowSize windowSize
  total_pos := T.blocks_pos
  total_le := T.blocks_le
  window_pos := clampWindowSize_pos windowSize
  window_le := clampWindowSize_le windowSize
  fits := by
    rw [sum_length_range, T.flatMap_block]
    exact T.fits

def fragmentation (b : Nat) : UInt8 := if b = 0 then FRAG_FIRST else FRAG_SUBSEQUENT

/-- The block field: the block count in the first block, the number of the block in the others. -/
def blockField (T : Transfer) (b : Nat) : Nat := if b = 0 then T.total else b

/-- The address that a call gives. -/
def offered (T : Transfer) (named : Bool) : Option IeeeAddress := if named then some T.ieee else none

/-- The session may be taken for this originator's. -/
def Matches (T : Transfer) (e : ReassemblyEntry) : Prop :=
  ∃ named : Bool, (T.named = true → named = true) ∧ e.matchesSession T.src (T.offered named) T.counter = true

/-- Two originators can be told apart: by the short address and the counter, or by IEEE addresses that are
    always named. -/
def Apart (T T' : Transfer) : Prop :=
  T.src ≠ T'.src ∨ T.counter ≠ T'.counter ∨ (T.named = true ∧ T'.named = true ∧ T.ieee ≠ T'.ieee)

theorem blockOf_block (T : Transfer) {b : Nat} (hb : b < T.total) :
    blockOf (fragmentation b) (T.blockField b) (T.block b) =
      some (b, if b = 0 then some T.total else none) := by
  have hlen := T.length_block_le b
  have hmax : T.total ≤ APS_MAX_FRAGMENT_BLOCKS := T.blocks_le
  unfold blockOf fragmentation blockField
  by_cases h0 : b = 0
  · simp only [if_pos h0]
    rw [if_pos trivial, if_neg (by have := T.blocks_pos; unfold total at *; omega), if_neg (by omega), h0]
  · simp only [if_neg h0]
    rw [if_neg (by decide), if_pos trivial, if_neg (by omega), if_neg (by omega)]

end Transfer

/-! ## What is to be answered -/

/-- What has happened of an ASDU. -/
structure Received where
  arrived : Finset Nat
  taken : Bool
  deriving DecidableEq

namespace Received

def none : Received := ⟨∅, false⟩

/-- Every block has arrived. -/
def All (r : Received) (T : Transfer) : Prop := ∀ b, b < T.total → b ∈ r.arrived

instance (r : Received) (T : Transfer) : Decidable (r.All T) := inferInstanceAs (Decidable (∀ b, b < T.total → b ∈ r.arrived))

def insert (r : Received) (b : Nat) : Received := { r with arrived := Insert.insert b r.arrived }

end Received

/-- A call for the `k`-th of `n` transactions. -/
inductive Arrival (n : Nat) where
  | block (k : Fin n) (b : Nat) (named : Bool) (nowUs : UInt32)
  | take (k : Fin n) (named : Bool) (capacity : Nat)

/-- A call's answer: a block leaves the transaction pending or completes it. -/
inductive Answer where
  | pending
  | complete
  | asdu (reassembled : Option (List UInt8))
  deriving DecidableEq

section Concurrent

variable {n : Nat} (T : Fin n → Transfer) (windowSize : Nat)

def Arrival.op : Arrival n → ReassemblyOp
  | .block k b named nowUs =>
    .insertBlock nowUs windowSize (T k).src ((T k).offered named) (T k).counter (Transfer.fragmentation b)
      ((T k).blockField b) ((T k).block b)
  | .take k named capacity => .takeReassembled (T k).src ((T k).offered named) (T k).counter capacity

/-- A transaction is complete once all its blocks have arrived, and says so at the last one and at the
    repetitions of blocks of the last window.  Its ASDU is taken once. -/
def expect (s : Fin n → Received) : Arrival n → (Fin n → Received) × Answer
  | .block k b _ _ =>
    let r := (s k).insert b
    (Function.update s k r,
      if r.taken = false ∧ r.All (T k) ∧ b / clampWindowSize windowSize = ((T k).total - 1) / clampWindowSize windowSize then
        .complete
      else .pending)
  | .take k _ capacity =>
    if (s k).taken = false ∧ (s k).All (T k) ∧ (T k).blocks.flatten.length ≤ capacity then
      (Function.update s k { s k with taken := true }, .asdu (some (T k).blocks.flatten))
    else (s, .asdu none)

/-- The call is made for the originator, and a block comes once the windows before its own have arrived. -/
def Arrival.Admissible (s : Fin n → Received) : Arrival n → Prop
  | .block k b named _ =>
    b < (T k).total ∧ ((T k).named = true → named = true) ∧
      ∀ i, i < clampWindowSize windowSize * (b / clampWindowSize windowSize) → i ∈ (s k).arrived
  | .take k named _ => (T k).named = true → named = true

/-- The transactions can be told apart, from each other and from the sessions in use, and the table has
    room for them. -/
structure Concurrent (t : FragmentReassembly) : Prop where
  apart : ∀ i j, i ≠ j → (T i).Apart (T j)
  foreign : ∀ i, ∀ e ∈ t, ¬ (T i).Matches e
  room : n ≤ t.countP (!·.active)

def ReassemblyReply.Agrees : ReassemblyReply → Answer → Prop
  | .outcome (.pending _ _), .pending => True
  | .outcome (.complete _), .complete => True
  | .asdu got, .asdu wanted => got = wanted
  | _, _ => False

end Concurrent

/-! ## The session of a transaction -/

/-- The session holds what has arrived of the ASDU. -/
structure Transfer.Holds (T : Transfer) (windowSize : Nat) (r : Received) (e : ReassemblyEntry) : Prop where
  assembly : Assembly (T.fragmented windowSize) e
  active : e.active = true
  delivered : e.delivered = r.taken
  addr : e.srcAddr = T.src
  counter : e.apsCounter = T.counter
  ieee : e.srcIeee = some T.ieee ∨ (e.srcIeee = none ∧ T.named = false)
  has_iff : ∀ b, e.has b = true ↔ b ∈ r.arrived
  taken_all : r.taken = true → r.All T

namespace Transfer

variable {T T' : Transfer} {windowSize : Nat} {r : Received} {e : ReassemblyEntry} {b : Nat} {named : Bool}

/-- A call for the originator finds the session. -/
theorem Holds.matchesSession (h : T.Holds windowSize r e) (named : Bool) :
    e.matchesSession T.src (T.offered named) T.counter = true := by
  unfold ReassemblyEntry.matchesSession
  rw [h.active, h.addr, h.counter, beq_self_eq_true, beq_self_eq_true, Bool.true_and, Bool.true_and, Bool.true_and]
  rcases h.ieee with hieee | ⟨hieee, -⟩
  · rw [hieee]
    cases named
    · rfl
    · exact beq_self_eq_true _
  · rw [hieee]

/-- A call for another originator does not. -/
theorem Holds.not_matches (h : T.Holds windowSize r e) (hapart : T.Apart T') : ¬ T'.Matches e := by
  rintro ⟨named, hnamed, hmatch⟩
  unfold ReassemblyEntry.matchesSession at hmatch
  simp only [Bool.and_eq_true, beq_iff_eq, h.addr, h.counter] at hmatch
  obtain ⟨⟨⟨-, haddr⟩, hcounter⟩, hieee⟩ := hmatch
  rcases hapart with hsrc | hctr | ⟨hall, hall', hne⟩
  · exact hsrc haddr
  · exact hctr hcounter
  · have hknown : e.srcIeee = some T.ieee := h.ieee.resolve_right fun hnone => by
      rw [hall] at hnone
      cases hnone.2
    rw [hknown, offered, hnamed hall', if_pos rfl] at hieee
    exact hne (beq_iff_eq.mp hieee)

theorem opened_holds (T : Transfer) (windowSize : Nat) (e : ReassemblyEntry) (nowUs : UInt32)
    (hnamed : T.named = true → named = true) :
    T.Holds windowSize .none (e.opened nowUs T.src (T.offered named) T.counter) where
  assembly := Assembly.opened _ e nowUs T.src _ T.counter
  active := rfl
  delivered := rfl
  addr := rfl
  counter := rfl
  ieee := by
    cases named with
    | true => exact Or.inl rfl
    | false =>
      refine Or.inr ⟨rfl, ?_⟩
      cases hall : T.named with
      | false => rfl
      | true => exact (hnamed hall).symm
  has_iff b := by simp [has, opened, reset, Received.none]
  taken_all h := by cases h

/-- The session is complete once every block has arrived. -/
theorem Holds.isComplete_iff (h : T.Holds windowSize r e) : e.isComplete = true ↔ r.All T := by
  rw [h.assembly.isComplete_iff]
  exact forall_congr' fun b => imp_congr Iff.rfl (h.has_iff b)

theorem Holds.asdu_eq (h : T.Holds windowSize r e) (hall : r.All T) : e.asdu = T.blocks.flatten :=
  (h.assembly.asdu_eq (h.isComplete_iff.mpr hall)).trans T.flatMap_block

theorem Holds.length_data (h : T.Holds windowSize r e) (hall : r.All T) : e.data.length = T.blocks.flatten.length := by
  rw [h.assembly.length_data (h.isComplete_iff.mpr hall), ← T.flatMap_block]
  rfl

/-- The blocks before a block's own window have arrived. -/
def Due (windowSize : Nat) (r : Received) (b : Nat) : Prop :=
  ∀ i, i < clampWindowSize windowSize * (b / clampWindowSize windowSize) → i ∈ r.arrived

/-- A block that is due is in the session's window or the next one, or before both. -/
theorem Holds.not_after (h : T.Holds windowSize r e) (hdue : Due windowSize r b) (hout : (T.fragmented windowSize).Outside e b) :
    b < e.windowStart := by
  refine hout.resolve_right ?_
  rintro ⟨hafter, hwhy⟩
  have hpos := clampWindowSize_pos windowSize
  obtain ⟨j, hj⟩ := h.assembly.window_dvd
  have hw : (T.fragmented windowSize).window = clampWindowSize windowSize := rfl
  rw [hw] at hafter hwhy hj
  have hnext : j + 1 ≤ b / clampWindowSize windowSize := by
    rw [Nat.le_div_iff_mul_le hpos, Nat.mul_comm, Nat.mul_succ]
    omega
  have hbefore : ∀ i, i < e.windowStart + clampWindowSize windowSize → e.has i = true := by
    intro i hi
    refine (h.has_iff i).mpr (hdue i (Nat.lt_of_lt_of_le hi ?_))
    rw [hj, ← Nat.mul_succ]
    exact Nat.mul_le_mul_left _ hnext
  rcases hwhy with ⟨i, -, hi, hmissing⟩ | hzero | hfar
  · rw [hbefore i hi] at hmissing
    cases hmissing
  · have htotal := h.assembly.total_known (hbefore 0 (by omega))
    have htotal_pos := (T.fragmented windowSize).total_pos
    omega
  · have hnext₂ : j + 2 ≤ b / clampWindowSize windowSize := by
      rw [Nat.le_div_iff_mul_le hpos, Nat.add_mul, Nat.mul_comm j]
      omega
    have hhas := (h.has_iff (e.windowStart + clampWindowSize windowSize)).mpr (hdue _ (by
      have := Nat.mul_le_mul_left (clampWindowSize windowSize) hnext₂
      rw [Nat.mul_add] at this
      omega))
    have := h.assembly.has_window hhas
    rw [hw] at this
    omega

/-- A block before the session's window is in a window before the last one. -/
theorem Holds.div_lt_last (h : T.Holds windowSize r e) (hb : b < e.windowStart) :
    b / clampWindowSize windowSize < (T.total - 1) / clampWindowSize windowSize := by
  have hpos := clampWindowSize_pos windowSize
  obtain ⟨j, hj⟩ := h.assembly.window_dvd
  have hlt : e.windowStart < T.total := h.assembly.window_lt
  have hw : (T.fragmented windowSize).window = clampWindowSize windowSize := rfl
  rw [hw, Nat.mul_comm] at hj
  calc b / clampWindowSize windowSize < j := by rwa [Nat.div_lt_iff_lt_mul hpos, ← hj]
    _ ≤ (T.total - 1) / clampWindowSize windowSize := by
        rw [Nat.le_div_iff_mul_le hpos]
        omega

/-- Once every block has arrived, the session's window is the last one. -/
theorem Holds.div_eq_last {e₀ : ReassemblyEntry} (h : T.Holds windowSize r e) (hall : r.All T)
    (htakes : (T.fragmented windowSize).Takes e₀ e b) (hb : b < T.total) :
    b / clampWindowSize windowSize = (T.total - 1) / clampWindowSize windowSize := by
  have hpos := clampWindowSize_pos windowSize
  obtain ⟨j, hj⟩ := h.assembly.window_dvd
  have hw : (T.fragmented windowSize).window = clampWindowSize windowSize := rfl
  have hend := h.assembly.has_window ((h.has_iff (T.total - 1)).mpr (hall _ (by omega)))
  have hin := htakes.lt
  have hstart : e.windowStart ≤ b := by
    rcases htakes.start with ⟨hsame, hle⟩ | ⟨-, hle⟩
    · rwa [hsame]
    · exact hle
  rw [hw, Nat.mul_comm] at hj
  rw [hw] at hend hin
  have hdiv : ∀ i, e.windowStart ≤ i → i < e.windowStart + clampWindowSize windowSize → i / clampWindowSize windowSize = j :=
    fun i hlo hhi => by
      rw [Nat.div_eq_iff hpos]
      omega
  rw [hdiv b hstart hin, hdiv (T.total - 1) (by omega) hend]

/-- **What the session makes of a block that is due.** -/
theorem Holds.offer (h : T.Holds windowSize r e) (hb : b < T.total) (hdue : Due windowSize r b) (nowUs : UInt32)
    (named : Bool) :
    ∃ e' outcome, e.offer nowUs (clampWindowSize windowSize) (T.offered named) (fragmentation b) b
        (if b = 0 then some T.total else none) (T.block b) = (e', outcome) ∧
      T.Holds windowSize (r.insert b) e' ∧
      ReassemblyReply.Agrees (.outcome outcome)
        (if (r.insert b).taken = false ∧ (r.insert b).All T ∧
            b / clampWindowSize windowSize = (T.total - 1) / clampWindowSize windowSize then .complete
          else .pending) := by
  cases htaken : r.taken with
  | true =>
    have hsame : r.insert b = r := by
      unfold Received.insert
      rw [Finset.insert_eq_of_mem (h.taken_all htaken b hb)]
    refine ⟨e, .pending none false, ?_, by rwa [hsame], ?_⟩
    · unfold ReassemblyEntry.offer
      rw [if_pos (h.delivered.trans htaken)]
    · rw [if_neg fun hc => by rw [hsame, htaken] at hc; cases hc.1]
      trivial
  | false =>
    obtain ⟨e', outcome, hoffer, hassembly, hbecomes, hout⟩ :=
      h.assembly.offer (h.delivered.trans htaken) hb nowUs (T.offered named) (fragmentation b)
    have hieee : e'.srcIeee = some T.ieee ∨ (e'.srcIeee = none ∧ T.named = false) := by
      rw [hbecomes.ieee]
      rcases h.ieee with hsome | ⟨hnone, hnamed⟩
      · rw [hsome]
        exact Or.inl rfl
      · rw [hnone]
        cases named
        · exact Or.inr ⟨rfl, hnamed⟩
        · exact Or.inl rfl
    have hholds : (∀ i, e'.has i = true ↔ i ∈ (r.insert b).arrived) → T.Holds windowSize (r.insert b) e' := fun hhas =>
      ⟨hassembly, hbecomes.active.trans h.active, hbecomes.delivered.trans h.delivered, hbecomes.addr.trans h.addr,
        hbecomes.counter.trans h.counter, hieee, hhas, fun hall => by rw [Received.insert, htaken] at hall; cases hall⟩
    refine ⟨e', outcome, hoffer, ?_⟩
    rcases hout with ⟨hout, hreceived, -, rfl⟩ | ⟨htakes, stored, rfl⟩
    · have hbefore := h.not_after hdue hout
      have hmem : b ∈ r.arrived := (h.has_iff b).mp (h.assembly.has_before hbefore)
      have hsame : r.insert b = r := by
        unfold Received.insert
        rw [Finset.insert_eq_of_mem hmem]
      refine ⟨hholds fun i => ?_, ?_⟩
      · rw [hsame, ← h.has_iff i, has, hreceived]
        rfl
      · rw [if_neg fun hc => absurd hc.2.2 (Nat.ne_of_lt (h.div_lt_last hbefore))]
        trivial
    · have hhas : ∀ i, e'.has i = true ↔ i ∈ (r.insert b).arrived := by
        intro i
        rw [htakes.has_iff, Bool.or_eq_true, h.has_iff, beq_iff_eq, Received.insert, Finset.mem_insert, or_comm, eq_comm]
      have h' := hholds hhas
      refine ⟨h', ?_⟩
      unfold answer
      by_cases hall : (r.insert b).All T
      · rw [if_pos (h'.isComplete_iff.mpr hall), if_pos ⟨htaken, hall, h'.div_eq_last hall htakes hb⟩]
        trivial
      · rw [if_neg (mt h'.isComplete_iff.mp hall), if_neg (show ¬ (_ ∧ (r.insert b).All T ∧ _) from fun hc => hall hc.2.1)]
        trivial

end Transfer

/-! ## The table -/

/-- Every ASDU that has begun to arrive has a session of its own, at its slot, and the table has a free slot
    for each of the others. -/
structure Tracks {n : Nat} (T : Fin n → Transfer) (windowSize : Nat) (slot : Fin n → Option Nat) (t : FragmentReassembly)
    (s : Fin n → Received) : Prop where
  idle : ∀ k, slot k = none → s k = .none
  held : ∀ k i, slot k = some i → ∃ e, t[i]? = some e ∧ (T k).Holds windowSize (s k) e
  only : ∀ k i e, t[i]? = some e → (T k).Matches e → slot k = some i
  room : (Finset.univ.filter fun k => slot k = none).card ≤ t.countP (!·.active)

namespace Tracks

variable {n : Nat} {T : Fin n → Transfer} {windowSize : Nat} {slot : Fin n → Option Nat} {t : FragmentReassembly}
  {s : Fin n → Received} {k : Fin n} {named : Bool}

/-- The session that a call finds is the originator's. -/
theorem findIdx?_matches (h : Tracks T windowSize slot t s) (hnamed : (T k).named = true → named = true) :
    t.findIdx? (·.matchesSession (T k).src ((T k).offered named) (T k).counter) = slot k := by
  have honly : ∀ i (hi : i < t.length), t[i].matchesSession (T k).src ((T k).offered named) (T k).counter = true → slot k = some i :=
    fun i hi hmatch => h.only k i _ (List.getElem?_eq_getElem hi) ⟨named, hnamed, hmatch⟩
  cases hslot : slot k with
  | none =>
    rw [List.findIdx?_eq_none_iff]
    intro e he
    obtain ⟨i, hi, rfl⟩ := List.mem_iff_getElem.mp he
    by_contra hmatch
    rw [honly i hi (by simpa using hmatch)] at hslot
    cases hslot
  | some i =>
    obtain ⟨e, hi, hholds⟩ := h.held k i hslot
    obtain ⟨hlt, rfl⟩ := List.getElem?_eq_some_iff.mp hi
    refine List.findIdx?_eq_some_iff_getElem.mpr ⟨hlt, hholds.matchesSession named, fun j hj hmatch => ?_⟩
    have := honly j (Nat.lt_trans hj hlt) hmatch
    rw [hslot] at this
    cases this
    exact Nat.lt_irrefl _ hj

/-- An originator without a session finds a free slot. -/
theorem findIdx?_free (h : Tracks T windowSize slot t s) (hslot : slot k = none) :
    ∃ i e, t.findIdx? (fun e : ReassemblyEntry => !e.active) = some i ∧ t[i]? = some e ∧ e.active = false := by
  have hroom : 0 < t.countP (!·.active) :=
    Nat.lt_of_lt_of_le (Finset.card_pos.mpr ⟨k, Finset.mem_filter.mpr ⟨Finset.mem_univ k, hslot⟩⟩) h.room
  obtain ⟨e, he, hfree⟩ := List.countP_pos_iff.mp hroom
  cases hfind : t.findIdx? fun e : ReassemblyEntry => !e.active with
  | none =>
    rw [List.findIdx?_eq_none_iff.mp hfind e he] at hfree
    cases hfree
  | some i =>
    obtain ⟨e', hi, he'⟩ := Table.getElem?_of_findIdx? hfind
    exact ⟨i, e', rfl, hi, by simpa using he'⟩

/-- The session of an originator changes, or takes a free slot. -/
theorem put (h : Tracks T windowSize slot t s) (hapart : ∀ i j, i ≠ j → (T i).Apart (T j)) {i : Nat} {e e' : ReassemblyEntry}
    {r : Received} (hi : t[i]? = some e) (hslot : slot k = some i ∨ (slot k = none ∧ e.active = false))
    (hholds : (T k).Holds windowSize r e') :
    Tracks T windowSize (Function.update slot k (some i)) (t.set i e') (Function.update s k r) := by
  obtain ⟨hlt, hget⟩ := List.getElem?_eq_some_iff.mp hi
  -- the other originators' sessions are in other slots
  have hother : ∀ j i', j ≠ k → slot j = some i' → i' ≠ i := by
    rintro j i' hj hslot' rfl
    obtain ⟨e₁, hi₁, hholds₁⟩ := h.held j i' hslot'
    obtain rfl : e = e₁ := Option.some.inj (hi.symm.trans hi₁)
    rcases hslot with hslot | ⟨-, hfree⟩
    · obtain ⟨e₂, hi₂, hholds₂⟩ := h.held k i' hslot
      obtain rfl : e = e₂ := Option.some.inj (hi.symm.trans hi₂)
      exact hholds₂.not_matches (hapart k j hj.symm) ⟨true, fun _ => rfl, hholds₁.matchesSession true⟩
    · rw [hholds₁.active] at hfree
      cases hfree
  constructor
  case idle =>
    intro j hj
    by_cases hjk : j = k
    · subst hjk
      rw [Function.update_self] at hj
      cases hj
    · rw [Function.update_of_ne hjk] at hj ⊢
      exact h.idle j hj
  case held =>
    intro j i' hj
    by_cases hjk : j = k
    · subst hjk
      rw [Function.update_self] at hj ⊢
      cases hj
      exact ⟨e', List.getElem?_set_self hlt, hholds⟩
    · rw [Function.update_of_ne hjk] at hj ⊢
      rw [List.getElem?_set_ne (hother j i' hjk hj).symm]
      exact h.held j i' hj
  case only =>
    intro j i' x hx hmatch
    by_cases hii : i' = i
    · subst hii
      rw [List.getElem?_set_self hlt] at hx
      obtain rfl := Option.some.inj hx
      by_cases hjk : j = k
      · rw [hjk, Function.update_self]
      · exact absurd hmatch (hholds.not_matches (hapart k j (Ne.symm hjk)))
    · rw [List.getElem?_set_ne (Ne.symm hii)] at hx
      have hj := h.only j i' x hx hmatch
      by_cases hjk : j = k
      · subst hjk
        rcases hslot with hslot | ⟨hslot, -⟩
        · exact absurd (Option.some.inj (hj.symm.trans hslot)) hii
        · rw [hslot] at hj
          cases hj
      · rwa [Function.update_of_ne hjk]
  case room =>
    have hidle : (Finset.univ.filter fun j => Function.update slot k (some i) j = none) =
        (Finset.univ.filter fun j => slot j = none).erase k := by
      ext j
      simp only [Finset.mem_filter, Finset.mem_univ, true_and, Finset.mem_erase]
      by_cases hjk : j = k
      · simp [hjk]
      · rw [Function.update_of_ne hjk]
        exact (and_iff_right hjk).symm
    rw [hidle, List.countP_set hlt, hget, hholds.active, Bool.not_true, if_neg Bool.false_ne_true, Nat.add_zero]
    have hroom := h.room
    rcases hslot with hslot | ⟨hslot, hfree⟩
    · obtain ⟨e₁, hi₁, hholds₁⟩ := h.held k i hslot
      obtain rfl : e = e₁ := Option.some.inj (hi.symm.trans hi₁)
      rw [hholds₁.active, Bool.not_true, if_neg Bool.false_ne_true, Nat.sub_zero]
      exact (Finset.card_erase_le).trans hroom
    · rw [hfree, Bool.not_false, if_pos rfl, Finset.card_erase_of_mem (Finset.mem_filter.mpr ⟨Finset.mem_univ k, hslot⟩)]
      omega

/-- A call for an originator finds the session that holds what has arrived of its ASDU, or opens it. -/
theorem sessionFor (h : Tracks T windowSize slot t s) (hnamed : (T k).named = true → named = true) (nowUs : UInt32) :
    ∃ i e₀ e, t[i]? = some e₀ ∧ (slot k = some i ∨ (slot k = none ∧ e₀.active = false)) ∧ (T k).Holds windowSize (s k) e ∧
      t.sessionFor nowUs (T k).src ((T k).offered named) (T k).counter = some (i, e) := by
  unfold FragmentReassembly.sessionFor
  rw [h.findIdx?_matches hnamed]
  cases hslot : slot k with
  | some i =>
    obtain ⟨e, hi, hholds⟩ := h.held k i hslot
    refine ⟨i, e, e, hi, Or.inl rfl, hholds, ?_⟩
    dsimp only
    rw [hi]
    rfl
  | none =>
    obtain ⟨i, e, hfind, hi, hfree⟩ := h.findIdx?_free hslot
    refine ⟨i, e, e.opened nowUs (T k).src ((T k).offered named) (T k).counter, hi, Or.inr ⟨rfl, hfree⟩, ?_, ?_⟩
    · rw [h.idle k hslot]
      exact (T k).opened_holds windowSize e nowUs hnamed
    · dsimp only
      rw [hfind]
      dsimp only
      rw [hi]
      rfl

/-- **A block of an ASDU** is taken by its session, and the others stay as they are. -/
theorem block (h : Tracks T windowSize slot t s) (hapart : ∀ i j, i ≠ j → (T i).Apart (T j)) {b : Nat} (hb : b < (T k).total)
    (hnamed : (T k).named = true → named = true) (hdue : Transfer.Due windowSize (s k) b) (nowUs : UInt32) :
    (t.call ((Arrival.block k b named nowUs).op T windowSize)).2.Agrees (expect T windowSize s (.block k b named nowUs)).2 ∧
      ∃ slot', Tracks T windowSize slot' (t.call ((Arrival.block k b named nowUs).op T windowSize)).1
        (expect T windowSize s (.block k b named nowUs)).1 := by
  obtain ⟨i, e₀, e, hi, hslot, hholds, hsession⟩ := h.sessionFor hnamed nowUs
  obtain ⟨e', outcome, hoffer, hholds', hagrees⟩ := hholds.offer hb hdue nowUs named
  have hinner : t.insertBlockInner nowUs windowSize (T k).src ((T k).offered named) (T k).counter (Transfer.fragmentation b)
      ((T k).blockField b) ((T k).block b) = (t.set i e', outcome) := by
    rw [t.insertBlockInner_eq nowUs windowSize _ _ _ ((T k).blockOf_block hb), hsession]
    dsimp only
    rw [hoffer]
  have hcall : t.call ((Arrival.block k b named nowUs).op T windowSize) = (t.set i e', .outcome outcome) := by
    unfold Arrival.op call insertBlock
    dsimp only
    rw [hinner]
    cases outcome with
    | rejected => exact absurd hagrees (by split <;> exact id)
    | pending ack stored => rfl
    | complete ack => rfl
  rw [hcall]
  exact ⟨hagrees, _, h.put hapart hi hslot hholds'⟩

/-- The session whose ASDU has not been taken. -/
theorem findIdx?_fresh (h : Tracks T windowSize slot t s) (hnamed : (T k).named = true → named = true) :
    t.findIdx? (fun e => e.matchesSession (T k).src ((T k).offered named) (T k).counter && !e.delivered) =
      if (s k).taken then none else slot k := by
  have hfind := h.findIdx?_matches hnamed
  cases hslot : slot k with
  | none =>
    rw [hslot, List.findIdx?_eq_none_iff] at hfind
    rw [h.idle k hslot]
    refine List.findIdx?_eq_none_iff.mpr fun e he => ?_
    rw [hfind e he]
    rfl
  | some i =>
    obtain ⟨e, hi, hholds⟩ := h.held k i hslot
    obtain ⟨hlt, rfl⟩ := List.getElem?_eq_some_iff.mp hi
    rw [hslot] at hfind
    obtain ⟨_, hmatch, hbefore⟩ := List.findIdx?_eq_some_iff_getElem.mp hfind
    cases htaken : (s k).taken with
    | true =>
      refine List.findIdx?_eq_none_iff.mpr fun e he => ?_
      obtain ⟨j, hj, rfl⟩ := List.mem_iff_getElem.mp he
      cases hmatch' : t[j].matchesSession (T k).src ((T k).offered named) (T k).counter with
      | false => rfl
      | true =>
        have hji := h.only k j _ (List.getElem?_eq_getElem hj) ⟨named, hnamed, hmatch'⟩
        rw [hslot] at hji
        cases hji
        rw [hholds.delivered, htaken]
        rfl
    | false =>
      refine List.findIdx?_eq_some_iff_getElem.mpr ⟨hlt, ?_, fun j hj hmatch' => ?_⟩
      · rw [hmatch, hholds.delivered, htaken]
        rfl
      · exact hbefore j hj (Bool.and_eq_true_iff.mp hmatch').1

/-- **An ASDU is taken** once all of it has arrived. -/
theorem take (h : Tracks T windowSize slot t s) (hapart : ∀ i j, i ≠ j → (T i).Apart (T j))
    (hnamed : (T k).named = true → named = true) (capacity : Nat) :
    (t.call ((Arrival.take k named capacity).op T windowSize)).2.Agrees (expect T windowSize s (.take k named capacity)).2 ∧
      ∃ slot', Tracks T windowSize slot' (t.call ((Arrival.take k named capacity).op T windowSize)).1
        (expect T windowSize s (.take k named capacity)).1 := by
  have hfind := h.findIdx?_fresh hnamed
  have hnone : t.takeReassembled (T k).src ((T k).offered named) (T k).counter capacity = none →
      ¬ ((s k).taken = false ∧ (s k).All (T k) ∧ (T k).blocks.flatten.length ≤ capacity) →
      (t.call ((Arrival.take k named capacity).op T windowSize)).2.Agrees (expect T windowSize s (.take k named capacity)).2 ∧
        ∃ slot', Tracks T windowSize slot' (t.call ((Arrival.take k named capacity).op T windowSize)).1
          (expect T windowSize s (.take k named capacity)).1 := by
    intro htake hcond
    unfold Arrival.op call expect
    dsimp only
    rw [htake, if_neg hcond]
    exact ⟨rfl, slot, h⟩
  cases htaken : (s k).taken with
  | true =>
    rw [htaken, if_pos rfl] at hfind
    refine hnone ?_ fun hcond => by rw [htaken] at hcond; cases hcond.1
    unfold FragmentReassembly.takeReassembled
    rw [hfind]
  | false =>
    rw [htaken, if_neg Bool.false_ne_true] at hfind
    cases hslot : slot k with
    | none =>
      rw [hslot] at hfind
      refine hnone ?_ fun hcond => ?_
      · unfold FragmentReassembly.takeReassembled
        rw [hfind]
      · have hzero := hcond.2.1 0 (T k).blocks_pos
        rw [h.idle k hslot] at hzero
        exact Finset.notMem_empty 0 hzero
    | some i =>
      rw [hslot] at hfind
      obtain ⟨e, hi, hholds⟩ := h.held k i hslot
      by_cases hcond : (s k).All (T k) ∧ (T k).blocks.flatten.length ≤ capacity
      · obtain ⟨hall, hcapacity⟩ := hcond
        have htake : t.takeReassembled (T k).src ((T k).offered named) (T k).counter capacity =
            some (t.set i { e with delivered := true }, e, (T k).blocks.flatten) := by
          unfold FragmentReassembly.takeReassembled
          rw [hfind]
          dsimp only
          rw [hi]
          dsimp only
          rw [hholds.isComplete_iff.mpr hall, hholds.length_data hall, decide_eq_false (Nat.not_lt.mpr hcapacity),
            hholds.asdu_eq hall]
          rfl
        unfold Arrival.op call expect
        dsimp only
        rw [htake, if_pos ⟨htaken, hall, hcapacity⟩]
        refine ⟨rfl, _, h.put hapart hi (Or.inl hslot) ?_⟩
        exact { hholds with
          assembly := { hholds.assembly with }
          delivered := rfl
          taken_all := fun _ => hall }
      · refine hnone ?_ fun hcond' => hcond hcond'.2
        unfold FragmentReassembly.takeReassembled
        rw [hfind]
        dsimp only
        rw [hi]
        dsimp only
        rw [if_pos]
        rw [Bool.or_eq_true, Bool.not_eq_true', decide_eq_true_iff]
        by_cases hall : (s k).All (T k)
        · right
          rw [hholds.length_data hall]
          exact Nat.lt_of_not_le fun hle => hcond ⟨hall, hle⟩
        · left
          rw [← Bool.not_eq_true, hholds.isComplete_iff]
          exact hall

theorem start (h : Concurrent T t) (windowSize : Nat) : Tracks T windowSize (fun _ => none) t (fun _ => .none) where
  idle _ _ := rfl
  held _ _ hslot := by cases hslot
  only k i e hi hmatch := absurd hmatch (h.foreign k e (List.mem_of_getElem? hi))
  room := by
    rw [Finset.filter_true_of_mem fun _ _ => rfl, Finset.card_univ, Fintype.card_fin]
    exact h.room

/-- **Every ASDU is reassembled** whatever the order of the calls. -/
theorem agrees (h : Concurrent T t) {es : List (Arrival n)}
    (hes : Run.Along (fun s e => (expect T windowSize s e).1) (Arrival.Admissible T windowSize) (fun _ => .none) es) :
    List.Forall₂ ReassemblyReply.Agrees (Run.outputs call t (es.map (Arrival.op T windowSize)))
      (Run.outputs (expect T windowSize) (fun _ => .none) es) := by
  have hstep : ∀ t s e, (∃ slot, Tracks T windowSize slot t s) → Arrival.Admissible T windowSize s e →
      (t.call (e.op T windowSize)).2.Agrees (expect T windowSize s e).2 ∧
        ∃ slot, Tracks T windowSize slot (t.call (e.op T windowSize)).1 (expect T windowSize s e).1 := by
    rintro t s e ⟨slot, htracks⟩ hadmissible
    cases e with
    | block k b named nowUs => exact htracks.block h.apart hadmissible.1 hadmissible.2.1 hadmissible.2.2 nowUs
    | take k named capacity => exact htracks.take h.apart hadmissible capacity
  rw [Run.outputs_map]
  exact Run.outputs_of_simulation hstep ⟨_, start h windowSize⟩ hes

end Tracks

/-! ## Sessions without a block -/

/-- Every session in use holds a block. -/
def EveryHeld (t : FragmentReassembly) : Prop := ∀ e ∈ t, e.active = true → e.received ≠ 0

/-- A block other than the first is to open a session, and lies beyond its window. -/
def OpensEmpty (t : FragmentReassembly) : ReassemblyOp → Prop
  | .insertBlock _ windowSize srcAddr srcIeee apsCounter fragmentation blockField payload =>
    (∃ b, blockOf fragmentation blockField payload = some (b, none) ∧ clampWindowSize windowSize ≤ b) ∧
      (∀ e ∈ t, e.matchesSession srcAddr srcIeee apsCounter = false) ∧ ∃ e ∈ t, e.active = false
  | _ => False

instance OpensEmpty.decidable (t : FragmentReassembly) : (op : ReassemblyOp) → Decidable (OpensEmpty t op)
  | .insertBlock _ windowSize srcAddr srcIeee apsCounter fragmentation blockField payload =>
    have : Decidable (∃ b, blockOf fragmentation blockField payload = some (b, none) ∧
        clampWindowSize windowSize ≤ b) :=
      match blockOf fragmentation blockField payload with
      | some (b, none) => decidable_of_iff (clampWindowSize windowSize ≤ b) (by simp)
      | some (b, some total) => isFalse (by simp)
      | none => isFalse (by simp)
    inferInstanceAs (Decidable (_ ∧ _ ∧ _))
  | .takeReassembled .. => inferInstanceAs (Decidable False)
  | .finalizeDelivered => inferInstanceAs (Decidable False)
  | .rollbackBlock .. => inferInstanceAs (Decidable False)

section Held

variable {t : FragmentReassembly} {e : ReassemblyEntry} {nowUs : UInt32} {windowSize : Nat} {srcAddr : ShortAddress}
  {ieee : Option IeeeAddress} {apsCounter : UInt8} {fragmentation : UInt8} {blockField b : Nat} {total : Option Nat}
  {payload : List UInt8}

/-- A session loses its blocks only to a block that is rejected. -/
theorem offer_received (h : e.received ≠ 0)
    (hout : (e.offer nowUs windowSize ieee fragmentation b total payload).2 ≠ .rejected) :
    (e.offer nowUs windowSize ieee fragmentation b total payload).1.received ≠ 0 := by
  rcases e.offer_cases nowUs windowSize ieee fragmentation b total payload with
    ⟨e', outcome, hoffer, ⟨hsame, -⟩ | ⟨-, -, hrejected⟩⟩ | ⟨e', -, hprepare, -, hoffer⟩ | ⟨e₁, -, hprepare, -, -, hoffer⟩
  · rw [hoffer, hsame.received]
    exact h
  · rw [hoffer] at hout
    exact absurd hrejected hout
  · rw [hoffer, (prepared hprepare).eq]
    exact h
  · rw [hoffer]
    refine fun hzero => h ?_
    rw [stored, (prepared hprepare).eq] at hzero
    exact (BitVec.or_eq_zero_iff.mp hzero).1

theorem blockOf_bounds (h : blockOf fragmentation blockField payload = some (b, total)) :
    payload.length ≤ 255 ∧ b < APS_MAX_FRAGMENT_BLOCKS ∧ ((b = 0 ∧ ∃ n, total = some n ∧ n ≠ 0) ∨ (b ≠ 0 ∧ total = none)) := by
  revert h
  unfold blockOf
  split
  · split
    · intro h
      cases h
    · split
      · intro h
        cases h
      · intro h
        cases h
        exact ⟨by omega, by decide, Or.inl ⟨rfl, _, rfl, by tauto⟩⟩
  · split
    · split
      · intro h
        cases h
      · split
        · intro h
          cases h
        · intro h
          cases h
          exact ⟨by omega, by omega, Or.inr ⟨by tauto, rfl⟩⟩
    · intro h
      cases h

theorem insert_ne_zero (received : BitVec 16) (hb : b < APS_MAX_FRAGMENT_BLOCKS) : BitSet.insert received b ≠ 0 := by
  intro hzero
  have hbit := BitSet.getLsbD_insert received hb b
  rw [hzero, beq_self_eq_true, Bool.or_true, BitVec.ofNat_eq_ofNat, BitVec.getLsbD_zero] at hbit
  cases hbit

/-- A new session takes the block that opens it, unless the block lies beyond the window. -/
theorem opened_offer (h : blockOf fragmentation blockField payload = some (b, total)) (nowUs : UInt32)
    (windowSize : Nat) (srcAddr : ShortAddress) (ieee : Option IeeeAddress) (apsCounter : UInt8) (e : ReassemblyEntry) :
    let e' := (e.opened nowUs srcAddr ieee apsCounter).offer nowUs (clampWindowSize windowSize) ieee fragmentation b total payload
    e'.2 ≠ .rejected ∧ e'.1.active = true ∧
      (e'.1.received ≠ 0 ↔ ¬ (total = none ∧ clampWindowSize windowSize ≤ b)) := by
  obtain ⟨hlen, hb, hkind⟩ := blockOf_bounds h
  have hprepare := prepare_opened ieee hkind (clampWindowSize_pos windowSize) e nowUs nowUs srcAddr
    apsCounter
  dsimp only
  by_cases hcond : total = none ∧ clampWindowSize windowSize ≤ b
  · obtain ⟨rfl, hafter⟩ := hcond
    rw [offer_opened_after hafter]
    exact ⟨nofun, rfl, iff_of_false (fun hne => hne rfl) fun hnot => hnot ⟨rfl, hafter⟩⟩
  · rw [if_neg hcond] at hprepare
    rw [offer_stored rfl hprepare]
    · refine ⟨?_, rfl, iff_of_true (insert_ne_zero _ hb) hcond⟩
      unfold answer
      split <;> exact nofun
    · exact BitVec.getLsbD_zero
    · show 0 + payload.length ≤ APS_MAX_FRAGMENTED_ASDU
      unfold APS_MAX_FRAGMENTED_ASDU
      omega

theorem sessionFor_cases {i : Nat} (h : t.sessionFor nowUs srcAddr ieee apsCounter = some (i, e)) :
    (t.findIdx? (·.matchesSession srcAddr ieee apsCounter) = some i ∧ t[i]? = some e) ∨
      (t.findIdx? (·.matchesSession srcAddr ieee apsCounter) = none ∧
        t.findIdx? (fun e : ReassemblyEntry => !e.active) = some i ∧
        ∃ e₀, t[i]? = some e₀ ∧ e = e₀.opened nowUs srcAddr ieee apsCounter) := by
  unfold FragmentReassembly.sessionFor at h
  cases hfind : t.findIdx? (·.matchesSession srcAddr ieee apsCounter) with
  | some j =>
    obtain ⟨e₀, hj, -⟩ := Table.getElem?_of_findIdx? hfind
    rw [hfind] at h
    dsimp only at h
    rw [hj] at h
    cases h
    exact Or.inl ⟨rfl, hj⟩
  | none =>
    rw [hfind] at h
    cases hfree : t.findIdx? fun e : ReassemblyEntry => !e.active with
    | none =>
      rw [hfree] at h
      cases h
    | some j =>
      obtain ⟨e₀, hj, -⟩ := Table.getElem?_of_findIdx? hfree
      rw [hfree] at h
      dsimp only at h
      rw [hj] at h
      cases h
      exact Or.inr ⟨rfl, rfl, e₀, hj, rfl⟩

theorem sessionFor_some {i : Nat} (h : t.sessionFor nowUs srcAddr ieee apsCounter = some (i, e)) :
    (t[i]? = some e ∧ e.matchesSession srcAddr ieee apsCounter = true) ∨
      ((∀ e ∈ t, e.matchesSession srcAddr ieee apsCounter = false) ∧
        ∃ e₀, t[i]? = some e₀ ∧ e₀.active = false ∧ e = e₀.opened nowUs srcAddr ieee apsCounter) := by
  rcases sessionFor_cases h with ⟨hfind, hi⟩ | ⟨hfind, hfree, e₀, hi, he⟩
  · obtain ⟨e₀, hi', hmatch⟩ := Table.getElem?_of_findIdx? hfind
    obtain rfl := Option.some.inj (hi.symm.trans hi')
    exact Or.inl ⟨hi, hmatch⟩
  · obtain ⟨e₁, hi', hidle⟩ := Table.getElem?_of_findIdx? hfree
    obtain rfl := Option.some.inj (hi.symm.trans hi')
    exact Or.inr ⟨List.findIdx?_eq_none_iff.mp hfind, e₀, hi, by simpa using hidle, he⟩

theorem sessionFor_none (h : t.sessionFor nowUs srcAddr ieee apsCounter = none) : ∀ e ∈ t, e.active = true := by
  intro e he
  unfold FragmentReassembly.sessionFor at h
  cases hfind : t.findIdx? (·.matchesSession srcAddr ieee apsCounter) with
  | some j =>
    obtain ⟨e₀, hj, -⟩ := Table.getElem?_of_findIdx? hfind
    rw [hfind] at h
    dsimp only at h
    rw [hj] at h
    cases h
  | none =>
    rw [hfind] at h
    cases hfree : t.findIdx? fun e : ReassemblyEntry => !e.active with
    | none => simpa using List.findIdx?_eq_none_iff.mp hfree e he
    | some j =>
      obtain ⟨e₀, hj, -⟩ := Table.getElem?_of_findIdx? hfree
      rw [hfree] at h
      dsimp only at h
      rw [hj] at h
      cases h

namespace EveryHeld

theorem set (h : EveryHeld t) {i : Nat} (he : e.active = true → e.received ≠ 0) : EveryHeld (t.set i e) := by
  intro x hx
  rcases List.mem_or_eq_of_mem_set hx with hx | rfl
  · exact h x hx
  · exact he

/-- Sessions without a block go when a block is rejected. -/
theorem swept (t : FragmentReassembly) :
    EveryHeld (t.map fun e => if e.active && e.received == 0 then e.reset else e) := by
  intro x hx
  obtain ⟨e, -, rfl⟩ := List.mem_map.mp hx
  split
  · intro hactive
    cases hactive
  · intro hactive hzero
    rename_i hcond
    rw [hactive, hzero] at hcond
    exact hcond rfl

/-- After a block is offered to the session at a slot, that session is what may be empty. -/
theorem insertBlock_set (h : EveryHeld t) {i : Nat} {outcome : FragmentOutcome}
    (hinner : t.insertBlockInner nowUs windowSize srcAddr ieee apsCounter fragmentation blockField payload =
      (t.set i e, outcome))
    (he : outcome ≠ .rejected → e.active = true → e.received ≠ 0) :
    EveryHeld (t.insertBlock nowUs windowSize srcAddr ieee apsCounter fragmentation blockField payload).1 := by
  unfold insertBlock
  rw [hinner]
  cases outcome with
  | rejected => exact swept _
  | pending ack stored => exact h.set (he nofun)
  | complete ack => exact h.set (he nofun)

theorem insertBlock_iff (h : EveryHeld t) :
    EveryHeld (t.insertBlock nowUs windowSize srcAddr ieee apsCounter fragmentation blockField payload).1 ↔
      ¬ OpensEmpty t (.insertBlock nowUs windowSize srcAddr ieee apsCounter fragmentation blockField payload) := by
  cases hblock : blockOf fragmentation blockField payload with
  | none =>
    refine iff_of_true ?_ ?_
    · unfold insertBlock insertBlockInner
      rw [hblock]
      exact swept t
    · rintro ⟨⟨b, hb, -⟩, -⟩
      rw [hblock] at hb
      cases hb
  | some block =>
    obtain ⟨b, total⟩ := block
    have hinner := t.insertBlockInner_eq nowUs windowSize srcAddr ieee apsCounter hblock
    cases hsession : t.sessionFor nowUs srcAddr ieee apsCounter with
    | none =>
      refine iff_of_true ?_ ?_
      · unfold insertBlock
        rw [hinner, hsession]
        exact swept t
      · rintro ⟨-, -, e, he, hfree⟩
        rw [sessionFor_none hsession e he] at hfree
        cases hfree
    | some session =>
      obtain ⟨i, e⟩ := session
      rw [hsession] at hinner
      rcases sessionFor_some hsession with ⟨hi, hmatch⟩ | ⟨hnone, e₀, hi, hfree, rfl⟩
      · have hmem := List.mem_of_getElem? hi
        have hactive : e.active = true := by
          unfold ReassemblyEntry.matchesSession at hmatch
          simp only [Bool.and_eq_true] at hmatch
          exact hmatch.1.1.1
        refine iff_of_true (h.insertBlock_set hinner fun hout _ => offer_received (h e hmem hactive) hout) ?_
        rintro ⟨-, hnone, -⟩
        rw [hnone e hmem] at hmatch
        cases hmatch
      · obtain ⟨haccepted, hactive, hreceived⟩ := opened_offer hblock nowUs windowSize srcAddr ieee apsCounter e₀
        constructor
        · rintro hheld ⟨⟨b', hb', hafter⟩, -⟩
          rw [hblock] at hb'
          cases hb'
          refine absurd ⟨rfl, hafter⟩ (hreceived.mp (hheld _ ?_ hactive))
          have hmem : ∀ e' : ReassemblyEntry, e' ∈ t.set i e' := fun e' =>
            List.mem_of_getElem? (List.getElem?_set_self (List.getElem?_eq_some_iff.mp hi).1)
          unfold insertBlock
          rw [hinner]
          dsimp only
          cases hout : ((e₀.opened nowUs srcAddr ieee apsCounter).offer nowUs (clampWindowSize windowSize) ieee
              fragmentation b none payload).2 with
          | rejected => exact absurd hout haccepted
          | pending ack stored => exact hmem _
          | complete ack => exact hmem _
        · intro hnot
          refine h.insertBlock_set hinner fun _ _ => hreceived.mpr fun hcond => hnot ?_
          obtain ⟨rfl, hafter⟩ := hcond
          exact ⟨⟨b, hblock, hafter⟩, hnone, e₀, List.mem_of_getElem? hi, hfree⟩

theorem takeReassembled (h : EveryHeld t) {capacity : Nat} {t' : FragmentReassembly} {asdu : List UInt8}
    (htake : t.takeReassembled srcAddr ieee apsCounter capacity = some (t', e, asdu)) : EveryHeld t' := by
  unfold FragmentReassembly.takeReassembled at htake
  cases hfind : t.findIdx? (fun e => e.matchesSession srcAddr ieee apsCounter && !e.delivered) with
  | none =>
    rw [hfind] at htake
    cases htake
  | some i =>
    obtain ⟨e₀, hi, -⟩ := Table.getElem?_of_findIdx? hfind
    rw [hfind] at htake
    dsimp only at htake
    rw [hi] at htake
    dsimp only at htake
    split at htake
    · cases htake
    · cases htake
      exact h.set (h e (List.mem_of_getElem? hi))

theorem finalizeDelivered (h : EveryHeld t) : EveryHeld t.finalizeDelivered := by
  intro x hx
  obtain ⟨e, he, rfl⟩ := List.mem_map.mp hx
  split
  · intro hactive
    cases hactive
  · exact h e he

theorem reset_held (e : ReassemblyEntry) :
    (if e.received = 0 then e.reset else e).active = true → (if e.received = 0 then e.reset else e).received ≠ 0 := by
  by_cases hzero : e.received = 0
  · rw [if_pos hzero]
    intro hactive
    cases hactive
  · rw [if_neg hzero]
    exact fun _ => hzero

theorem rollbackBlock (h : EveryHeld t) (block : Nat) : EveryHeld (ApsLayer.rollbackBlock t srcAddr apsCounter block) := by
  unfold ApsLayer.rollbackBlock
  split
  · exact h
  · rcases Table.modifyFirst_cases (fun e : ReassemblyEntry => e.active && e.srcAddr == srcAddr && e.apsCounter == apsCounter)
      _ t with ⟨i, e, -, -, -, hset⟩ | ⟨-, hsame⟩
    · rw [hset]
      exact h.set (reset_held _)
    · rw [hsame]
      exact h

/-- **A call leaves a session without a block** exactly where such a session is opened. -/
theorem after_iff (h : EveryHeld t) (op : ReassemblyOp) : EveryHeld (t.after op) ↔ ¬ OpensEmpty t op := by
  cases op with
  | insertBlock nowUs windowSize srcAddr srcIeee apsCounter fragmentation blockField payload => exact h.insertBlock_iff
  | takeReassembled srcAddr srcIeee apsCounter capacity =>
    refine iff_of_true ?_ id
    unfold after call
    dsimp only
    cases htake : t.takeReassembled srcAddr srcIeee apsCounter capacity with
    | none => exact h
    | some taken => exact h.takeReassembled htake
  | finalizeDelivered => exact iff_of_true h.finalizeDelivered id
  | rollbackBlock srcAddr apsCounter block => exact iff_of_true (h.rollbackBlock block) id

end EveryHeld

end Held

/-! ## The property -/

/-- Of any transactions that the table has room for, each is reassembled by the calls for them, and after
    each call every session in use holds a block. -/
def OrderIndependent (t : FragmentReassembly) (ops : List ReassemblyOp) : Prop :=
  (∀ {n : Nat} (T : Fin n → Transfer) (windowSize : Nat) (es : List (Arrival n)), Concurrent T t →
    Run.Along (fun s e => (expect T windowSize s e).1) (Arrival.Admissible T windowSize) (fun _ => .none) es →
    ops = es.map (Arrival.op T windowSize) →
    List.Forall₂ ReassemblyReply.Agrees (Run.outputs call t ops)
      (Run.outputs (expect T windowSize) (fun _ => .none) es)) ∧
  ∀ ops', ops' <+: ops → EveryHeld (Run.run after t ops')

/-- **Reassembly does not depend on the order of the blocks.**  A session is left empty exactly by a block
    beyond the window that opens one. -/
theorem order_independent_iff {t : FragmentReassembly} (h : EveryHeld t) (ops : List ReassemblyOp) :
    OrderIndependent t ops ↔ Run.Along after (fun t op => ¬ OpensEmpty t op) t ops := by
  have hstep : ∀ t op, EveryHeld t → (EveryHeld (after t op) ↔ ¬ OpensEmpty t op) :=
    fun _ op ht => EveryHeld.after_iff ht op
  rw [← Run.prefix_iff_along hstep h ops]
  refine and_iff_right ?_
  rintro n T windowSize es hconcurrent hes rfl
  exact Tracks.agrees hconcurrent hes

theorem EveryHeld.new : EveryHeld .new := by
  intro e he hactive
  rw [List.eq_of_mem_replicate he] at hactive
  cases hactive

section Instances

/-- Two originators that share the short address and the counter. -/
def twoOriginators (k : Fin 2) : Transfer where
  src := 0x1234
  ieee := .replicate 8 (if k.val = 0 then 0xA0 else 0xB0)
  counter := 7
  named := true
  blocks := if k.val = 0 then [[1, 2], [3]] else [[4], [5, 6]]
  blocks_pos := by revert k; decide
  blocks_le := by revert k; decide
  block_le := by revert k; decide
  fits := by revert k; decide

theorem twoOriginators_concurrent : Concurrent twoOriginators .new where
  apart i j hij := by
    refine Or.inr (Or.inr ⟨rfl, rfl, ?_⟩)
    revert i j
    decide
  foreign i e he := by
    rintro ⟨named, -, hmatch⟩
    rw [List.eq_of_mem_replicate he] at hmatch
    cases hmatch
  room := by decide

/-- The second blocks come first, and one of them comes twice. -/
def crossed : List (Arrival 2) :=
  [.block 0 1 true 0, .block 1 1 true 1, .block 1 0 true 2, .block 0 1 true 3, .take 0 true 256, .block 0 0 true 4,
    .take 1 true 256, .take 0 true 256]

theorem crossed_reassembled :
    Concurrent twoOriginators .new ∧ OrderIndependent .new (crossed.map (Arrival.op twoOriginators 2)) :=
  ⟨twoOriginators_concurrent, (order_independent_iff EveryHeld.new _).mpr (by decide +kernel)⟩

example : (Run.outputs call .new (crossed.map (Arrival.op twoOriginators 2))).filterMap
    (fun | .asdu asdu => some asdu | _ => none) = [none, some [4, 5, 6], some [1, 2, 3]] := by decide

/-- The receiver's window is of one block, and the second block overtakes the first. -/
theorem overtaking_block_holds_nothing :
    ¬ OrderIndependent .new [.insertBlock 0 1 0x1234 none 7 FRAG_SUBSEQUENT 1 [3]] := by
  intro h
  exact h.2 _ (List.prefix_refl _) _ (List.mem_of_getElem? (i := 0) rfl) rfl rfl

end Instances

end Zigbee.Aps
