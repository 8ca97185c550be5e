import Zigbee.Lib.Run
import Zigbee.Aps.FragmentTx
import Zigbee.Aps.Reassembly

/-!
# A fragmented transaction

The sender and the receiver of one fragmented transaction, and a medium that loses, duplicates and
reorders the blocks and the acknowledgements between them.  The two sides share the window size, and
the receiver's records of the transaction do not expire.

* `Session` — what the receiver's session holds: blocks of the payload, up to the end of its window.
* `RxInv.receive` — what a block of the transaction does to the receiver.
* `Sending` — what the sender's session knows of a transaction in flight.
* `Sending.applyAck` — what an acknowledgement does to the sender.
-/

namespace Zigbee.Aps

open FragmentReassembly ReassemblyEntry FragmentTxSession

/-- What the two sides of a transaction agree on before it. -/
structure Transaction where
  src : ShortAddress
  srcIeee : IeeeAddress
  dst : ShortAddress
  apsCounter : UInt8
  securityEnabled : Bool
  payload : List UInt8
  /-- `apsMaxWindowSize` of both. -/
  windowSize : Nat
  maxRetries : Nat

structure Exchange where
  tx : FragmentTx
  rx : FragmentRx
  /-- Every block, and every acknowledgement, that was ever sent. -/
  blocks : List FragmentFrame
  acks : List FragmentAck

inductive ExchangeOp where
  /-- The sender sends its lowest due block. -/
  | send (nowUs : UInt32) (canSecure : Bool)
  /-- The sender looks at its acknowledgement timer. -/
  | poll (nowUs : UInt32)
  /-- A block reaches the receiver, which may know the IEEE address of the sender. -/
  | deliverBlock (k : Nat) (nowUs : UInt32) (ieeeKnown : Bool)
  | deliverAck (k : Nat)
  /-- The receiver settles its last frame because another one came in. -/
  | otherFrame

namespace Transaction

def blockSize (t : Transaction) : Nat := fragmentBlockSize t.securityEnabled

def total (t : Transaction) : Nat := (t.payload.length + t.blockSize - 1) / t.blockSize

def window (t : Transaction) : Nat := clampWindowSize t.windowSize

def block (t : Transaction) (b : Nat) : List UInt8 := (t.payload.drop (b * t.blockSize)).take t.blockSize

def frame (t : Transaction) (b : Nat) : FragmentFrame :=
  if b = 0 then ⟨FRAG_FIRST, t.total, t.block 0⟩ else ⟨FRAG_SUBSEQUENT, b, t.block b⟩

/-- The sender starts the transaction, and the receiver has heard of none. -/
def start (t : Transaction) (nowUs : UInt32) (keyFound : Bool) : Except ApsStatus Exchange :=
  match FragmentTx.start ⟨none, none⟩ nowUs true true t.securityEnabled keyFound t.dst t.apsCounter t.payload
      t.windowSize t.maxRetries with
  | .ok tx => .ok ⟨tx, .new, [], []⟩
  | .error status => .error status

def step (t : Transaction) (x : Exchange) : ExchangeOp → Exchange
  | .send nowUs canSecure =>
    match x.tx.nextDueFragment nowUs canSecure with
    | (tx, some frame) => { x with tx := tx, blocks := x.blocks ++ [frame] }
    | (tx, none) => { x with tx := tx }
  | .poll nowUs => { x with tx := x.tx.pollTimeout nowUs }
  | .deliverBlock k nowUs ieeeKnown =>
    match x.blocks[k]? with
    | none => x
    | some f =>
      match x.rx.settle.receiveFragment nowUs t.windowSize t.src (if ieeeKnown then some t.srcIeee else none) t.apsCounter
          f.fragmentation f.blockNumber f.payload with
      | (rx, some a) => { x with rx := rx, acks := x.acks ++ [a] }
      | (rx, none) => { x with rx := rx }
  | .deliverAck k =>
    match x.acks[k]? with
    | none => x
    | some a =>
      { x with tx := (x.tx.handleAck t.dst t.apsCounter a.windowStart (some a.bitfield) t.securityEnabled).1 }
  | .otherFrame => { x with rx := x.rx.settle }

/-! ## The payload and its blocks -/

section Blocks

variable {t : Transaction}

theorem blockSize_pos (t : Transaction) : 0 < t.blockSize := by
  unfold blockSize fragmentBlockSize
  split <;> decide

theorem flatMap_blocks (t : Transaction) (n : Nat) : (List.range n).flatMap t.block = t.payload.take (n * t.blockSize) := by
  induction n with
  | zero => simp
  | succ n ih =>
    rw [List.range_succ, List.flatMap_append, ih, List.flatMap_singleton, block, Nat.succ_mul, List.take_add]

theorem flatMap_blocks_total (t : Transaction) : (List.range t.total).flatMap t.block = t.payload := by
  rw [flatMap_blocks]
  apply List.take_of_length_le
  have hpos := t.blockSize_pos
  have hdiv := Nat.div_add_mod (t.payload.length + t.blockSize - 1) t.blockSize
  have hmod := Nat.mod_lt (t.payload.length + t.blockSize - 1) hpos
  rw [total, Nat.mul_comm]
  omega

/-- The lengths of the blocks add up to the payload's. -/
theorem sum_blocks (t : Transaction) : (∑ b ∈ Finset.range t.total, (t.block b).length) = t.payload.length := by
  rw [sum_length_range, t.flatMap_blocks_total]

theorem length_block_le (t : Transaction) (b : Nat) : (t.block b).length ≤ t.blockSize := by
  rw [block, List.length_take]
  omega

end Blocks

end Transaction

/-! ## The receiver's session -/

/-- What the receiver's session holds of a transaction. -/
structure Session (t : Transaction) (e : ReassemblyEntry) : Prop where
  has_lt : ∀ {b}, e.has b = true → b < t.total
  /-- Nothing beyond the window is held, and everything before it is. -/
  has_window : ∀ {b}, e.has b = true → b < e.windowStart + t.window
  has_before : ∀ {b}, b < e.windowStart → e.has b = true
  window_lt : e.windowStart < t.total
  window_dvd : t.window ∣ e.windowStart
  total_eq : e.totalBlocks = 0 ∨ e.totalBlocks = t.total
  total_known : e.has 0 = true → e.totalBlocks = t.total
  /-- Every block that is held is found in the buffer. -/
  stored : ∀ {b}, e.has b = true → (e.data.drop (e.blockOffset b)).take (e.blockLen b) = t.block b
  inside : ∀ {b}, e.has b = true → e.blockOffset b + e.blockLen b ≤ e.data.length
  length_eq : e.data.length = ∑ b ∈ (Finset.range t.total).filter (fun b => e.has b = true), (t.block b).length

variable {rest : List ReassemblyEntry} {rx : FragmentRx}

section Receiver

variable {t : Transaction} {e e' : ReassemblyEntry} {b : Nat} {nowUs : UInt32} {ieee : Option IeeeAddress}

/-- A complete session holds the payload. -/
theorem Session.asdu_eq (h : Session t e) (hcomplete : e.isComplete = true) : e.asdu = t.payload := by
  obtain ⟨hne, hall⟩ := isComplete_iff.mp hcomplete
  have htotal : e.totalBlocks = t.total := h.total_eq.resolve_left hne
  rw [← t.flatMap_blocks_total, asdu, htotal]
  apply List.flatMap_congr
  intro b hb
  exact h.stored (hall b (by rw [htotal]; exact List.mem_range.mp hb))

theorem Session.opened (t : Transaction) (htotal : 2 ≤ t.total) (e : ReassemblyEntry) (nowUs : UInt32) (src : ShortAddress)
    (ieee : Option IeeeAddress) (counter : UInt8) : Session t (e.opened nowUs src ieee counter) := by
  have hnone : ∀ b, (e.opened nowUs src ieee counter).has b = false := by
    intro b
    simp [ReassemblyEntry.has, ReassemblyEntry.opened, ReassemblyEntry.reset]
  constructor
  case window_lt => exact Nat.lt_of_lt_of_le Nat.zero_lt_two htotal
  case window_dvd => exact dvd_zero _
  case total_eq => exact Or.inl rfl
  case has_before => exact fun h => absurd h (Nat.not_lt_zero _)
  case length_eq =>
    rw [Finset.filter_false_of_mem fun b _ => by rw [hnone b]; exact Bool.false_ne_true]
    rfl
  all_goals
    intros
    simp_all

theorem Transaction.window_pos (t : Transaction) : 0 < t.window := clampWindowSize_pos t.windowSize

theorem Transaction.window_le (t : Transaction) : t.window ≤ APS_MAX_WINDOW_SIZE := clampWindowSize_le t.windowSize

/-- The block count that a block announces. -/
def Transaction.announced (t : Transaction) (b : Nat) : Option Nat := if b = 0 then some t.total else none

theorem Transaction.blockOf_frame (hmax : t.total ≤ APS_MAX_FRAGMENT_BLOCKS) (hb : b < t.total) :
    blockOf (t.frame b).fragmentation (t.frame b).blockNumber (t.frame b).payload =
      some (b, t.announced b) := by
  have hlen : ¬ 255 < (t.block b).length := by
    have hsize : t.blockSize ≤ 64 := by
      unfold Transaction.blockSize fragmentBlockSize
      split <;> decide
    have := t.length_block_le b
    omega
  unfold Transaction.frame Transaction.announced blockOf
  by_cases h0 : b = 0
  · subst h0
    simp only [if_true]
    rw [if_neg (by omega), if_neg hlen]
  · simp only [if_neg h0]
    rw [if_neg (by decide), if_pos trivial, if_neg (by omega), if_neg hlen]

/-- The session is the transaction's: the address it was opened with, and an IEEE address that is the
    sender's if it is known. -/
structure ReassemblyEntry.Belongs (e : ReassemblyEntry) (t : Transaction) : Prop where
  active : e.active = true
  fresh : e.delivered = false
  addr : e.srcAddr = t.src
  counter : e.apsCounter = t.apsCounter
  ieee : e.srcIeee = none ∨ e.srcIeee = some t.srcIeee

/-- The acknowledgement that follows a block that was taken. -/
def ReassemblyEntry.outcome (e : ReassemblyEntry) (t : Transaction) (b : Nat) (stored : Bool) : FragmentOutcome :=
  if e.isComplete then .complete (e.ack (t.frame b).fragmentation t.window)
  else
    .pending (if e.hasAll (b + 1) (e.windowEnd t.window) then some (e.ack (t.frame b).fragmentation t.window) else none)
      stored

/-- The block is before the receiver's window, or after it while the window is not complete. -/
def Outside (t : Transaction) (e : ReassemblyEntry) (b : Nat) : Prop :=
  b < e.windowStart ∨ (e.windowStart + t.window ≤ b ∧
    ((∃ i, e.windowStart ≤ i ∧ i < e.windowStart + t.window ∧ e.has i = false) ∨ e.totalBlocks = 0 ∨
      e.windowStart + 2 * t.window ≤ b))

/-- The session takes a block of its window, or of the next one once its own is complete. -/
structure Takes (t : Transaction) (e e' : ReassemblyEntry) (b : Nat) : Prop where
  has_iff : ∀ i, e'.has i = (e.has i || b == i)
  start : (e'.windowStart = e.windowStart ∧ e.windowStart ≤ b) ∨ (e'.windowStart = e.windowStart + t.window ∧ e'.windowStart ≤ b)
  lt : b < e'.windowStart + t.window

/-- The blocks of a transaction that a session can take. -/
def Transaction.fragmented (t : Transaction) (hpos : 0 < t.total) (hmax : t.total ≤ APS_MAX_FRAGMENT_BLOCKS)
    (hfits : t.payload.length ≤ APS_MAX_FRAGMENTED_ASDU) : Fragmented where
  total := t.total
  block := t.block
  window := t.window
  total_pos := hpos
  total_le := hmax
  window_pos := t.window_pos
  window_le := t.window_le
  fits := t.sum_blocks.trans_le hfits

/-- **What a session makes of a block of its transaction.** -/
theorem Session.offer (h : Session t e) (hbelongs : e.Belongs t) (hfits : t.payload.length ≤ APS_MAX_FRAGMENTED_ASDU)
    (hmax : t.total ≤ APS_MAX_FRAGMENT_BLOCKS) (hb : b < t.total) (hieee : ieee = none ∨ ieee = some t.srcIeee)
    (nowUs : UInt32) :
    ∃ e' outcome, e.offer nowUs t.window ieee (t.frame b).fragmentation b (t.announced b) (t.block b) = (e', outcome) ∧
      Session t e' ∧ e'.Belongs t ∧
      ((Outside t e b ∧ e'.received = e.received ∧ e'.windowStart = e.windowStart ∧ outcome = .pending none false) ∨
        (Takes t e e' b ∧ ∃ stored, outcome = e'.outcome t b stored)) := by
  have hassembly : Assembly (t.fragmented (Nat.zero_lt_of_lt hb) hmax hfits) e := { h with }
  obtain ⟨e', outcome, hoffer, hassembly', hbecomes, hout⟩ :=
    hassembly.offer hbelongs.fresh hb nowUs ieee (t.frame b).fragmentation
  have hieee' : e'.srcIeee = none ∨ e'.srcIeee = some t.srcIeee := by
    rw [hbecomes.ieee]
    rcases hbelongs.ieee with hnone | hsome
    · rw [hnone]
      exact hieee
    · rw [hsome]
      exact Or.inr rfl
  refine ⟨e', outcome, hoffer, { hassembly' with }, ⟨hbecomes.active.trans hbelongs.active,
    hbecomes.delivered.trans hbelongs.fresh, hbecomes.addr.trans hbelongs.addr, hbecomes.counter.trans hbelongs.counter,
    hieee'⟩, ?_⟩
  rcases hout with hout | ⟨htakes, hstored⟩
  · exact Or.inl hout
  · exact Or.inr ⟨{ htakes with }, hstored⟩

/-- The bits of an acknowledgement within the window and the transaction are the blocks that are held. -/
theorem Session.ack_bit (h : Session t e) (hmax : t.total ≤ APS_MAX_FRAGMENT_BLOCKS) (fragmentation : UInt8) {bit : Nat}
    (hbit : bit < t.window) (hlt : e.windowStart + bit < t.total) :
    (e.ack fragmentation t.window).bitfield.getLsbD bit = e.has (e.windowStart + bit) := by
  have hwindow := t.window_le
  have hbit' : bit < APS_MAX_WINDOW_SIZE := by omega
  have hnot : (e.totalBlocks != 0 && decide (e.totalBlocks ≤ e.windowStart + bit)) = false := by
    rcases h.total_eq with hzero | htotal
    · rw [hzero]
      rfl
    · rw [htotal, decide_eq_false (by omega), Bool.and_false]
  have hackBit : e.ackBit t.window bit = e.has (e.windowStart + bit) := by
    unfold ackBit
    dsimp only
    rw [decide_eq_false (by omega), hnot, decide_eq_true (show e.windowStart + bit < APS_MAX_FRAGMENT_BLOCKS by omega)]
    rfl
  rw [ReassemblyEntry.ack]
  dsimp only
  rw [BitSet.getLsbD_foldl_insert, ← hackBit]
  · rw [Bool.eq_iff_iff]
    simp [hbit']
  · intro i hi
    exact List.mem_range.mp (List.mem_filter.mp hi).1

/-- What the receiver holds of the transaction: nothing, an open session, or the session that it has
    handed up. -/
inductive RxInv (t : Transaction) : FragmentRx → Prop
  | idle {e : ReassemblyEntry} {rest : List ReassemblyEntry} (hrest : ∀ x ∈ rest, x.active = false) (he : e.active = false) :
      RxInv t ⟨e :: rest, none, []⟩
  | collecting {e : ReassemblyEntry} {rest : List ReassemblyEntry} (hrest : ∀ x ∈ rest, x.active = false)
      (hs : Session t e) (hb : e.Belongs t) (hopen : e.isComplete = false) : RxInv t ⟨e :: rest, none, []⟩
  | done {d e : ReassemblyEntry} {rest : List ReassemblyEntry} (hrest : ∀ x ∈ rest, x.active = false)
      (hs : Session t d) (hcomplete : d.isComplete = true) (he : e.active = true → e.delivered = true) :
      RxInv t ⟨e :: rest, some d.windowStart, [(d, t.payload)]⟩

/-- The session of the transaction; an empty one before its first block. -/
def FragmentRx.view (rx : FragmentRx) : ReassemblyEntry :=
  match rx.handedUp with
  | (e, _) :: _ => e
  | [] => (rx.reassembly.find? (·.active)).getD .empty

theorem view_idle (hrest : ∀ x ∈ rest, x.active = false) (he : e.active = false) : FragmentRx.view ⟨e :: rest, none, []⟩ = .empty := by
  have hnone : (e :: rest).find? (·.active) = none := by
    rw [List.find?_eq_none]
    intro x hx
    rcases List.mem_cons.mp hx with rfl | hx
    · rw [he]
      exact Bool.false_ne_true
    · rw [hrest x hx]
      exact Bool.false_ne_true
  dsimp only [FragmentRx.view]
  rw [hnone]
  rfl

theorem view_collecting {dup : Option Nat} (he : e.active = true) : FragmentRx.view ⟨e :: rest, dup, []⟩ = e := by
  dsimp only [FragmentRx.view]
  rw [List.find?_cons_of_pos he]
  rfl

theorem session_empty (htotal : 2 ≤ t.total) : Session t .empty := by
  have h := Session.opened t htotal .empty 0 0 none 0
  exact { h with }

theorem RxInv.session (h : RxInv t rx) (htotal : 2 ≤ t.total) : Session t rx.view := by
  cases h with
  | idle hrest he =>
    rw [view_idle hrest he]
    exact session_empty htotal
  | collecting hrest hs hb hopen =>
    rw [view_collecting hb.active]
    exact hs
  | done hrest hs hcomplete he => exact hs

theorem finalizeDelivered_rest (hrest : ∀ x ∈ rest, x.active = false) : finalizeDelivered rest = rest := by
  unfold finalizeDelivered
  conv_rhs => rw [← List.map_id rest]
  apply List.map_congr_left
  intro x hx
  rw [hrest x hx]
  rfl

/-- Settling the last frame changes nothing that the transaction sees. -/
theorem RxInv.settle (h : RxInv t rx) : RxInv t rx.settle ∧ rx.settle.view = rx.view := by
  unfold FragmentRx.settle
  cases h with
  | @idle e rest hrest he =>
    have hsame : finalizeDelivered (e :: rest) = e :: rest :=
      finalizeDelivered_rest (List.forall_mem_cons.mpr ⟨he, hrest⟩)
    rw [hsame]
    exact ⟨.idle hrest he, rfl⟩
  | @collecting e rest hrest hs hb hopen =>
    have hsame : finalizeDelivered (e :: rest) = e :: rest := by
      have hr := finalizeDelivered_rest hrest
      unfold finalizeDelivered at hr ⊢
      rw [List.map_cons, hr, hb.fresh, Bool.and_false]
      rfl
    rw [hsame]
    exact ⟨.collecting hrest hs hb hopen, rfl⟩
  | @done d e rest hrest hs hcomplete he =>
    have hsame : finalizeDelivered (e :: rest) = (if e.active && e.delivered then e.reset else e) :: rest := by
      have hr := finalizeDelivered_rest hrest
      unfold finalizeDelivered at hr ⊢
      rw [List.map_cons, hr]
    rw [hsame]
    refine ⟨.done hrest hs hcomplete ?_, rfl⟩
    split
    · intro hactive
      cases hactive
    · exact he

theorem ReassemblyEntry.Belongs.matchesSession (h : e.Belongs t) (hieee : ieee = none ∨ ieee = some t.srcIeee) :
    e.matchesSession t.src ieee t.apsCounter = true := by
  unfold ReassemblyEntry.matchesSession
  rw [h.active, h.addr, h.counter, beq_self_eq_true, beq_self_eq_true]
  rcases h.ieee with hknown | hknown <;> rcases hieee with rfl | rfl <;> rw [hknown] <;> simp

theorem ReassemblyEntry.opened_belongs (e : ReassemblyEntry) (nowUs : UInt32) (hieee : ieee = none ∨ ieee = some t.srcIeee) :
    (e.opened nowUs t.src ieee t.apsCounter).Belongs t := ⟨rfl, rfl, rfl, rfl, hieee⟩

/-- The session that a block of the transaction meets, at the head of the table. -/
theorem insertBlock_head (hrest : ∀ x ∈ rest, x.active = false) (hmax : t.total ≤ APS_MAX_FRAGMENT_BLOCKS) (hb : b < t.total)
    (hieee : ieee = none ∨ ieee = some t.srcIeee) (nowUs : UInt32) {e₀ e' : ReassemblyEntry} {outcome : FragmentOutcome}
    (he : (e.Belongs t ∧ e₀ = e) ∨ (e.active = false ∧ e₀ = e.opened nowUs t.src ieee t.apsCounter))
    (hoffer : e₀.offer nowUs t.window ieee (t.frame b).fragmentation b (t.announced b) (t.block b) = (e', outcome))
    (hrejected : outcome ≠ .rejected) :
    insertBlock (e :: rest) nowUs t.windowSize t.src ieee t.apsCounter (t.frame b).fragmentation
      (t.frame b).blockNumber (t.frame b).payload = (e' :: rest, outcome) := by
  have hpayload : (t.frame b).payload = t.block b := by
    unfold Transaction.frame
    split
    · rename_i h
      rw [h]
    · rfl
  have hinner : insertBlockInner (e :: rest) nowUs t.windowSize t.src ieee t.apsCounter
      (t.frame b).fragmentation (t.frame b).blockNumber (t.frame b).payload = (e' :: rest, outcome) := by
    unfold insertBlockInner
    rw [Transaction.blockOf_frame hmax hb, hpayload]
    dsimp only
    rcases he with ⟨hbelongs, rfl⟩ | ⟨hidle, rfl⟩
    · rw [List.findIdx?_cons, hbelongs.matchesSession hieee]
      simp only [if_true, List.getElem?_cons_zero, Option.map_some]
      rw [show clampWindowSize t.windowSize = t.window from rfl, hoffer]
      rfl
    · have hnone : (e :: rest).findIdx? (·.matchesSession t.src ieee t.apsCounter) = none := by
        rw [List.findIdx?_eq_none_iff]
        intro x hx
        have hx : x.active = false := by
          rcases List.mem_cons.mp hx with rfl | hx
          · exact hidle
          · exact hrest x hx
        simp only [ReassemblyEntry.matchesSession, hx, Bool.false_and]
      rw [hnone]
      dsimp only
      rw [List.findIdx?_cons, hidle]
      simp only [Bool.not_false, if_true, List.getElem?_cons_zero, Option.map_some]
      rw [show clampWindowSize t.windowSize = t.window from rfl, hoffer]
      rfl
  unfold insertBlock
  rw [hinner]
  cases outcome with
  | pending ack stored => rfl
  | complete ack => rfl
  | rejected => exact absurd rfl hrejected

/-- The acknowledgement that a block which was taken calls for. -/
def ReassemblyEntry.ackFor (e : ReassemblyEntry) (t : Transaction) (b : Nat) : Option FragmentAck :=
  if e.isComplete || e.hasAll (b + 1) (e.windowEnd t.window) then some (e.ack (t.frame b).fragmentation t.window) else none

/-- What a block of the transaction does to the receiver whose session was `e`. -/
inductive Receives (t : Transaction) (e : ReassemblyEntry) (rx' : FragmentRx) (b : Nat) : Option FragmentAck → Prop
  /-- The transaction was handed up before: the last acknowledgement is repeated. -/
  | again (hcomplete : e.isComplete = true) (hview : rx'.view = e) :
      Receives t e rx' b (some ⟨(t.frame b).fragmentation, e.windowStart, 0xFF⟩)
  | ignored (hopen : e.isComplete = false) (houtside : Outside t e b) (hreceived : rx'.view.received = e.received)
      (hstart : rx'.view.windowStart = e.windowStart) : Receives t e rx' b none
  | taken (hopen : e.isComplete = false) (htakes : Takes t e rx'.view b) : Receives t e rx' b (rx'.view.ackFor t b)

theorem Session.data_le (h : Session t e) : e.data.length ≤ t.payload.length := by
  rw [h.length_eq, ← t.sum_blocks]
  exact Finset.sum_le_sum_of_subset (Finset.filter_subset _ _)

/-- A block at a receiver whose session stands at the head of its table. -/
theorem receive_head (hrest : ∀ x ∈ rest, x.active = false) (hfits : t.payload.length ≤ APS_MAX_FRAGMENTED_ASDU)
    (hmax : t.total ≤ APS_MAX_FRAGMENT_BLOCKS) (hb : b < t.total) (hieee : ieee = none ∨ ieee = some t.srcIeee) {nowUs : UInt32}
    {e₀ : ReassemblyEntry} (hs : Session t e₀) (hb₀ : e₀.Belongs t) (hopen : e₀.isComplete = false)
    (he : (e.Belongs t ∧ e₀ = e) ∨ (e.active = false ∧ e₀ = e.opened nowUs t.src ieee t.apsCounter)) :
    ∃ rx' ack, FragmentRx.receiveFragment ⟨e :: rest, none, []⟩ nowUs t.windowSize t.src ieee t.apsCounter
        (t.frame b).fragmentation (t.frame b).blockNumber (t.frame b).payload = (rx', ack) ∧ RxInv t rx' ∧
      Receives t e₀ rx' b ack := by
  obtain ⟨e', outcome, hoffer, hs', hb', hcases⟩ := hs.offer hb₀ hfits hmax hb hieee nowUs
  unfold FragmentRx.receiveFragment
  dsimp only
  rcases hcases with ⟨houtside, hreceived, hstart, rfl⟩ | ⟨htakes, stored, rfl⟩
  · rw [insertBlock_head hrest hmax hb hieee nowUs he hoffer (by simp)]
    dsimp only
    have hopen' : e'.isComplete = false := by
      rw [Bool.eq_false_iff] at hopen ⊢
      intro hcomplete
      apply hopen
      obtain ⟨hne, hall⟩ := isComplete_iff.mp hcomplete
      have hhas : ∀ i, e₀.has i = e'.has i := fun i => by rw [ReassemblyEntry.has, ← hreceived]; rfl
      rw [hs'.total_eq.resolve_left hne] at hall
      rw [isComplete_iff]
      have h0 : e₀.totalBlocks = t.total := hs.total_known (by rw [hhas]; exact hall 0 (by omega))
      rw [h0]
      exact ⟨by omega, fun i hi => by rw [hhas]; exact hall i hi⟩
    refine ⟨_, _, rfl, .collecting hrest hs' hb' hopen', .ignored hopen houtside ?_ ?_⟩
    · rw [view_collecting hb'.active]
      exact hreceived
    · rw [view_collecting hb'.active]
      exact hstart
  · cases hcomplete : e'.isComplete with
    | false =>
      have hout : e'.outcome t b stored = .pending (e'.ackFor t b) stored := by
        rw [outcome, ackFor, hcomplete, Bool.false_or]
        rfl
      rw [hout] at hoffer
      rw [insertBlock_head hrest hmax hb hieee nowUs he hoffer (by simp)]
      dsimp only
      refine ⟨_, _, rfl, .collecting hrest hs' hb' hcomplete, ?_⟩
      have hview : FragmentRx.view ⟨e' :: rest, none, []⟩ = e' := view_collecting hb'.active
      rw [← hview] at htakes
      have hreceives := Receives.taken hopen htakes
      rw [hview] at hreceives
      exact hreceives
    | true =>
      have hout : e'.outcome t b stored = .complete (e'.ack (t.frame b).fragmentation t.window) := by
        rw [outcome, hcomplete]
        rfl
      rw [hout] at hoffer
      rw [insertBlock_head hrest hmax hb hieee nowUs he hoffer (by simp)]
      have htake : takeReassembled (e' :: rest) t.src ieee t.apsCounter APS_MAX_FRAGMENTED_ASDU =
          some ({ e' with delivered := true } :: rest, e', e'.asdu) := by
        have hdata := hs'.data_le
        have hfit : decide (APS_MAX_FRAGMENTED_ASDU < e'.data.length) = false := decide_eq_false (by omega)
        unfold takeReassembled
        rw [List.findIdx?_cons, hb'.matchesSession hieee, hb'.fresh]
        simp only [Bool.not_false, Bool.and_self, if_true, List.getElem?_cons_zero, hcomplete, hfit, Bool.not_true,
          Bool.or_self, Bool.false_eq_true, if_false]
        rfl
      dsimp only
      rw [htake]
      dsimp only
      rw [hs'.asdu_eq hcomplete]
      refine ⟨_, _, rfl, .done hrest hs' hcomplete fun _ => rfl, ?_⟩
      have hack : e'.ackFor t b = some (e'.ack (t.frame b).fragmentation t.window) := by
        rw [ackFor, hcomplete]
        rfl
      rw [← hack]
      exact Receives.taken hopen htakes

/-- **A block of the transaction at the receiver.** -/
theorem RxInv.receive (h : RxInv t rx) (hfits : t.payload.length ≤ APS_MAX_FRAGMENTED_ASDU) (htotal : 2 ≤ t.total)
    (hmax : t.total ≤ APS_MAX_FRAGMENT_BLOCKS) (hb : b < t.total) (hieee : ieee = none ∨ ieee = some t.srcIeee) (nowUs : UInt32) :
    ∃ rx' ack, rx.receiveFragment nowUs t.windowSize t.src ieee t.apsCounter (t.frame b).fragmentation
        (t.frame b).blockNumber (t.frame b).payload = (rx', ack) ∧ RxInv t rx' ∧ Receives t rx.view rx' b ack := by
  cases h with
  | @idle e rest hrest he =>
    obtain ⟨rx', ack, hreceive, hinv, hreceives⟩ := receive_head (e := e) hrest hfits hmax hb hieee
      (Session.opened t htotal e nowUs t.src ieee t.apsCounter) (e.opened_belongs nowUs hieee) rfl (Or.inr ⟨he, rfl⟩)
    refine ⟨rx', ack, hreceive, hinv, ?_⟩
    rw [view_idle hrest he]
    -- An opened session and the empty one agree in everything but their owner.
    cases hreceives with
    | again hcomplete _ => cases hcomplete
    | ignored hopen houtside hreceived hstart => exact .ignored rfl houtside hreceived hstart
    | taken hopen htakes => exact .taken rfl ⟨htakes.has_iff, htakes.start, htakes.lt⟩
  | @collecting e rest hrest hs hb' hopen =>
    rw [view_collecting hb'.active]
    exact receive_head hrest hfits hmax hb hieee hs hb' hopen (Or.inl ⟨hb', rfl⟩)
  | @done d e rest hrest hs hcomplete he =>
    exact ⟨_, _, rfl, .done hrest hs hcomplete he, .again hcomplete rfl⟩

end Receiver

/-! ## The sender's session -/

/-- What the sender's session knows of a transaction in flight. -/
structure Sending (t : Transaction) (s : FragmentTxSession) : Prop where
  owner : s.dst = t.dst ∧ s.apsCounter = t.apsCounter ∧ s.secured = t.securityEnabled
  payload_eq : s.payload = t.payload ∧ s.blockSize = t.blockSize
  total_eq : s.total = t.total
  window_eq : s.windowSize = t.window
  window_lt : s.windowStart < t.total
  window_dvd : t.window ∣ s.windowStart
  acked_lt : ∀ {b}, s.acked.getLsbD b = true → b < s.windowEnd
  acked_before : ∀ {b}, b < s.windowStart → s.acked.getLsbD b = true
  due_window : ∀ {b}, s.due.getLsbD b = true → s.windowStart ≤ b ∧ b < s.windowEnd
  waiting_due : s.waiting = true → s.due = 0
  /-- A block of the window is missing. -/
  missing : ∃ b, s.windowStart ≤ b ∧ b < s.windowEnd ∧ s.acked.getLsbD b = false

section Sender

variable {t : Transaction} {s s' : FragmentTxSession} {b : Nat}

/-- The end of the window, without saturation. -/
theorem windowEnd_eq (hmax : t.total ≤ APS_MAX_FRAGMENT_BLOCKS) (htotal : s.total = t.total) (hwindow : s.windowSize = t.window)
    (hstart : s.windowStart < t.total) : s.windowEnd = min (s.windowStart + t.window) t.total := by
  have hw := t.window_le
  unfold FragmentTxSession.windowEnd saturatingAdd8
  simp only [APS_MAX_FRAGMENT_BLOCKS, APS_MAX_WINDOW_SIZE] at hmax hw
  omega

theorem Sending.windowEnd (h : Sending t s) (hmax : t.total ≤ APS_MAX_FRAGMENT_BLOCKS) :
    s.windowEnd = min (s.windowStart + t.window) t.total :=
  windowEnd_eq hmax h.total_eq h.window_eq h.window_lt

theorem Sending.frame_eq (h : Sending t s) (b : Nat) : s.frame b = t.frame b := by
  unfold frame Transaction.frame block Transaction.block
  rw [h.total_eq, h.payload_eq.1, h.payload_eq.2]

/-- The lowest block of the window that is missing. -/
theorem Sending.lowest (h : Sending t s) :
    ∃ b, s.lowestUnackedInWindow = some b ∧ s.windowStart ≤ b ∧ b < s.windowEnd ∧ s.acked.getLsbD b = false := by
  obtain ⟨i, hlo, hhi, hi⟩ := h.missing
  cases hfind : s.lowestUnackedInWindow with
  | none =>
    have := List.find?_eq_none.mp hfind i (List.mem_range'_1.mpr ⟨hlo, by omega⟩)
    rw [hi] at this
    exact absurd rfl this
  | some b =>
    have hmem := List.mem_range'_1.mp (List.mem_of_find?_eq_some hfind)
    have hb := List.find?_some hfind
    exact ⟨b, rfl, hmem.1, by omega, by simpa using hb⟩

/-- Making a missing block due keeps everything else. -/
theorem Sending.resend (h : Sending t s) (hmax : t.total ≤ APS_MAX_FRAGMENT_BLOCKS) (hwaiting : s.waiting = false) :
    Sending t s.resendLowest ∧ s.resendLowest = { s with due := s.resendLowest.due } := by
  obtain ⟨b, hlowest, hlo, hhi, hb⟩ := h.lowest
  have hend := h.windowEnd hmax
  have hresend : s.resendLowest = { s with due := BitSet.insert s.due b } := by
    rw [resendLowest, hlowest]
  rw [hresend]
  refine ⟨{ h with due_window := ?_, waiting_due := ?_ }, rfl⟩
  · intro i hi
    dsimp only at hi
    rw [BitSet.getLsbD_insert _ (by simp only [APS_MAX_FRAGMENT_BLOCKS] at hmax; omega), Bool.or_eq_true, beq_iff_eq] at hi
    rcases hi with hi | rfl
    · exact h.due_window hi
    · exact ⟨hlo, hhi⟩
  · intro hw
    dsimp only at hw
    rw [hwaiting] at hw
    cases hw

theorem getLsbD_allMask (s : FragmentTxSession) {i : Nat} (hi : i < 16) : s.allMask.getLsbD i = decide (i < s.total) := by
  unfold allMask
  split
  · rw [BitVec.getLsbD_allOnes, decide_eq_true hi, decide_eq_true (by omega)]
  · rename_i h
    have hpow : 2 ^ s.total < 2 ^ 16 := Nat.pow_lt_pow_right (by decide) (by omega)
    have hnat : (BitVec.twoPow 16 s.total - 1).toNat = 2 ^ s.total - 1 := by
      have hpos : 0 < 2 ^ s.total := Nat.two_pow_pos _
      rw [BitVec.toNat_sub, BitVec.toNat_twoPow, Nat.mod_eq_of_lt hpow, show BitVec.toNat (1 : BitVec 16) = 1 from rfl]
      omega
    rw [BitVec.getLsbD, hnat, Nat.testBit_two_pow_sub_one]

/-- The transaction is complete when every block is acknowledged. -/
theorem complete_iff (hmax : t.total ≤ APS_MAX_FRAGMENT_BLOCKS) (htotal : s.total = t.total)
    (hacked : ∀ {b}, s.acked.getLsbD b = true → b < t.total) :
    s.complete = true ↔ ∀ b, b < t.total → s.acked.getLsbD b = true := by
  simp only [APS_MAX_FRAGMENT_BLOCKS] at hmax
  rw [complete, beq_iff_eq]
  constructor
  · intro h b hb
    rw [h, getLsbD_allMask s (by omega), htotal]
    exact decide_eq_true hb
  · intro h
    apply BitVec.eq_of_getLsbD_eq
    intro i hi
    rw [getLsbD_allMask s hi, htotal, Bool.eq_iff_iff, decide_eq_true_eq]
    exact ⟨hacked, h i⟩

theorem takeWhile_range {p : Nat → Bool} {n k : Nat} (hp : ∀ i < n, p i = decide (i < k)) :
    (List.range n).takeWhile p = List.range (min n k) := by
  induction n with
  | zero => simp
  | succ n ih =>
    rw [List.range_succ, List.takeWhile_append, ih fun i hi => hp i (by omega), List.length_range, List.length_range]
    by_cases hk : n < k
    · rw [if_pos (by omega), show min (n + 1) k = n + 1 by omega, List.range_succ,
        List.takeWhile_cons_of_pos (by rw [hp n (by omega)]; exact decide_eq_true hk)]
      rfl
    · by_cases hnk : n = k
      · rw [if_pos (by omega), List.takeWhile_cons_of_neg (by rw [hp n (by omega)]; simpa using by omega),
          List.append_nil, show min (n + 1) k = n by omega]
      · rw [if_neg (by omega), show min (n + 1) k = min n k by omega]

/-- The blocks of the window that an acknowledgement names. -/
theorem Sending.mem_newlyAcked (h : Sending t s) (hmax : t.total ≤ APS_MAX_FRAGMENT_BLOCKS) (bitfield : BitVec 8) (i : Nat) :
    i ∈ s.newlyAcked bitfield ↔
      (s.windowStart ≤ i ∧ i < s.windowEnd) ∧ bitfield.getLsbD (i - s.windowStart) = true ∧ s.acked.getLsbD i = false := by
  have hend := h.windowEnd hmax
  have hw := t.window_le
  have hlt := h.window_lt
  simp only [APS_MAX_FRAGMENT_BLOCKS, APS_MAX_WINDOW_SIZE] at hmax hw
  have hsat : ∀ bit, bit < t.window → saturatingAdd8 s.windowStart bit = s.windowStart + bit := by
    intro bit hbit
    unfold saturatingAdd8
    omega
  have htake : (List.range s.windowSize).takeWhile (fun bit => decide (saturatingAdd8 s.windowStart bit < s.total)) =
      List.range (s.windowEnd - s.windowStart) := by
    rw [takeWhile_range (k := t.total - s.windowStart), h.window_eq]
    · congr 1
      omega
    · intro bit hbit
      rw [h.window_eq] at hbit
      rw [hsat bit hbit, h.total_eq, Bool.eq_iff_iff, decide_eq_true_eq, decide_eq_true_eq]
      omega
  unfold newlyAcked
  rw [htake, List.mem_map]
  simp only [List.mem_filter, List.mem_range, Bool.and_eq_true, Bool.not_eq_true']
  constructor
  · rintro ⟨bit, ⟨hbit, hfield, hacked⟩, rfl⟩
    rw [hsat bit (by omega)] at hacked ⊢
    refine ⟨by omega, ?_, hacked⟩
    rwa [Nat.add_sub_cancel_left]
  · rintro ⟨hin, hfield, hacked⟩
    refine ⟨i - s.windowStart, ⟨by omega, hfield, ?_⟩, ?_⟩
    · rw [hsat _ (by omega), Nat.add_sub_cancel' hin.1]
      exact hacked
    · rw [hsat _ (by omega), Nat.add_sub_cancel' hin.1]

/-- The state between an acknowledgement and the choice of what to send next. -/
theorem Sending.advance (h : Sending t s) (hmax : t.total ≤ APS_MAX_FRAGMENT_BLOCKS) {acked : BitVec 16}
    (hold : ∀ i, s.acked.getLsbD i = true → acked.getLsbD i = true) (hnew : ∀ i, acked.getLsbD i = true → i < s.windowEnd) :
    ∃ s', FragmentTxSession.advance { s with acked := acked, due := s.due &&& ~~~acked, retries := 0, waiting := false } = s' ∧
      s'.acked = acked ∧ s'.total = t.total ∧ s.windowEnd ≤ s'.windowEnd ∧ s.windowStart ≤ s'.windowStart ∧
      ((∀ b, b < t.total → acked.getLsbD b = true) ∨ Sending t s') := by
  have hend := h.windowEnd hmax
  have hlt := h.window_lt
  have hpos := t.window_pos
  have hmax' : APS_MAX_FRAGMENT_BLOCKS = 16 := rfl
  let s₁ : FragmentTxSession := { s with acked := acked, due := s.due &&& ~~~acked, retries := 0, waiting := false }
  have hend₁ : s₁.windowEnd = s.windowEnd := rfl
  have hmask : s₁.acked &&& s₁.windowMask = s₁.windowMask ↔
      ∀ b, s.windowStart ≤ b → b < s.windowEnd → acked.getLsbD b = true := by
    have hbit : ∀ b, s₁.windowMask.getLsbD b = true ↔ s.windowStart ≤ b ∧ b < s.windowEnd :=
      fun b => BitSet.getLsbD_ofRange (by rw [hend₁]; omega)
    constructor
    · intro heq b hlo hhi
      have := (hbit b).mpr ⟨hlo, hhi⟩
      rw [← heq, BitVec.getLsbD_and, Bool.and_eq_true] at this
      exact this.1
    · intro hall
      apply BitVec.eq_of_getLsbD_eq
      intro i _
      rw [BitVec.getLsbD_and]
      cases hi : s₁.windowMask.getLsbD i with
      | false => rw [Bool.and_false]
      | true =>
        obtain ⟨hlo, hhi⟩ := (hbit i).mp hi
        rw [Bool.and_true]
        exact hall i hlo hhi
  unfold FragmentTxSession.advance
  by_cases hadvance : s₁.acked &&& s₁.windowMask = s₁.windowMask ∧ s₁.windowEnd < s₁.total
  · rw [if_pos hadvance]
    have hall := hmask.mp hadvance.1
    have hmore : s.windowEnd < t.total := by
      have := hadvance.2
      rw [hend₁, show s₁.total = s.total from rfl, h.total_eq] at this
      exact this
    have hnext : s.windowEnd = s.windowStart + t.window := by omega
    have hend₂ : ∀ due : BitVec 16, FragmentTxSession.windowEnd { s₁ with windowStart := s₁.windowEnd, due := due } =
        min (s.windowEnd + t.window) t.total := fun due => windowEnd_eq hmax h.total_eq h.window_eq hmore
    refine ⟨_, rfl, rfl, h.total_eq, ?_, show s.windowStart ≤ s.windowEnd by omega, Or.inr ?_⟩
    · refine Nat.le_trans ?_ (Nat.le_of_eq (hend₂ _).symm)
      omega
    · refine ⟨h.owner, h.payload_eq, h.total_eq, h.window_eq, hmore, ?_, ?_, ?_, ?_, ?_, ?_⟩
      · dsimp only
        rw [hend₁, hnext]
        exact Nat.dvd_add h.window_dvd (Nat.dvd_refl _)
      · intro b hb
        have := hnew b hb
        rw [hend₂]
        omega
      · intro b hb
        by_cases hbefore : b < s.windowStart
        · exact hold b (h.acked_before hbefore)
        · exact hall b (by omega) hb
      · intro b hb
        dsimp only at hb
        rw [BitVec.getLsbD_or, Bool.or_eq_true] at hb
        rcases hb with hb | hb
        · -- What was due in the window that is complete is acknowledged.
          rw [BitVec.getLsbD_and, BitVec.getLsbD_not, Bool.and_eq_true, Bool.and_eq_true, Bool.not_eq_true'] at hb
          obtain ⟨hlo, hhi⟩ := h.due_window hb.1
          rw [hall b hlo hhi] at hb
          cases hb.2.2
        · rw [BitVec.getLsbD_and, Bool.and_eq_true] at hb
          have hin := (BitSet.getLsbD_ofRange (by rw [hend₂]; omega)).mp hb.1
          exact ⟨hin.1, hin.2⟩
      · intro hw
        cases hw
      · refine ⟨s.windowEnd, Nat.le_refl _, ?_, ?_⟩
        · rw [hend₂]
          omega
        · dsimp only
          by_contra hacked
          rw [Bool.not_eq_false] at hacked
          have := hnew _ hacked
          omega
  · rw [if_neg hadvance]
    by_cases hall : ∀ b, b < t.total → acked.getLsbD b = true
    · refine ⟨_, rfl, ?_⟩
      unfold resendLowest
      split
      · exact ⟨rfl, h.total_eq, Nat.le_refl _, Nat.le_refl _, Or.inl hall⟩
      · exact ⟨rfl, h.total_eq, Nat.le_refl _, Nat.le_refl _, Or.inl hall⟩
    · have hmissing : ∃ b, s.windowStart ≤ b ∧ b < s.windowEnd ∧ acked.getLsbD b = false := by
        by_contra hnone
        push Not at hnone
        have hwindow : ∀ b, s.windowStart ≤ b → b < s.windowEnd → acked.getLsbD b = true := by
          intro b hlo hhi
          simpa using hnone b hlo hhi
        have hlast : t.total ≤ s.windowEnd := by
          by_contra hmore
          apply hadvance
          refine ⟨hmask.mpr hwindow, ?_⟩
          rw [hend₁, show s₁.total = s.total from rfl, h.total_eq]
          omega
        apply hall
        intro b hb
        by_cases hbefore : b < s.windowStart
        · exact hold b (h.acked_before hbefore)
        · exact hwindow b (by omega) (by omega)
      have h₁ : Sending t s₁ := by
        refine { h with acked_lt := fun {b} hb => hnew b hb, acked_before := fun hb => hold _ (h.acked_before hb), due_window := ?_, waiting_due := ?_, missing := hmissing }
        · intro b hb
          dsimp only [s₁] at hb
          rw [BitVec.getLsbD_and, Bool.and_eq_true] at hb
          exact h.due_window hb.1
        · intro hw
          cases hw
      obtain ⟨h₂, hsame⟩ := h₁.resend hmax rfl
      refine ⟨_, rfl, ?_, ?_, ?_, ?_, Or.inr h₂⟩ <;> rw [hsame]
      · exact h.total_eq
      · exact Nat.le_refl _

/-- **What an acknowledgement does to the sender.** -/
theorem Sending.applyAck (h : Sending t s) (hmax : t.total ≤ APS_MAX_FRAGMENT_BLOCKS) (windowStart : Nat) (bitfield : BitVec 8) :
    (s.applyAck windowStart bitfield = (s, false) ∧ (windowStart = s.windowStart →
      ∀ i, s.windowStart ≤ i → i < s.windowEnd → bitfield.getLsbD (i - s.windowStart) = true → s.acked.getLsbD i = true)) ∨
    ∃ s', s.applyAck windowStart bitfield = (s', true) ∧ windowStart = s.windowStart ∧
      (∀ i, s'.acked.getLsbD i = true ↔ s.acked.getLsbD i = true ∨
        (s.windowStart ≤ i ∧ i < s.windowEnd) ∧ bitfield.getLsbD (i - s.windowStart) = true) ∧
      (∃ i, s.acked.getLsbD i = false ∧ s'.acked.getLsbD i = true) ∧
      s.windowEnd ≤ s'.windowEnd ∧ s.windowStart ≤ s'.windowStart ∧
      ((s'.complete = true ∧ ∀ b, b < t.total → s'.acked.getLsbD b = true) ∨ s'.complete = false ∧ Sending t s') := by
  have hend := h.windowEnd hmax
  have hmax' : APS_MAX_FRAGMENT_BLOCKS = 16 := rfl
  unfold FragmentTxSession.applyAck
  by_cases hw : windowStart = s.windowStart
  · rw [if_neg (fun h => h hw)]
    dsimp only
    have hbits : ∀ i, ((s.newlyAcked bitfield).foldl BitSet.insert (0 : BitVec 16)).getLsbD i = true ↔
        i ∈ s.newlyAcked bitfield := by
      intro i
      rw [BitSet.getLsbD_foldl_insert]
      · simp
      · intro j hj
        have := (h.mem_newlyAcked hmax bitfield j).mp hj
        omega
    by_cases hzero : (s.newlyAcked bitfield).foldl BitSet.insert (0 : BitVec 16) = 0
    · rw [if_pos hzero]
      refine Or.inl ⟨rfl, fun _ i hlo hhi hbit => ?_⟩
      by_contra hacked
      rw [Bool.not_eq_true] at hacked
      have := (hbits i).mpr ((h.mem_newlyAcked hmax bitfield i).mpr ⟨⟨hlo, hhi⟩, hbit, hacked⟩)
      rw [hzero] at this
      simp at this
    · rw [if_neg hzero]
      have hacked : ∀ i, (s.acked ||| (s.newlyAcked bitfield).foldl BitSet.insert (0 : BitVec 16)).getLsbD i = true ↔
          s.acked.getLsbD i = true ∨ (s.windowStart ≤ i ∧ i < s.windowEnd) ∧ bitfield.getLsbD (i - s.windowStart) = true := by
        intro i
        rw [BitVec.getLsbD_or, Bool.or_eq_true, hbits, h.mem_newlyAcked hmax]
        constructor
        · rintro (hi | ⟨hin, hbit, -⟩)
          · exact Or.inl hi
          · exact Or.inr ⟨hin, hbit⟩
        · rintro (hi | ⟨hin, hbit⟩)
          · exact Or.inl hi
          · by_cases hi : s.acked.getLsbD i = true
            · exact Or.inl hi
            · exact Or.inr ⟨hin, hbit, by simpa using hi⟩
      have hnew : ∃ i, s.acked.getLsbD i = false ∧
          (s.acked ||| (s.newlyAcked bitfield).foldl BitSet.insert (0 : BitVec 16)).getLsbD i = true := by
        by_contra hnone
        push Not at hnone
        apply hzero
        apply BitVec.eq_of_getLsbD_eq
        intro i _
        by_contra hi
        have hi : i ∈ s.newlyAcked bitfield := (hbits i).mp (by simpa using hi)
        have hmem := (h.mem_newlyAcked hmax bitfield i).mp hi
        exact hnone i hmem.2.2 ((hacked i).mpr (Or.inr ⟨hmem.1, hmem.2.1⟩))
      obtain ⟨s', hs', hacked', htotal', hwend, hwstart, hcases⟩ := h.advance hmax (fun i hi => (hacked i).mpr (Or.inl hi))
        (fun i hi => by
          rcases (hacked i).mp hi with hi | ⟨hin, -⟩
          · exact h.acked_lt hi
          · exact hin.2)
      rw [hs']
      have hcomplete := complete_iff (s := s') hmax htotal' (fun {i} hi => by
        rw [hacked'] at hi
        rcases (hacked i).mp hi with hi | ⟨hin, -⟩
        · have := h.acked_lt hi
          omega
        · omega)
      refine Or.inr ⟨s', rfl, hw, by rw [hacked']; exact hacked, by rw [hacked']; exact hnew, hwend, hwstart, ?_⟩
      rcases hcases with hall | hsending
      · rw [← hacked'] at hall
        exact Or.inl ⟨hcomplete.mpr hall, hall⟩
      · refine Or.inr ⟨?_, hsending⟩
        obtain ⟨i, -, hhi, hi⟩ := hsending.missing
        rw [Bool.eq_false_iff]
        intro hall
        have hend' := hsending.windowEnd hmax
        rw [hcomplete.mp hall i (by omega)] at hi
        cases hi
  · rw [if_pos hw]
    exact Or.inl ⟨rfl, fun heq => absurd heq hw⟩

end Sender

end Zigbee.Aps
