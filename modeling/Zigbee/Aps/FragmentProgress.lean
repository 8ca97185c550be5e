import Zigbee.Aps.FragmentExchange

/-!
# Agreement and progress of a fragmented transaction

What holds of the two sides of a transaction in every state that sending, losing, duplicating and
reordering its blocks and acknowledgements can reach.

* `Exchange.Inv` — what is acknowledged is held, and the receiver's window is the sender's or the one
  before it.
* `fragmentation_agreement` — when the sender reports success, the receiver has handed up the payload.
* `retry_progresses_iff` — a retransmission that is not lost makes progress unless the receiver holds
  the block already and waits for a later one.
-/

namespace Zigbee.Aps

open ReassemblyEntry BitSet FragmentTx

variable {t : Transaction} {x : Exchange}

/-- An acknowledgement names only blocks that are held. -/
def AckSound (t : Transaction) (e : ReassemblyEntry) (a : FragmentAck) : Prop :=
  ∀ bit, bit < t.window → a.windowStart + bit < t.total → a.bitfield.getLsbD bit = true → e.has (a.windowStart + bit) = true

/-- The sender's session against the receiver's. -/
structure Agrees (t : Transaction) (x : Exchange) (s : FragmentTxSession) : Prop where
  sending : Sending t s
  acked_held : ∀ {b}, s.acked.getLsbD b = true → x.rx.view.has b = true
  blocks_window : ∀ f ∈ x.blocks, ∃ b, b < s.windowEnd ∧ f = t.frame b
  window_le : x.rx.view.windowStart ≤ s.windowStart

structure Exchange.Inv (t : Transaction) (x : Exchange) : Prop where
  rx : RxInv t x.rx
  blocks : ∀ f ∈ x.blocks, ∃ b, b < t.total ∧ f = t.frame b
  acks : ∀ a ∈ x.acks, AckSound t x.rx.view a
  tx : ∀ s, x.tx.session = some s → Agrees t x s
  success : x.tx.confirm = some .success → x.tx.session = none ∧ x.rx.view.isComplete = true

/-- The bounds that `start` checks. -/
structure Transaction.Valid (t : Transaction) : Prop where
  fits : t.payload.length ≤ APS_MAX_FRAGMENTED_ASDU
  two_le : 2 ≤ t.total
  le_max : t.total ≤ APS_MAX_FRAGMENT_BLOCKS

/-- The first session of the sender. -/
def Transaction.initial (t : Transaction) (nowUs : UInt32) : FragmentTxSession :=
  .new nowUs t.dst t.apsCounter t.securityEnabled t.payload t.blockSize t.total t.windowSize t.maxRetries

theorem start_cases {nowUs : UInt32} {keyFound : Bool} (h : t.start nowUs keyFound = .ok x) :
    t.Valid ∧ x = ⟨⟨some { t.initial nowUs with due := (t.initial nowUs).windowMask }, none⟩, .new, [], []⟩ := by
  unfold Transaction.start at h
  split at h
  · rename_i tx htx
    cases h
    unfold start at htx
    split at htx
    · cases htx
    · rename_i hfits
      split at htx
      · cases htx
      · split at htx
        · cases htx
        · dsimp only at htx
          split at htx
          · cases htx
          · rename_i htotal
            cases htx
            change ¬(APS_MAX_FRAGMENT_BLOCKS < t.total ∨ t.total < 2) at htotal
            rw [Bool.or_eq_true, decide_eq_true_eq] at hfits
            exact ⟨⟨by omega, by omega, by omega⟩, rfl⟩
  · cases h

theorem start_inv {nowUs : UInt32} {keyFound : Bool} (h : t.start nowUs keyFound = .ok x) : t.Valid ∧ x.Inv t := by
  obtain ⟨hvalid, rfl⟩ := start_cases h
  refine ⟨hvalid, ?_⟩
  have hpos := t.window_pos
  have htwo := hvalid.two_le
  have hmax : t.total ≤ 16 := hvalid.le_max
  have hend : ∀ due : BitVec 16, FragmentTxSession.windowEnd { t.initial nowUs with due := due } = min (0 + t.window) t.total :=
    fun due => windowEnd_eq (s := { t.initial nowUs with due := due }) hvalid.le_max rfl rfl (Nat.lt_of_lt_of_le Nat.zero_lt_two htwo)
  refine ⟨.idle (fun e he => ?_) rfl, fun f hf => ?_, fun a ha => ?_, fun s hs => ?_, fun hc => ?_⟩
  · rw [List.eq_of_mem_replicate he]
    rfl
  · cases hf
  · cases ha
  · cases hs
    refine ⟨⟨⟨rfl, rfl, rfl⟩, ⟨rfl, rfl⟩, rfl, rfl, Nat.lt_of_lt_of_le Nat.zero_lt_two htwo, Nat.dvd_zero _, ?_, ?_, ?_, ?_, ?_⟩,
      ?_, ?_, Nat.le_refl _⟩
    · intro b hb
      simp [Transaction.initial, FragmentTxSession.new] at hb
    · intro b hb
      exact absurd hb (Nat.not_lt_zero _)
    · intro b hb
      have hle : (t.initial nowUs).windowEnd ≤ 16 := by
        rw [show (t.initial nowUs).windowEnd = min (0 + t.window) t.total from hend (t.initial nowUs).due]
        omega
      exact (getLsbD_ofRange hle).mp hb
    · intro hw
      cases hw
    · refine ⟨0, Nat.le_refl _, ?_, by simp [Transaction.initial, FragmentTxSession.new]⟩
      rw [hend]
      omega
    · intro b hb
      simp [Transaction.initial, FragmentTxSession.new] at hb
    · intro f hf
      cases hf
  · cases hc

/-! ## The steps -/

variable {e : ReassemblyEntry}

section Steps

variable {nowUs : UInt32}

/-- A sender whose session is gone, with another result than success, keeps the invariant. -/
theorem Exchange.Inv.finished (h : x.Inv t) {status : ApsStatus} (hstatus : status ≠ .success) :
    Exchange.Inv t { x with tx := x.tx.finish status } := by
  refine { h with tx := ?_, success := fun hc => ⟨rfl, ?_⟩ }
  · intro s hs
    cases hs
  dsimp only [finish] at hc
  split at hc
  · cases hc
    exact absurd rfl hstatus
  · exact (h.success hc).2

/-- A change of the sender's session that keeps its windows. -/
theorem Exchange.Inv.resumed (h : x.Inv t) {s s' : FragmentTxSession} (hs : x.tx.session = some s) (hsending : Sending t s')
    (hacked : s'.acked = s.acked) (hstart : s'.windowStart = s.windowStart) (hend : s'.windowEnd = s.windowEnd) :
    Exchange.Inv t { x with tx := { x.tx with session := some s' } } := by
  have hagrees := h.tx s hs
  refine { h with tx := ?_, success := ?_ }
  · intro s₁ hs₁
    cases hs₁
    refine ⟨hsending, ?_, ?_, ?_⟩
    · rw [hacked]
      exact hagrees.acked_held
    · rw [hend]
      exact hagrees.blocks_window
    · rw [hstart]
      exact hagrees.window_le
  · intro hc
    have := (h.success hc).1
    rw [hs] at this
    cases this

theorem trailingZeros_mem {m : BitVec 16} (h : m ≠ 0) : m.getLsbD (trailingZeros m) = true := by
  unfold trailingZeros
  cases hfind : (List.range 16).find? m.getLsbD with
  | none =>
    exfalso
    apply h
    apply BitVec.eq_of_getLsbD_eq
    intro i hi
    have := List.find?_eq_none.mp hfind i (List.mem_range.mpr hi)
    simpa using this
  | some i =>
    have := List.find?_some hfind
    simpa using this

/-- What the sender sends is a block of its window. -/
theorem nextDueFragment_cases {tx tx' : FragmentTx} {canSecure : Bool} {out : Option FragmentFrame}
    (h : tx.nextDueFragment nowUs canSecure = (tx', out)) (hsend : ∀ s, tx.session = some s → Sending t s) :
    (tx' = tx ∧ out = none) ∨ (tx' = tx.finish .securityFail ∧ out = none) ∨
      ∃ s s' b, tx.session = some s ∧ tx' = { tx with session := some s' } ∧ out = some (t.frame b) ∧
        s.due.getLsbD b = true ∧ b = trailingZeros s.due ∧
        s' = { s with due := erase s.due b, waiting := s'.waiting, waitingSinceUs := s'.waitingSinceUs } ∧ Sending t s' := by
  unfold nextDueFragment at h
  split at h
  · cases h
    exact Or.inl ⟨rfl, rfl⟩
  · rename_i s hs
    split at h
    · cases h
      exact Or.inl ⟨rfl, rfl⟩
    · rename_i hdue
      split at h
      · cases h
        exact Or.inr (Or.inl ⟨rfl, rfl⟩)
      · have hsending := hsend s hs
        have hb := trailingZeros_mem hdue
        dsimp only at h
        refine Or.inr (Or.inr ⟨s, ?_⟩)
        have hdue' : ∀ {i}, (erase s.due (trailingZeros s.due)).getLsbD i = true →
            s.windowStart ≤ i ∧ i < s.windowEnd := by
          intro i hi
          rw [getLsbD_erase, Bool.and_eq_true] at hi
          exact hsending.due_window hi.1
        rw [hsending.frame_eq] at h
        split at h
        · rename_i hempty
          cases h
          exact ⟨_, _, hs, rfl, rfl, hb, rfl, rfl, { hsending with due_window := hdue', waiting_due := fun _ => hempty }⟩
        · cases h
          refine ⟨_, _, hs, rfl, rfl, hb, rfl, rfl, { hsending with due_window := hdue', waiting_due := ?_ }⟩
          intro hw
          exact absurd (hsending.waiting_due hw) hdue

theorem Exchange.Inv.send (h : x.Inv t) (hvalid : t.Valid) (canSecure : Bool) : (t.step x (.send nowUs canSecure)).Inv t := by
  cases hnext : x.tx.nextDueFragment nowUs canSecure with
  | mk tx' out =>
    have hstep : t.step x (.send nowUs canSecure) =
        { x with tx := tx', blocks := x.blocks ++ out.toList } := by
      dsimp only [Transaction.step]
      rw [hnext]
      cases out <;> simp
    rw [hstep]
    rcases nextDueFragment_cases hnext fun s hs => (h.tx s hs).sending with ⟨rfl, rfl⟩ | ⟨rfl, rfl⟩ |
      ⟨s, s', b, hs, rfl, rfl, hdue, -, hs', hsending⟩
    · simpa using h
    · simpa using h.finished (by simp)
    · have hagrees := h.tx s hs
      have hwindow := hagrees.sending.due_window hdue
      have hlt : b < t.total := by
        rw [hagrees.sending.windowEnd hvalid.le_max] at hwindow
        omega
      have hacked : s'.acked = s.acked := by rw [hs']
      have hstart : s'.windowStart = s.windowStart := by rw [hs']
      have hend : s'.windowEnd = s.windowEnd := by
        rw [hs']
        rfl
      have hresumed := h.resumed hs hsending hacked hstart hend
      refine { hresumed with blocks := ?_, tx := ?_ }
      · intro f hf
        rcases List.mem_append.mp hf with hf | hf
        · exact h.blocks f hf
        · exact ⟨b, hlt, by simpa using hf⟩
      · intro s₁ hs₁
        refine { hresumed.tx s₁ hs₁ with blocks_window := ?_ }
        cases hs₁
        intro f hf
        rw [hend]
        rcases List.mem_append.mp hf with hf | hf
        · exact hagrees.blocks_window f hf
        · exact ⟨b, hwindow.2, by simpa using hf⟩

theorem Exchange.Inv.poll (h : x.Inv t) (hvalid : t.Valid) : (t.step x (.poll nowUs)).Inv t := by
  dsimp only [Transaction.step]
  unfold pollTimeout
  split
  · exact h
  · rename_i s hs
    split
    · exact h
    · split
      · exact h.finished (by simp)
      · have hsending := (h.tx s hs).sending
        have hpaused : Sending t { s with retries := s.retries + 1, waiting := false } :=
          { hsending with waiting_due := fun hw => nomatch hw }
        obtain ⟨hresent, hsame⟩ := hpaused.resend hvalid.le_max rfl
        refine h.resumed hs hresent ?_ ?_ ?_ <;> rw [hsame]
        rfl

/-- Two window starts that differ lie a window apart. -/
theorem add_le_of_dvd_lt {w a c : Nat} (ha : w ∣ a) (hc : w ∣ c) (h : a < c) : a + w ≤ c := by
  obtain ⟨k, rfl⟩ := ha
  obtain ⟨m, rfl⟩ := hc
  have hkm : k < m := Nat.lt_of_mul_lt_mul_left h
  calc w * k + w = w * (k + 1) := by rw [Nat.mul_succ]
    _ ≤ w * m := Nat.mul_le_mul_left w hkm

theorem frame_inj {b b' : Nat} (h : t.frame b = t.frame b') : b = b' := by
  unfold Transaction.frame at h
  split at h <;> split at h
  · omega
  · cases h
  · cases h
  · injection h

/-- What the receiver holds, it keeps. -/
theorem Receives.has_mono {rx' : FragmentRx} {b : Nat} {ack : Option FragmentAck} (h : Receives t e rx' b ack) {i : Nat}
    (hi : e.has i = true) : rx'.view.has i = true := by
  cases h with
  | again _ hview => rw [hview]; exact hi
  | ignored _ _ hreceived _ => rw [has, hreceived]; exact hi
  | taken _ htakes => rw [htakes.has_iff, hi]; rfl

/-- The receiver's acknowledgement is sound. -/
theorem Receives.sound {rx' : FragmentRx} {b : Nat} {ack : FragmentAck} (h : Receives t e rx' b (some ack)) (hvalid : t.Valid)
    (hs : Session t e) (hs' : Session t rx'.view) : AckSound t rx'.view ack := by
  generalize hout : some ack = out at h
  cases h with
  | again hcomplete hview =>
    cases hout
    intro bit _ hlt _
    obtain ⟨hne, hall⟩ := isComplete_iff.mp hcomplete
    rw [hs.total_eq.resolve_left hne] at hall
    rw [hview]
    exact hall _ hlt
  | ignored => cases hout
  | taken _ htakes =>
    unfold ackFor at hout
    split at hout
    · cases hout
      intro bit hbit hlt hset
      rw [hs'.ack_bit hvalid.le_max _ hbit hlt] at hset
      exact hset
    · cases hout

/-- A block of the transaction reaches its receiver. -/
theorem Exchange.Inv.receives (h : x.Inv t) (hvalid : t.Valid) {k b : Nat} (hk : x.blocks[k]? = some (t.frame b))
    (hb : b < t.total) (ieeeKnown : Bool) :
    ∃ rx' ack, t.step x (.deliverBlock k nowUs ieeeKnown) = { x with rx := rx', acks := x.acks ++ ack.toList } ∧
      RxInv t rx' ∧ Receives t x.rx.view rx' b ack := by
  have hieee : (if ieeeKnown then some t.srcIeee else none) = none ∨
      (if ieeeKnown then some t.srcIeee else none) = some t.srcIeee := by
    cases ieeeKnown <;> simp
  obtain ⟨hsettled, hview⟩ := h.rx.settle
  obtain ⟨rx', ack, hreceive, hrx', hreceives⟩ :=
    hsettled.receive hvalid.fits hvalid.two_le hvalid.le_max hb hieee nowUs
  rw [hview] at hreceives
  refine ⟨rx', ack, ?_, hrx', hreceives⟩
  dsimp only [Transaction.step]
  rw [hk]
  dsimp only
  rw [hreceive]
  cases ack <;> simp

theorem Exchange.Inv.deliverBlock (h : x.Inv t) (hvalid : t.Valid) (k : Nat) (nowUs : UInt32) (ieeeKnown : Bool) :
    (t.step x (.deliverBlock k nowUs ieeeKnown)).Inv t := by
  cases hf : x.blocks[k]? with
  | none =>
    dsimp only [Transaction.step]
    rw [hf]
    exact h
  | some f =>
    have hmem := List.mem_of_getElem? hf
    obtain ⟨b, hb, rfl⟩ := h.blocks f hmem
    obtain ⟨rx', ack, hstep, hrx', hreceives⟩ := h.receives hvalid hf hb ieeeKnown
    rw [hstep]
    have hs := h.rx.session hvalid.two_le
    have hs' := hrx'.session hvalid.two_le
    have hwindow : ∀ s, x.tx.session = some s → rx'.view.windowStart ≤ s.windowStart := by
      intro s hs₁
      have hagrees := h.tx s hs₁
      have hle := hagrees.window_le
      cases hreceives with
      | again _ hview => rw [hview]; exact hle
      | ignored _ _ _ hstart => rw [hstart]; exact hle
      | taken _ htakes =>
        rcases htakes.start with ⟨hsame, -⟩ | ⟨hnext, hle'⟩
        · rw [hsame]
          exact hle
        · -- The block comes from the sender's window, so the sender is past the receiver's.
          obtain ⟨b', hb', hframe⟩ := hagrees.blocks_window _ hmem
          obtain rfl := frame_inj hframe
          have hend := hagrees.sending.windowEnd hvalid.le_max
          have hlt : x.rx.view.windowStart < s.windowStart := by omega
          have := add_le_of_dvd_lt hs.window_dvd hagrees.sending.window_dvd hlt
          omega
    have hinv : Exchange.Inv t { x with rx := rx' } := by
      refine ⟨hrx', h.blocks, ?_, ?_, ?_⟩
      · intro a ha bit hbit hlt hset
        exact hreceives.has_mono (h.acks a ha bit hbit hlt hset)
      · intro s hs₁
        have hagrees := h.tx s hs₁
        exact ⟨hagrees.sending, fun hb => hreceives.has_mono (hagrees.acked_held hb), hagrees.blocks_window, hwindow s hs₁⟩
      · intro hc
        obtain ⟨hnone, hcomplete⟩ := h.success hc
        refine ⟨hnone, ?_⟩
        cases hreceives with
        | again _ hview => rw [hview]; exact hcomplete
        | ignored hopen => rw [hopen] at hcomplete; cases hcomplete
        | taken hopen => rw [hopen] at hcomplete; cases hcomplete
    refine { hinv with acks := ?_, tx := fun s hs => { hinv.tx s hs with } }
    intro a ha
    rcases List.mem_append.mp ha with ha | ha
    · exact hinv.acks a ha
    · rw [Option.mem_toList] at ha
      rw [Option.mem_def.mp ha] at hreceives
      exact hreceives.sound hvalid hs hs'

/-- A session that holds every block is complete. -/
theorem Session.complete (h : Session t e) (hvalid : t.Valid) (hall : ∀ b, b < t.total → e.has b = true) : e.isComplete = true := by
  have htwo := hvalid.two_le
  rw [isComplete_iff, h.total_known (hall 0 (by omega))]
  exact ⟨by omega, hall⟩

/-- An acknowledgement of the transaction reaches its session. -/
theorem handleAck_own {tx : FragmentTx} {s : FragmentTxSession} (h : Sending t s) (hs : tx.session = some s) (windowStart : Nat)
    (bitfield : BitVec 8) :
    (tx.handleAck t.dst t.apsCounter windowStart (some bitfield) t.securityEnabled).1 =
      if (s.applyAck windowStart bitfield).2 && (s.applyAck windowStart bitfield).1.complete then ⟨none, some .success⟩
      else { tx with session := some (s.applyAck windowStart bitfield).1 } := by
  obtain ⟨hdst, hcounter, hsecured⟩ := h.owner
  unfold handleAck
  rw [hs]
  dsimp only
  rw [if_neg (by rintro (hne | hne); exacts [hne hdst, hne hcounter]), hsecured, Bool.and_not_self,
    if_neg Bool.false_ne_true]
  split <;> rfl

theorem Exchange.Inv.deliverAck (h : x.Inv t) (hvalid : t.Valid) (k : Nat) : (t.step x (.deliverAck k)).Inv t := by
  dsimp only [Transaction.step]
  split
  · exact h
  · rename_i a ha
    have hsound := h.acks a (List.mem_of_getElem? ha)
    cases hs : x.tx.session with
    | none =>
      unfold handleAck
      rw [hs]
      exact h
    | some s =>
      have hagrees := h.tx s hs
      have hend := hagrees.sending.windowEnd hvalid.le_max
      rw [handleAck_own hagrees.sending hs]
      rcases hagrees.sending.applyAck hvalid.le_max a.windowStart a.bitfield with ⟨hnone, -⟩ |
        ⟨s', happly, hstart, hacked, -, hwend, hwstart, hcases⟩
      · rw [hnone, ← hs]
        exact h
      · rw [happly]
        have hheld : ∀ {b}, s'.acked.getLsbD b = true → x.rx.view.has b = true := by
          intro b hb
          rcases (hacked b).mp hb with hb | ⟨⟨hlo, hhi⟩, hbit⟩
          · exact hagrees.acked_held hb
          · have := hsound (b - s.windowStart) (by omega) (by omega) hbit
            rwa [hstart, Nat.add_sub_cancel' hlo] at this
        rcases hcases with ⟨hcomplete, hall⟩ | ⟨hopen, hsending⟩
        · rw [if_pos (by rw [hcomplete]; rfl)]
          refine { h with tx := ?_, success := fun _ => ⟨rfl, ?_⟩ }
          · intro s₁ hs₁
            cases hs₁
          · exact (h.rx.session hvalid.two_le).complete hvalid fun b hb => hheld (hall b hb)
        · rw [if_neg (by rw [hopen]; exact Bool.false_ne_true)]
          refine { h with tx := ?_, success := ?_ }
          · intro s₁ hs₁
            cases hs₁
            refine ⟨hsending, hheld, ?_, Nat.le_trans hagrees.window_le hwstart⟩
            intro f hf
            obtain ⟨b, hb, rfl⟩ := hagrees.blocks_window f hf
            exact ⟨b, Nat.lt_of_lt_of_le hb hwend, rfl⟩
          · intro hc
            have := (h.success hc).1
            rw [hs] at this
            cases this

theorem Exchange.Inv.otherFrame (h : x.Inv t) : (t.step x .otherFrame).Inv t := by
  obtain ⟨hsettled, hview⟩ := h.rx.settle
  dsimp only [Transaction.step]
  refine ⟨hsettled, h.blocks, ?_, ?_, ?_⟩
  · rw [hview]
    exact h.acks
  · intro s hs
    have hagrees := h.tx s hs
    refine ⟨hagrees.sending, ?_, hagrees.blocks_window, ?_⟩
    · rw [hview]
      exact hagrees.acked_held
    · rw [hview]
      exact hagrees.window_le
  · rw [hview]
    exact h.success

/-- **The invariant holds in every state that the exchange can reach.** -/
theorem Exchange.Inv.step (h : x.Inv t) (hvalid : t.Valid) (op : ExchangeOp) : (t.step x op).Inv t := by
  cases op with
  | send nowUs canSecure => exact h.send hvalid canSecure
  | poll nowUs => exact h.poll hvalid
  | deliverBlock k nowUs ieeeKnown => exact h.deliverBlock hvalid k nowUs ieeeKnown
  | deliverAck k => exact h.deliverAck hvalid k
  | otherFrame => exact h.otherFrame

theorem run_inv {keyFound : Bool} (h : t.start nowUs keyFound = .ok x) (ops : List ExchangeOp) :
    t.Valid ∧ (Run.run t.step x ops).Inv t := by
  obtain ⟨hvalid, hinv⟩ := start_inv h
  exact ⟨hvalid, Run.run_invariant (fun _ op hx => hx.step hvalid op) hinv ops⟩

end Steps

/-! ## Agreement -/

/-- **Agreement**: when the sender reports success, the receiver has handed up one ASDU of the
    transaction, from a session that had received every block, and it is the payload. -/
theorem fragmentation_agreement {nowUs : UInt32} {keyFound : Bool} (hstart : t.start nowUs keyFound = .ok x)
    (ops : List ExchangeOp) (hsuccess : (Run.run t.step x ops).tx.confirm = some .success) :
    ∃ e, (Run.run t.step x ops).rx.handedUp = [(e, t.payload)] ∧ e.totalBlocks = t.total ∧
      (∀ b, b < t.total → e.has b = true) ∧ e.asdu = t.payload := by
  obtain ⟨hvalid, hinv⟩ := run_inv hstart ops
  obtain ⟨-, hcomplete⟩ := hinv.success hsuccess
  generalize Run.run t.step x ops = y at hinv hcomplete
  obtain ⟨tx, rx, blocks, acks⟩ := y
  have hrx : RxInv t rx := hinv.rx
  change rx.view.isComplete = true at hcomplete
  change ∃ e, rx.handedUp = [(e, t.payload)] ∧ _
  cases hrx with
  | idle hrest he =>
    rw [view_idle hrest he] at hcomplete
    cases hcomplete
  | collecting hrest hs hb hopen =>
    rw [view_collecting hb.active, hopen] at hcomplete
    cases hcomplete
  | @done d e rest hrest hs hd he =>
    obtain ⟨hne, hall⟩ := isComplete_iff.mp hd
    have htotal := hs.total_eq.resolve_left hne
    rw [htotal] at hall
    exact ⟨d, rfl, htotal, hall, hs.asdu_eq hd⟩

/-- An ASDU of two blocks, to be sent in one window. -/
def twoBlocks : Transaction := ⟨0x1111, .replicate 8 0x10, 0x0000, 7, false, List.replicate 100 0xAB, 2, 3⟩

/-- Both blocks arrive, the second one first, and the first one twice; its second acknowledgement comes
    back. -/
theorem two_blocks_agree :
    ∃ x₀, twoBlocks.start 0 true = .ok x₀ ∧
      (Run.run twoBlocks.step x₀ [.send 0 true, .send 0 true, .deliverBlock 1 0 false, .deliverBlock 0 0 true,
        .deliverBlock 0 0 true, .deliverAck 2]).tx.confirm = some .success ∧
      ∃ e, (Run.run twoBlocks.step x₀ [.send 0 true, .send 0 true, .deliverBlock 1 0 false, .deliverBlock 0 0 true,
        .deliverBlock 0 0 true, .deliverAck 2]).rx.handedUp = [(e, twoBlocks.payload)] :=
  have hsuccess : ∀ x₀, twoBlocks.start 0 true = .ok x₀ →
      (Run.run twoBlocks.step x₀ [.send 0 true, .send 0 true, .deliverBlock 1 0 false, .deliverBlock 0 0 true,
        .deliverBlock 0 0 true, .deliverAck 2]).tx.confirm = some .success := by
    intro x₀ h
    cases h
    decide +kernel
  ⟨_, rfl, hsuccess _ rfl,
    (fragmentation_agreement (show twoBlocks.start 0 true = .ok _ from rfl) _ (hsuccess _ rfl)).imp fun _ h => h.1⟩

/-! ## Progress -/

/-- The number of blocks that the receiver has received. -/
def Exchange.received (x : Exchange) : Nat := card x.rx.view.received

/-- The number of blocks that the sender knows to be acknowledged. -/
def Exchange.acknowledged (t : Transaction) (x : Exchange) : Nat :=
  match x.tx.session with
  | some s => card s.acked
  | none => if x.tx.confirm = some .success then t.total else 0

/-- A block arrives, and so does the acknowledgement that it calls for. -/
def Transaction.answer (t : Transaction) (x : Exchange) (k : Nat) (deliverUs : UInt32) (ieeeKnown : Bool) : Exchange :=
  let y := t.step x (.deliverBlock k deliverUs ieeeKnown)
  if y.acks.length = x.acks.length then y else t.step y (.deliverAck (y.acks.length - 1))

/-- The acknowledgement timer runs out; the block that is sent again arrives, and so does its answer. -/
def Transaction.retry (t : Transaction) (x : Exchange) (pollUs sendUs deliverUs : UInt32) (ieeeKnown : Bool) : Exchange :=
  let x := t.step (t.step x (.poll pollUs)) (.send sendUs true)
  t.answer x (x.blocks.length - 1) deliverUs ieeeKnown

/-- The receiver can answer the block that the sender sends again: it is a new block, or every later
    block of the window is there. -/
def Answerable (x : Exchange) (s : FragmentTxSession) : Prop :=
  ∀ b, s.lowestUnackedInWindow = some b → x.rx.view.has b = true → ∀ i, b < i → i < s.windowEnd → x.rx.view.has i = true

section Progress

variable {s : FragmentTxSession} {b : Nat}

/-- Below the lowest missing block of the window everything is acknowledged. -/
theorem Sending.acked_below (h : Sending t s) (hlowest : s.lowestUnackedInWindow = some b) {i : Nat} (hi : i < b) :
    s.acked.getLsbD i = true := by
  by_cases hbefore : i < s.windowStart
  · exact h.acked_before hbefore
  · obtain ⟨-, -, hall⟩ := List.find?_range'_eq_some.mp hlowest
    simpa using hall i (by omega) hi

/-- The timer runs out: the lowest missing block is the only one that is due. -/
theorem pollTimeout_retry {pollUs : UInt32} (h : Sending t s) (hs : x.tx.session = some s) (hwaiting : s.waiting = true)
    (helapsed : APS_ACK_WAIT_DURATION_US ≤ pollUs - s.waitingSinceUs) (hretries : s.retries < s.maxRetries)
    (hlowest : s.lowestUnackedInWindow = some b) :
    x.tx.pollTimeout pollUs = { x.tx with session := some { s with
      retries := s.retries + 1, waiting := false, due := BitSet.insert 0 b } } := by
  unfold pollTimeout
  rw [hs]
  dsimp only
  rw [hwaiting, decide_eq_false (UInt32.not_lt.mpr helapsed), if_neg (by decide), if_neg (by omega)]
  have hresend : FragmentTxSession.resendLowest { s with retries := s.retries + 1, waiting := false } =
      { s with retries := s.retries + 1, waiting := false, due := BitSet.insert s.due b } := by
    have hlowest' : FragmentTxSession.lowestUnackedInWindow { s with retries := s.retries + 1, waiting := false } = some b :=
      hlowest
    rw [FragmentTxSession.resendLowest, hlowest']
  rw [hresend, h.waiting_due hwaiting]

theorem trailingZeros_insert (hb : b < 16) : trailingZeros (BitSet.insert 0 b) = b := by
  have hne : (BitSet.insert 0 b : BitVec 16) ≠ 0 := by
    intro heq
    have := getLsbD_insert (0 : BitVec 16) hb b
    rw [heq] at this
    simp at this
  have hmem := trailingZeros_mem hne
  rw [getLsbD_insert _ hb] at hmem
  have heq : b = trailingZeros (BitSet.insert 0 b) := by simpa using hmem
  exact heq.symm

/-- The state after the retransmission: the block is on its way, and the sender waits again. -/
theorem retry_sent {pollUs : UInt32} (sendUs : UInt32) (h : x.Inv t) (hvalid : t.Valid) (hs : x.tx.session = some s)
    (hwaiting : s.waiting = true) (helapsed : APS_ACK_WAIT_DURATION_US ≤ pollUs - s.waitingSinceUs)
    (hretries : s.retries < s.maxRetries) (hlowest : s.lowestUnackedInWindow = some b) :
    t.step (t.step x (.poll pollUs)) (.send sendUs true) =
      { x with
        tx := { x.tx with session := some { s with
          retries := s.retries + 1, due := 0, waiting := true, waitingSinceUs := sendUs } }
        blocks := x.blocks ++ [t.frame b] } := by
  have hsending := (h.tx s hs).sending
  obtain ⟨b', hlowest', -, hhi, -⟩ := hsending.lowest
  obtain rfl : b = b' := by
    rw [hlowest] at hlowest'
    exact Option.some.inj hlowest'
  have hend := hsending.windowEnd hvalid.le_max
  have hmax : t.total ≤ 16 := hvalid.le_max
  have hb : b < 16 := by omega
  have hne : (BitSet.insert 0 b : BitVec 16) ≠ 0 := by
    intro heq
    have := getLsbD_insert (0 : BitVec 16) hb b
    rw [heq] at this
    simp at this
  have herase : erase (BitSet.insert 0 b : BitVec 16) b = 0 := by
    apply BitVec.eq_of_getLsbD_eq
    intro i _
    rw [getLsbD_erase, getLsbD_insert _ hb]
    by_cases hbi : b = i <;> simp [hbi]
  dsimp only [Transaction.step]
  rw [pollTimeout_retry hsending hs hwaiting helapsed hretries hlowest]
  unfold nextDueFragment
  dsimp only
  rw [if_neg hne, Bool.not_true, Bool.and_false, if_neg Bool.false_ne_true, trailingZeros_insert hb, herase, if_pos rfl]
  dsimp only
  rw [← hsending.frame_eq b]
  rfl

/-- The receiver's window against the sender's: a receiver that holds a block of the sender's window
    is at the same window. -/
theorem Agrees.same_window (h : Agrees t x s) (hview : Session t x.rx.view) (hb : x.rx.view.has b = true)
    (hlo : s.windowStart ≤ b) : x.rx.view.windowStart = s.windowStart := by
  have hlt := hview.has_window hb
  have hle := h.window_le
  by_contra hne
  have := add_le_of_dvd_lt hview.window_dvd h.sending.window_dvd (by omega)
  omega

/-- A block of the sender's window is never outside for a receiver that is behind by one window. -/
theorem Agrees.not_outside (h : Agrees t x s) (hvalid : t.Valid) (hview : Session t x.rx.view) (hlo : s.windowStart ≤ b)
    (hhi : b < s.windowEnd) : ¬ Outside t x.rx.view b := by
  have hend := h.sending.windowEnd hvalid.le_max
  have hle := h.window_le
  have hheld : ∀ i, i < s.windowStart → x.rx.view.has i = true := fun i hi => h.acked_held (h.sending.acked_before hi)
  rintro (hbefore | ⟨hafter, hwhy⟩)
  · omega
  · have hbehind : s.windowStart ≤ x.rx.view.windowStart + t.window := by
      by_contra hfar
      have := hview.has_window (hheld (s.windowStart - 1) (by omega))
      omega
    have hstep := add_le_of_dvd_lt hview.window_dvd h.sending.window_dvd (show x.rx.view.windowStart < s.windowStart by omega)
    rcases hwhy with ⟨i, -, hi, hnot⟩ | hzero | hfar
    · rw [hheld i (by omega)] at hnot
      cases hnot
    · have htwo := hvalid.two_le
      have hpos := t.window_pos
      have := hview.total_known (hheld 0 (by omega))
      omega
    · omega

/-- What an acknowledgement adds to what the sender knows: nothing, or a block. -/
theorem deliverAck_acknowledged (h : x.Inv t) (hvalid : t.Valid) (hs : x.tx.session = some s) {k : Nat} {a : FragmentAck}
    (ha : x.acks[k]? = some a) :
    (t.step x (.deliverAck k)).rx = x.rx ∧
      (x.acknowledged t < (t.step x (.deliverAck k)).acknowledged t ∨
        (t.step x (.deliverAck k)).acknowledged t = x.acknowledged t ∧ (a.windowStart = s.windowStart →
          ∀ i, s.windowStart ≤ i → i < s.windowEnd → a.bitfield.getLsbD (i - s.windowStart) = true →
            s.acked.getLsbD i = true)) := by
  have hagrees := h.tx s hs
  have hend := hagrees.sending.windowEnd hvalid.le_max
  have hbefore : x.acknowledged t = card s.acked := by
    rw [Exchange.acknowledged, hs]
  dsimp only [Transaction.step]
  rw [ha]
  dsimp only
  refine ⟨rfl, ?_⟩
  rw [handleAck_own hagrees.sending hs, hbefore]
  rcases hagrees.sending.applyAck hvalid.le_max a.windowStart a.bitfield with ⟨hnone, hall⟩ |
    ⟨s', happly, -, hacked, ⟨i, hold, hnew⟩, -, -, hcases⟩
  · rw [hnone]
    exact Or.inr ⟨rfl, hall⟩
  · rw [happly]
    refine Or.inl ?_
    rcases hcases with ⟨hcomplete, hall⟩ | ⟨hopen, -⟩
    · rw [if_pos (by rw [hcomplete]; rfl)]
      obtain ⟨b, hlo, hhi, hmissing⟩ := hagrees.sending.missing
      show card s.acked < t.total
      refine card_lt_of_missing (fun j hj => ?_) (show b < t.total by omega) hmissing
      have := hagrees.sending.acked_lt hj
      omega
    · rw [if_neg (by rw [hopen]; exact Bool.false_ne_true)]
      exact card_lt_card (fun i hi => (hacked i).mpr (Or.inl hi)) hnew hold

/-- What an answer amounts to: the block is taken, and its acknowledgement, if there is one, is applied. -/
theorem answer_cases (h : x.Inv t) (hvalid : t.Valid) {k : Nat} (hk : x.blocks[k]? = some (t.frame b)) (hb : b < t.total)
    (deliverUs : UInt32) (ieeeKnown : Bool) :
    ∃ rx' ack, RxInv t rx' ∧ Receives t x.rx.view rx' b ack ∧
      (ack = none → t.answer x k deliverUs ieeeKnown = { x with rx := rx' }) ∧
      ∀ a, ack = some a → Exchange.Inv t { x with rx := rx', acks := x.acks ++ [a] } ∧
        t.answer x k deliverUs ieeeKnown = t.step { x with rx := rx', acks := x.acks ++ [a] } (.deliverAck x.acks.length) := by
  obtain ⟨rx', ack, hdeliver, hrx', hreceives⟩ := h.receives hvalid hk hb ieeeKnown
  have hinv := h.deliverBlock hvalid k deliverUs ieeeKnown
  unfold Transaction.answer
  rw [hdeliver] at hinv ⊢
  refine ⟨rx', ack, hrx', hreceives, ?_, ?_⟩
  · rintro rfl
    simp
  · rintro a rfl
    refine ⟨hinv, ?_⟩
    simp

/-- A block that the receiver holds is answered when every later block of the window is there. -/
theorem Takes.ackFor_iff {e' : ReassemblyEntry} (htakes : Takes t e e' b) (hvalid : t.Valid) (hs : Session t e) (hs' : Session t e')
    (hopen : e.isComplete = false) (hheld : e.has b = true) (hzero : e.has 0 = true) :
    e'.windowStart = e.windowStart ∧
      ((e'.ackFor t b).isSome = true ↔ ∀ i, b < i → i < min (e.windowStart + t.window) t.total → e.has i = true) := by
  have hsame : ∀ i, e'.has i = e.has i := by
    intro i
    rw [htakes.has_iff]
    by_cases hi : b = i
    · subst hi
      rw [hheld]
      rfl
    · simp [hi]
  have hlt := hs.has_window hheld
  have hstart : e'.windowStart = e.windowStart := by
    rcases htakes.start with ⟨heq, -⟩ | ⟨hnext, hle⟩
    · exact heq
    · omega
  have htotal' : e'.totalBlocks = t.total := hs'.total_known (by rw [hsame]; exact hzero)
  have hopen' : e'.isComplete = false := by
    rw [Bool.eq_false_iff] at hopen ⊢
    intro hcomplete
    apply hopen
    obtain ⟨-, hall⟩ := isComplete_iff.mp hcomplete
    rw [htotal'] at hall
    exact hs.complete hvalid fun i hi => by rw [← hsame]; exact hall i hi
  have hend : e'.windowEnd t.window = min (e.windowStart + t.window) t.total := by
    have hw : t.window ≤ 8 := t.window_le
    have hmax : t.total ≤ 16 := hvalid.le_max
    have htwo := hvalid.two_le
    have hwindow := hs.window_lt
    unfold windowEnd saturatingAdd8
    dsimp only
    rw [htotal', if_pos (by omega), hstart]
    omega
  refine ⟨hstart, ?_⟩
  unfold ackFor
  rw [hopen', Bool.false_or, hend]
  by_cases hall : e'.hasAll (b + 1) (min (e.windowStart + t.window) t.total) = true
  · rw [if_pos hall]
    refine iff_of_true rfl fun i hlo hhi => ?_
    rw [← hsame]
    exact hasAll_iff.mp hall i hlo hhi
  · rw [if_neg hall]
    refine iff_of_false (by simp) fun hlater => hall ?_
    exact hasAll_iff.mpr fun i hlo hhi => by rw [hsame]; exact hlater i hlo hhi

theorem answer_progresses_iff (h : x.Inv t) (hvalid : t.Valid) (hs : x.tx.session = some s) {k : Nat}
    (hk : x.blocks[k]? = some (t.frame b)) (hlowest : s.lowestUnackedInWindow = some b) (deliverUs : UInt32) (ieeeKnown : Bool) :
    x.received + x.acknowledged t <
        (t.answer x k deliverUs ieeeKnown).received + (t.answer x k deliverUs ieeeKnown).acknowledged t ↔ Answerable x s := by
  have hagrees := h.tx s hs
  have hview := h.rx.session hvalid.two_le
  obtain ⟨b', hlowest', hlo, hhi, hmissing⟩ := hagrees.sending.lowest
  obtain rfl : b = b' := Option.some.inj (hlowest.symm.trans hlowest')
  have hend := hagrees.sending.windowEnd hvalid.le_max
  have hwmax : t.window ≤ 8 := t.window_le
  obtain ⟨rx', ack, hrx', hreceives, hnone, hsome⟩ :=
    answer_cases h hvalid hk (show b < t.total by omega) deliverUs ieeeKnown
  have hview' := hrx'.session hvalid.two_le
  have hreceived : x.received ≤ card rx'.view.received := card_le_card fun i hi => hreceives.has_mono hi
  -- An acknowledgement of the block adds to what the sender knows.
  have hacked : ∀ a, ack = some a → a.windowStart = s.windowStart → a.bitfield.getLsbD (b - s.windowStart) = true →
      x.received + x.acknowledged t <
        (t.answer x k deliverUs ieeeKnown).received + (t.answer x k deliverUs ieeeKnown).acknowledged t := by
    intro a ha hstart hbit
    obtain ⟨hinv, hanswer⟩ := hsome a ha
    obtain ⟨hrx'', hlt | ⟨-, hall⟩⟩ := deliverAck_acknowledged (k := x.acks.length) (a := a) hinv hvalid hs (by simp)
    · rw [hanswer, Exchange.received, Exchange.received, hrx'']
      exact Nat.add_lt_add_of_le_of_lt hreceived hlt
    · rw [hall hstart b hlo hhi hbit] at hmissing
      cases hmissing
  cases hreceives with
  | again hcomplete _ =>
    obtain ⟨hne, hall⟩ := isComplete_iff.mp hcomplete
    rw [hview.total_eq.resolve_left hne] at hall
    refine iff_of_true (hacked _ rfl (hagrees.same_window hview (hall b (by omega)) hlo) ?_) ?_
    · rw [show (0xFF : BitVec 8) = BitVec.allOnes 8 from rfl, BitVec.getLsbD_allOnes]
      exact decide_eq_true (by omega)
    · intro b' _ _ i _ hi
      exact hall i (by omega)
  | ignored _ houtside => exact absurd houtside (hagrees.not_outside hvalid hview hlo hhi)
  | taken hopen htakes =>
    by_cases hheld : x.rx.view.has b = true
    · have hwindow := hagrees.same_window hview hheld hlo
      have hzero : x.rx.view.has 0 = true := by
        by_cases hb : b = 0
        · rw [← hb]
          exact hheld
        · exact hagrees.acked_held (hagrees.sending.acked_below hlowest (by omega))
      obtain ⟨hstart', hack⟩ := htakes.ackFor_iff hvalid hview hview' hopen hheld hzero
      rw [hwindow, ← hend] at hack
      have hanswerable : Answerable x s ↔ (rx'.view.ackFor t b).isSome = true := by
        rw [hack]
        constructor
        · intro hall
          exact hall b hlowest hheld
        · intro hall b' hb' _
          obtain rfl : b = b' := Option.some.inj (hlowest.symm.trans hb')
          exact hall
      rw [hanswerable]
      cases hout : rx'.view.ackFor t b with
      | none =>
        refine iff_of_false ?_ (by simp)
        rw [hnone hout]
        have hsame : card rx'.view.received ≤ x.received := by
          apply card_le_card
          intro i hi
          have := htakes.has_iff i
          rw [show rx'.view.has i = true from hi] at this
          rcases Bool.or_eq_true _ _ ▸ this.symm with hi | hi
          · exact hi
          · rw [← beq_iff_eq.mp hi]
            exact hheld
        have hsame' : Exchange.acknowledged t { x with rx := rx' } = x.acknowledged t := rfl
        rw [hsame']
        exact Nat.not_lt.mpr (Nat.add_le_add_right hsame _)
      | some a =>
        refine iff_of_true (hacked a hout ?_ ?_) rfl
        · unfold ackFor at hout
          split at hout
          · cases hout
            exact hstart'.trans hwindow
          · cases hout
        · unfold ackFor at hout
          split at hout
          · cases hout
            have hbit := hview'.ack_bit hvalid.le_max (t.frame b).fragmentation
              (show b - s.windowStart < t.window by omega) (by omega)
            rw [hbit, hstart', hwindow, Nat.add_sub_cancel' hlo]
            exact Receives.has_mono (.taken hopen htakes) hheld
          · cases hout
    · -- A new block is stored.
      rw [Bool.not_eq_true] at hheld
      refine iff_of_true ?_ fun b' hb' hhas => ?_
      · have hnew : x.received < card rx'.view.received := by
          refine card_lt_card (i := b) (fun i hi => Receives.has_mono (.taken hopen htakes) hi) ?_ hheld
          have := htakes.has_iff b
          rw [beq_self_eq_true, Bool.or_true] at this
          exact this
        cases hout : rx'.view.ackFor t b with
        | none =>
          rw [hnone hout]
          exact Nat.add_lt_add_right hnew _
        | some a =>
          obtain ⟨hinv, hanswer⟩ := hsome a hout
          obtain ⟨hrx'', hknown⟩ := deliverAck_acknowledged (k := x.acks.length) (a := a) hinv hvalid hs (by simp)
          rw [hanswer, show Exchange.received (t.step _ _) = card rx'.view.received by
            rw [Exchange.received, hrx'']]
          refine Nat.add_lt_add_of_lt_of_le hnew ?_
          rcases hknown with hlt | ⟨heq, -⟩
          · exact Nat.le_of_lt hlt
          · exact Nat.le_of_eq heq.symm
      · obtain rfl : b = b' := Option.some.inj (hlowest.symm.trans hb')
        rw [hheld] at hhas
        cases hhas

/-- **Progress.**  In every state that the exchange can reach, with the sender waiting for an
    acknowledgement and a retry left, a timeout and the delivery of what is sent then increase the number
    of blocks that are received or known to be acknowledged exactly when the receiver can answer the
    block: it has not received it yet, or it holds every later block of the window. -/
theorem retry_progresses_iff {nowUs : UInt32} {keyFound : Bool} {x₀ : Exchange} (hstart : t.start nowUs keyFound = .ok x₀)
    {ops : List ExchangeOp} (hx : Run.run t.step x₀ ops = x) (hs : x.tx.session = some s) (hwaiting : s.waiting = true)
    {pollUs sendUs deliverUs : UInt32} (helapsed : APS_ACK_WAIT_DURATION_US ≤ pollUs - s.waitingSinceUs)
    (hretries : s.retries < s.maxRetries) (ieeeKnown : Bool) :
    x.received + x.acknowledged t <
        (t.retry x pollUs sendUs deliverUs ieeeKnown).received + (t.retry x pollUs sendUs deliverUs ieeeKnown).acknowledged t ↔
      Answerable x s := by
  obtain ⟨hvalid, hinv⟩ := run_inv hstart ops
  rw [hx] at hinv
  obtain ⟨b, hlowest, -⟩ := (hinv.tx s hs).sending.lowest
  have hsent := retry_sent sendUs hinv hvalid hs hwaiting helapsed hretries hlowest
  have hy : (t.step (t.step x (.poll pollUs)) (.send sendUs true)).Inv t := (hinv.poll hvalid).send hvalid true
  unfold Transaction.retry
  dsimp only
  rw [hsent] at hy ⊢
  have hiff := answer_progresses_iff hy hvalid rfl (k := (x.blocks ++ [t.frame b]).length - 1) (by simp) hlowest deliverUs ieeeKnown
  have hbefore : x.acknowledged t = card s.acked := by
    rw [Exchange.acknowledged, hs]
  rw [hbefore]
  exact hiff

end Progress

/-- The first block is lost: it is sent again, stored and acknowledged. -/
theorem lost_first_block_recovers :
    ∃ x₀, twoBlocks.start 0 true = .ok x₀ ∧
      let x := Run.run twoBlocks.step x₀ [.send 0 true, .send 0 true, .deliverBlock 1 0 true]
      let y := twoBlocks.retry x 1500000 1500000 1500000 true
      x.received + x.acknowledged twoBlocks < y.received + y.acknowledged twoBlocks :=
  ⟨_, rfl, (retry_progresses_iff (show twoBlocks.start 0 true = .ok _ from rfl) (show _ = Run.run twoBlocks.step _
    [.send 0 true, .send 0 true, .deliverBlock 1 0 true] from rfl) rfl rfl (by decide) (by decide) true).mpr (by
      intro b hb hhas
      obtain rfl : (0 : Nat) = b := Option.some.inj hb
      exact absurd hhas (by decide +kernel))⟩

/-- The last block of a window is lost: the sender repeats the first one, which the receiver holds and
    does not acknowledge, and both sides stay as they are. -/
theorem lost_last_block_stalls :
    ∃ x₀, twoBlocks.start 0 true = .ok x₀ ∧
      let x := Run.run twoBlocks.step x₀ [.send 0 true, .send 0 true, .deliverBlock 0 0 true]
      let y := twoBlocks.retry x 1500000 1500000 1500000 true
      (∃ s, x.tx.session = some s ∧ s.waiting = true ∧ APS_ACK_WAIT_DURATION_US ≤ 1500000 - s.waitingSinceUs ∧
        s.retries < s.maxRetries) ∧
      ¬ x.received + x.acknowledged twoBlocks < y.received + y.acknowledged twoBlocks :=
  ⟨_, rfl, ⟨_, rfl, rfl, by decide, by decide⟩, by decide +kernel⟩

end Zigbee.Aps
