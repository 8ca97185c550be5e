import Zigbee.Runtime.TrustCenterTable

/-!
# The timers of joining devices

`TrustCenterTable::tick` ages every device whose key exchange is pending, and returns from the loop
with the first one that expires.

* `age` — what a tick means for one slot; `tick_view` — how far the loop gets.
* `AgesFairly` — every pending timer loses the elapsed time, and what expires is removed at once.
* `agesFairly_iff` — a tick is fair exactly when it does not stop before a timer that still runs
  (`StopsEarly`).
* `rekey_undisturbed_iff` — a re-key leaves the admission of a verified device alone exactly when
  the device has not been located.
-/

namespace Zigbee.Runtime

open TrustCenterDevice

variable {address : IeeeAddress}

namespace TrustCenterTable

variable {t : TrustCenterTable} {i j : Nat} {d : TrustCenterDevice} {e : UInt8}

/-! ## One slot -/

/-- A slot and the replacement key that waits for it. -/
abbrev View := Option TrustCenterDevice × Option AesKey

def view (t : TrustCenterTable) (i : Nat) : View := (t.slot i, t.pendingLinkKey i)

/-- The initial exchange of the device, or a replacement of its key, is pending. -/
def waits (d : TrustCenterDevice) (key : Option AesKey) : Bool :=
  (d.joinTimeoutRemainingSecs != 0 && d.keyAttributes == .provisional) || key.isSome

/-- What is left of a timer. -/
def left (d : TrustCenterDevice) (e : UInt8) : UInt8 := d.joinTimeoutRemainingSecs - min e d.joinTimeoutRemainingSecs

theorem left_eq_zero : left d e = 0 ↔ d.joinTimeoutRemainingSecs ≤ e := by
  unfold left
  by_cases hle : e ≤ d.joinTimeoutRemainingSecs
  · have hmin : min e d.joinTimeoutRemainingSecs = e := if_pos hle
    rw [hmin, UInt8.le_iff_toNat_le, ← UInt8.toNat_inj, UInt8.toNat_sub_of_le _ _ hle, UInt8.toNat_zero]
    have := UInt8.le_iff_toNat_le.mp hle
    omega
  · have hmin : min e d.joinTimeoutRemainingSecs = d.joinTimeoutRemainingSecs := if_neg hle
    rw [hmin, UInt8.sub_self]
    exact iff_of_true rfl (UInt8.le_of_lt (UInt8.not_le.mp hle))

/-- A tick on one slot. -/
def age (e : UInt8) : View → View × Option TrustCenterAction
  | (none, key) => ((none, key), none)
  | (some d, key) =>
    if d.active && waits d key then
      if left d e ≠ 0 then ((some (d.withTimeout (left d e)), key), none)
      else if d.hasVerifiedReplacementKey then ((some (d.withTimeout (left d e)), none), none)
      else
        ((some (d.withTimeout (left d e)).deactivated, none),
          some (.removeDevice d.parentAddress d.ieeeAddress d.shortAddress))
    else ((some d, key), none)

/-- The view of one slot is replaced. -/
def Replaces (t t' : TrustCenterTable) (i : Nat) (v : View) : Prop := ∀ j, t'.view j = if j = i then v else t.view j

theorem replaces_same {v : View} (h : t.view i = v) : Replaces t t i v := by
  intro j
  split
  · rename_i hj
    rw [hj, h]
  · rfl

theorem WritesSlot.replaces {t' : TrustCenterTable} {p : Option AesKey} (h : WritesSlot t t' i d p) :
    Replaces t t' i (some d, p) := by
  intro j
  rw [view, h.slot, h.pending]
  split <;> rfl

theorem tickSlot_view (hi : i < MAX_TRUST_CENTER_DEVICES) :
    Replaces t (t.tickSlot e i).1 i (age e (t.view i)).1 ∧ (t.tickSlot e i).2 = (age e (t.view i)).2 := by
  unfold tickSlot
  cases hslot : t.slot i with
  | none =>
    have hview : t.view i = (none, t.pendingLinkKey i) := by rw [view, hslot]
    rw [hview]
    exact ⟨replaces_same hview, rfl⟩
  | some d =>
    have hview : t.view i = (some d, t.pendingLinkKey i) := by rw [view, hslot]
    have hpending := pendingLinkKey_isSome (t := t) hi
    rw [hview]
    by_cases hactive : d.active = true
    · rw [Option.filter_some_pos hactive]
      dsimp only
      by_cases hwaits : waits d (t.pendingLinkKey i) = true
      · have hgo : ¬ (!(d.joinTimeoutRemainingSecs != 0 && d.keyAttributes == .provisional) &&
            !t.hasPendingLinkKey i) = true := by
          rw [waits, hpending] at hwaits
          rw [← Bool.not_or, hwaits]
          exact Bool.false_ne_true
        have hage : age e (some d, t.pendingLinkKey i) =
            if left d e ≠ 0 then ((some (d.withTimeout (left d e)), t.pendingLinkKey i), none)
            else if d.hasVerifiedReplacementKey then ((some (d.withTimeout (left d e)), none), none)
            else
              ((some (d.withTimeout (left d e)).deactivated, none),
                some (.removeDevice d.parentAddress d.ieeeAddress d.shortAddress)) := by
          rw [age, hactive, hwaits]
          rfl
        have hleftDef : d.joinTimeoutRemainingSecs - min e d.joinTimeoutRemainingSecs = left d e := rfl
        rw [if_neg hgo, hage, hleftDef]
        by_cases hleft : left d e ≠ 0
        · rw [if_pos hleft, if_pos hleft]
          exact ⟨(writesSlot_keep hi).replaces, rfl⟩
        · rw [if_neg hleft, if_neg hleft]
          by_cases hverified : (d.withTimeout (left d e)).hasVerifiedReplacementKey = true
          · rw [if_pos hverified, if_pos (show d.hasVerifiedReplacementKey = true from hverified)]
            exact ⟨(writesSlot_clear hi).replaces, rfl⟩
          · rw [if_neg hverified, if_neg (show ¬ d.hasVerifiedReplacementKey = true from hverified)]
            exact ⟨(writesSlot_clear hi).replaces, rfl⟩
      · have hstay : (!(d.joinTimeoutRemainingSecs != 0 && d.keyAttributes == .provisional) &&
            !t.hasPendingLinkKey i) = true := by
          rw [waits, hpending] at hwaits
          rw [← Bool.not_or, Bool.not_eq_true _ |>.mp hwaits]
          rfl
        rw [if_pos hstay, age, if_neg (by simp [hwaits])]
        exact ⟨replaces_same hview, rfl⟩
    · rw [Option.filter_some_neg (Bool.not_eq_true _ |>.mp hactive), age, if_neg (by simp [hactive])]
      exact ⟨replaces_same hview, rfl⟩

/-! ## The loop -/

/-- The first `m` slots were ticked. -/
def TickedUpTo (e : UInt8) (t t' : TrustCenterTable) (s m : Nat) : Prop :=
  ∀ k, t'.view k = if s ≤ k ∧ k < m then (age e (t.view k)).1 else t.view k

/-- The loop comes to its end, or it stops behind the first slot that returns an action. -/
theorem tickSlots_view (n : Nat) {s : Nat} (hs : s + n ≤ MAX_TRUST_CENTER_DEVICES) :
    ((∀ k, s ≤ k → k < s + n → (age e (t.view k)).2 = none) ∧
      TickedUpTo e t (tickSlots e (List.range' s n) t).1 s (s + n) ∧ (tickSlots e (List.range' s n) t).2 = .none) ∨
    ∃ i, s ≤ i ∧ i < s + n ∧ (∀ k, s ≤ k → k < i → (age e (t.view k)).2 = none) ∧
      TickedUpTo e t (tickSlots e (List.range' s n) t).1 s (i + 1) ∧
      (age e (t.view i)).2 = some (tickSlots e (List.range' s n) t).2 := by
  induction n generalizing s t with
  | zero =>
    refine Or.inl ⟨fun k h h' => absurd h' (Nat.not_lt.mpr h), fun k => ?_, rfl⟩
    rw [if_neg (by omega)]
    rfl
  | succ n ih =>
    obtain ⟨hview, haction⟩ := tickSlot_view (t := t) (e := e) (show s < MAX_TRUST_CENTER_DEVICES by omega)
    rw [List.range'_succ, tickSlots]
    cases hslot : t.tickSlot e s with
    | mk t₁ action =>
      rw [hslot] at hview haction
      have hother : ∀ k, s + 1 ≤ k → t₁.view k = t.view k := fun k hk => by
        rw [hview k, if_neg (by omega)]
      cases action with
      | some a =>
        refine Or.inr ⟨s, Nat.le_refl s, by omega, fun k h h' => absurd h' (Nat.not_lt.mpr h), fun k => ?_, haction.symm⟩
        rw [hview k]
        by_cases hk : k = s
        · subst hk
          rw [if_pos rfl, if_pos (by omega)]
        · rw [if_neg hk, if_neg (by omega)]
      | none =>
        have hticked : ∀ {t' : TrustCenterTable} {m : Nat}, s + 1 ≤ m → TickedUpTo e t₁ t' (s + 1) m →
            TickedUpTo e t t' s m := by
          intro t' m hm h k
          rw [h k]
          by_cases hk : k = s
          · subst hk
            rw [if_neg (by omega), if_pos (by omega), hview, if_pos rfl]
          · by_cases hin : s + 1 ≤ k ∧ k < m
            · rw [if_pos hin, if_pos (by omega), hother k hin.1]
            · rw [if_neg hin, if_neg (by omega), hview, if_neg hk]
        have hnone : ∀ {m : Nat}, (∀ k, s + 1 ≤ k → k < m → (age e (t₁.view k)).2 = none) →
            ∀ k, s ≤ k → k < m → (age e (t.view k)).2 = none := by
          intro m h k hk hkm
          by_cases hks : k = s
          · rw [hks, ← haction]
          · rw [← hother k (by omega)]
            exact h k (by omega) hkm
        rcases ih (t := t₁) (s := s + 1) (by omega) with ⟨hno, hto, hres⟩ | ⟨i, hsi, hin, hno, hto, hres⟩
        · rw [show s + 1 + n = s + (n + 1) by omega] at hno hto
          exact Or.inl ⟨hnone hno, hticked (by omega) hto, hres⟩
        · refine Or.inr ⟨i, by omega, by omega, hnone hno, hticked (by omega) hto, ?_⟩
          rw [← hother i hsi]
          exact hres

/-- How far a tick gets. -/
theorem tick_view (he : e ≠ 0) :
    ((∀ k, (age e (t.view k)).2 = none) ∧ (∀ k, (t.tick e).1.view k = (age e (t.view k)).1) ∧
      (t.tick e).2 = .none) ∨
    ∃ i, (∀ k, k < i → (age e (t.view k)).2 = none) ∧
      (∀ k, (t.tick e).1.view k = if k ≤ i then (age e (t.view k)).1 else t.view k) ∧
      (age e (t.view i)).2 = some (t.tick e).2 := by
  have hempty : ∀ k, MAX_TRUST_CENTER_DEVICES ≤ k → age e (t.view k) = (t.view k, none) := by
    intro k hk
    have hslot : t.slot k = none := by
      cases hd : t.slot k with
      | none => rfl
      | some d => exact absurd (slot_lt hd) (Nat.not_lt.mpr hk)
    rw [view, hslot]
    rfl
  rw [tick, if_neg he, List.range_eq_range']
  rcases tickSlots_view (t := t) (e := e) MAX_TRUST_CENTER_DEVICES (s := 0) (by omega) with
    ⟨hno, hto, hres⟩ | ⟨i, -, -, hno, hto, hres⟩
  · refine Or.inl ⟨fun k => ?_, fun k => ?_, hres⟩
    · by_cases hk : k < MAX_TRUST_CENTER_DEVICES
      · exact hno k (Nat.zero_le k) (by omega)
      · rw [hempty k (Nat.not_lt.mp hk)]
    · rw [hto k]
      split
      · rfl
      · rename_i hk
        rw [hempty k (by omega)]
  · refine Or.inr ⟨i, fun k hk => hno k (Nat.zero_le k) hk, fun k => ?_, hres⟩
    rw [hto k]
    by_cases hk : k ≤ i
    · rw [if_pos (by omega), if_pos hk]
    · rw [if_neg (by omega), if_neg hk]

/-! ## Fair ticks -/

/-- The slot holds an active device whose exchange is pending. -/
def Waiting (t : TrustCenterTable) (i : Nat) (d : TrustCenterDevice) : Prop :=
  t.Holds i d ∧ waits d (t.pendingLinkKey i) = true

/-- What a tick should do: every pending timer loses the elapsed time, a device that runs out of it is
    removed unless its key was verified before, and nothing else changes. -/
structure AgesFairly (t : TrustCenterTable) (e : UInt8) : Prop where
  ages : ∀ i d, t.Waiting i d → ∃ d', (t.tick e).1.slot i = some d' ∧ d'.joinTimeoutRemainingSecs = left d e
  idle : ∀ i, (∀ d, ¬ t.Waiting i d) → (t.tick e).1.view i = t.view i
  removed : ∀ i d, t.Waiting i d → d.joinTimeoutRemainingSecs ≠ 0 → left d e = 0 → d.hasVerifiedReplacementKey = false →
    (t.tick e).1.view i = (some (d.withTimeout 0).deactivated, none) ∧
      (t.tick e).2 = .removeDevice d.parentAddress d.ieeeAddress d.shortAddress
  abandoned : ∀ i d, t.Waiting i d → d.joinTimeoutRemainingSecs ≠ 0 → left d e = 0 → d.hasVerifiedReplacementKey = true →
    (t.tick e).1.view i = (some (d.withTimeout 0), none)

/-- An unverified device runs out of time, and a device in a later slot has time left to lose. -/
def StopsEarly (t : TrustCenterTable) (e : UInt8) : Prop :=
  e ≠ 0 ∧ ∃ i j d d', i < j ∧ t.Waiting i d ∧ d.joinTimeoutRemainingSecs ≤ e ∧ d.hasVerifiedReplacementKey = false ∧
    t.Waiting j d' ∧ d'.joinTimeoutRemainingSecs ≠ 0

theorem Waiting.view_eq (h : t.Waiting i d) : t.view i = (some d, t.pendingLinkKey i) := by
  rw [view, h.1.1]

theorem Waiting.age_eq (h : t.Waiting i d) :
    age e (t.view i) =
      if left d e ≠ 0 then ((some (d.withTimeout (left d e)), t.pendingLinkKey i), none)
      else if d.hasVerifiedReplacementKey then ((some (d.withTimeout (left d e)), none), none)
      else
        ((some (d.withTimeout (left d e)).deactivated, none),
          some (.removeDevice d.parentAddress d.ieeeAddress d.shortAddress)) := by
  rw [h.view_eq, age, h.1.2, h.2]
  rfl

theorem age_idle (h : ∀ d, ¬ t.Waiting i d) : age e (t.view i) = (t.view i, none) := by
  rw [view]
  cases hslot : t.slot i with
  | none => rfl
  | some d =>
    rw [age, if_neg]
    intro hcond
    obtain ⟨hactive, hwaits⟩ := Bool.and_eq_true_iff.mp hcond
    exact h d ⟨⟨hslot, hactive⟩, hwaits⟩

theorem Waiting.age_slot (h : t.Waiting i d) :
    ∃ d', (age e (t.view i)).1.1 = some d' ∧ d'.joinTimeoutRemainingSecs = left d e := by
  rw [h.age_eq]
  split
  · exact ⟨_, rfl, rfl⟩
  · split
    · exact ⟨_, rfl, rfl⟩
    · exact ⟨_, rfl, rfl⟩

theorem left_zero (d : TrustCenterDevice) : left d 0 = d.joinTimeoutRemainingSecs := by
  have hmin : min 0 d.joinTimeoutRemainingSecs = 0 := if_pos UInt8.zero_le
  rw [left, hmin, UInt8.sub_zero]

/-- Time that passes is lost from a timer that runs. -/
theorem left_ne (he : e ≠ 0) (hd : d.joinTimeoutRemainingSecs ≠ 0) : left d e ≠ d.joinTimeoutRemainingSecs := by
  intro heq
  by_cases hzero : left d e = 0
  · exact hd (heq ▸ hzero)
  · have hlt : e < d.joinTimeoutRemainingSecs := UInt8.not_le.mp fun h => hzero (left_eq_zero.mpr h)
    have hmin : min e d.joinTimeoutRemainingSecs = e := if_pos (UInt8.le_of_lt hlt)
    rw [left, hmin, ← UInt8.toNat_inj, UInt8.toNat_sub_of_le _ _ (UInt8.le_of_lt hlt)] at heq
    have hpos : e.toNat ≠ 0 := fun h => he (UInt8.toNat_inj.mp h)
    have := UInt8.lt_iff_toNat_lt.mp hlt
    omega

theorem agesFairly_zero (t : TrustCenterTable) : t.AgesFairly 0 where
  ages _ d h := ⟨d, h.1.1, (left_zero d).symm⟩
  idle _ _ := rfl
  removed _ d _ hd hleft _ := absurd (left_zero d ▸ hleft) hd
  abandoned _ d _ hd hleft _ := absurd (left_zero d ▸ hleft) hd

/-- A slot that the loop has reached. -/
theorem agesFairly_of_reached (reached : Nat → Prop)
    (hreached : ∀ k, reached k → (t.tick e).1.view k = (age e (t.view k)).1)
    (hrest : ∀ k, ¬ reached k → (t.tick e).1.view k = t.view k ∧ ∀ d, t.Waiting k d → d.joinTimeoutRemainingSecs = 0)
    (hremoved : ∀ k d, reached k → t.Waiting k d → left d e = 0 → d.hasVerifiedReplacementKey = false →
      (t.tick e).2 = .removeDevice d.parentAddress d.ieeeAddress d.shortAddress) : t.AgesFairly e where
  ages i d h := by
    by_cases hi : reached i
    · have hslot : (t.tick e).1.slot i = (age e (t.view i)).1.1 := congrArg Prod.fst (hreached i hi)
      rw [hslot]
      exact h.age_slot
    · obtain ⟨hview, hzero⟩ := hrest i hi
      have hslot : (t.tick e).1.slot i = t.slot i := congrArg Prod.fst hview
      have hd := hzero d h
      refine ⟨d, hslot.trans h.1.1, ?_⟩
      rw [hd]
      exact (left_eq_zero.mpr (hd ▸ UInt8.zero_le)).symm
  idle i h := by
    by_cases hi : reached i
    · rw [hreached i hi, age_idle h]
    · exact (hrest i hi).1
  removed i d h hd hleft hverified := by
    by_cases hi : reached i
    · refine ⟨?_, hremoved i d hi h hleft hverified⟩
      rw [hreached i hi, h.age_eq, if_neg (not_not.mpr hleft), if_neg (by simp [hverified]), hleft]
    · exact absurd ((hrest i hi).2 d h) hd
  abandoned i d h hd hleft hverified := by
    by_cases hi : reached i
    · rw [hreached i hi, h.age_eq, if_neg (not_not.mpr hleft), if_pos hverified, hleft]
    · exact absurd ((hrest i hi).2 d h) hd

theorem Waiting.age_removes (h : t.Waiting i d) (hleft : left d e = 0) (hverified : d.hasVerifiedReplacementKey = false) :
    (age e (t.view i)).2 = some (.removeDevice d.parentAddress d.ieeeAddress d.shortAddress) := by
  rw [h.age_eq, if_neg (not_not.mpr hleft), if_neg (by simp [hverified])]

/-- What returns an action has run out of time. -/
theorem waiting_of_action {a : TrustCenterAction} (h : (age e (t.view i)).2 = some a) :
    ∃ d, t.Waiting i d ∧ left d e = 0 ∧ d.hasVerifiedReplacementKey = false := by
  by_cases hw : ∃ d, t.Waiting i d
  · obtain ⟨d, hd⟩ := hw
    rw [hd.age_eq] at h
    split at h
    · cases h
    · split at h
      · cases h
      · rename_i hleft hverified
        exact ⟨d, hd, not_not.mp hleft, Bool.not_eq_true _ |>.mp hverified⟩
  · rw [age_idle fun d hd => hw ⟨d, hd⟩] at h
    cases h

/-- **A tick is fair exactly when it does not stop early.** -/
theorem agesFairly_iff (t : TrustCenterTable) (e : UInt8) : t.AgesFairly e ↔ ¬ t.StopsEarly e := by
  constructor
  · rintro hfair ⟨he, i, j, d, d', hij, hi, hexpired, hverified, hj, hleft⟩
    have haction := hi.age_removes (left_eq_zero.mpr hexpired) hverified
    rcases tick_view (t := t) he with ⟨hno, -, -⟩ | ⟨k, hno, hview, -⟩
    · rw [hno i] at haction
      cases haction
    · have hki : k ≤ i := by
        by_contra hlt
        rw [hno i (by omega)] at haction
        cases haction
      obtain ⟨d'', hslot, hremaining⟩ := hfair.ages j d' hj
      have hsame : (t.tick e).1.slot j = t.slot j := by
        have hview := hview j
        rw [if_neg (by omega)] at hview
        exact congrArg Prod.fst hview
      rw [hsame, hj.1.1] at hslot
      obtain rfl := Option.some.inj hslot
      exact left_ne he hleft hremaining.symm
  · intro hno
    by_cases he : e = 0
    · rw [he]
      exact agesFairly_zero t
    · rcases tick_view (t := t) he with ⟨hnone, hview, -⟩ | ⟨i, hnone, hview, haction⟩
      · refine agesFairly_of_reached (fun _ => True) (fun k _ => hview k) (fun k hk => absurd trivial hk) ?_
        intro k d _ hd hleft hverified
        have := hd.age_removes hleft hverified
        rw [hnone k] at this
        cases this
      · obtain ⟨d, hd, hleft, hverified⟩ := waiting_of_action haction
        refine agesFairly_of_reached (fun k => k ≤ i) (fun k hk => ?_) (fun k hk => ⟨?_, fun d' hd' => ?_⟩) ?_
        · rw [hview k, if_pos hk]
        · rw [hview k, if_neg hk]
        · by_contra hrunning
          exact hno ⟨he, i, k, d, d', by omega, hd, left_eq_zero.mp hleft, hverified, hd', hrunning⟩
        · intro k d' hk hd' hleft' hverified'
          have haction' := hd'.age_removes hleft' hverified'
          rcases Nat.lt_or_eq_of_le hk with hlt | rfl
          · rw [hnone k hlt] at haction'
            cases haction'
          · exact Option.some.inj (haction.symm.trans haction')

/-! ## A re-key -/

/-- Slot `i` holds the verified device `d₀`, with any timer, and no slot has come into use. -/
structure Rekeyed (t₀ : TrustCenterTable) (i : Nat) (d₀ : TrustCenterDevice) (t : TrustCenterTable) : Prop where
  device : ∃ r, t.slot i = some (d₀.withTimeout r)
  others : ∀ k d, t.Holds k d → ∃ d₁, t₀.Holds k d₁ ∧ d₁.ieeeAddress = d.ieeeAddress

theorem age_holds {v : View} (h : (age e v).1.1 = some d) (hd : d.active = true) :
    ∃ d₁, v.1 = some d₁ ∧ d₁.active = true ∧ d₁.ieeeAddress = d.ieeeAddress := by
  obtain ⟨slot, key⟩ := v
  cases slot with
  | none => cases h
  | some d₁ =>
    simp only [age] at h
    split_ifs at h with hcond hleft hverified
    · cases h
      exact ⟨d₁, rfl, (Bool.and_eq_true_iff.mp hcond).1, rfl⟩
    · cases h
      exact ⟨d₁, rfl, (Bool.and_eq_true_iff.mp hcond).1, rfl⟩
    · cases h
      cases hd
    · cases h
      exact ⟨d, rfl, hd, rfl⟩

theorem age_verified {d₀ : TrustCenterDevice} {r : UInt8} {key : Option AesKey} (hverified : d₀.hasVerifiedReplacementKey = true) :
    ∃ r', (age e (some (d₀.withTimeout r), key)).1.1 = some (d₀.withTimeout r') := by
  have hverified' : (d₀.withTimeout r).hasVerifiedReplacementKey = true := hverified
  simp only [age]
  split_ifs
  · exact ⟨_, rfl⟩
  · exact ⟨_, rfl⟩
  · exact ⟨r, rfl⟩

variable {t₀ : TrustCenterTable} {d₀ : TrustCenterDevice}

theorem Rekeyed.tick (h : Rekeyed t₀ i d₀ t) (hverified : d₀.hasVerifiedReplacementKey = true) (e : UInt8) :
    Rekeyed t₀ i d₀ (t.tick e).1 := by
  by_cases he : e = 0
  · rw [he]
    exact h
  · have hslots : ∀ k, (t.tick e).1.slot k = (age e (t.view k)).1.1 ∨ (t.tick e).1.slot k = t.slot k := by
      intro k
      rcases tick_view (t := t) he with ⟨-, hview, -⟩ | ⟨j, -, hview, -⟩
      · exact Or.inl (congrArg Prod.fst (hview k))
      · have hk := hview k
        split at hk
        · exact Or.inl (congrArg Prod.fst hk)
        · exact Or.inr (congrArg Prod.fst hk)
    refine ⟨?_, fun k d hd => ?_⟩
    · obtain ⟨r, hr⟩ := h.device
      rcases hslots i with hage | hsame
      · rw [hage, view, hr]
        exact age_verified hverified
      · exact ⟨r, hsame.trans hr⟩
    · rcases hslots k with hage | hsame
      · obtain ⟨d₁, hslot, hactive, haddress⟩ := age_holds (hage.symm.trans hd.1) hd.2
        obtain ⟨d₂, hd₂, haddress₂⟩ := h.others k d₁ ⟨hslot, hactive⟩
        exact ⟨d₂, hd₂, haddress₂.trans haddress⟩
      · exact h.others k d ⟨hsame.symm.trans hd.1, hd.2⟩

/-- The re-key of a device, and some ticks. -/
def rekeyed (t : TrustCenterTable) (address : IeeeAddress) (key : AesKey) (joinTimeoutSecs : UInt8) (es : List UInt8) :
    TrustCenterTable :=
  Run.run (fun t e => (t.tick e).1) (t.installGeneratedTrustCenterLinkKey address key joinTimeoutSecs).1 es

theorem install_view (hindex : t.deviceIndex address = some i) (hd : t.slot i = some d) (key : AesKey) (joinTimeoutSecs : UInt8) :
    Replaces t (t.installGeneratedTrustCenterLinkKey address key joinTimeoutSecs).1 i
      (some (d.withTimeout (max joinTimeoutSecs 1)), some key) := by
  have hi := slot_lt hd
  intro j
  unfold installGeneratedTrustCenterLinkKey
  rw [hindex]
  simp only [slot_setPendingLinkKey, hd]
  rw [view, slot_setDevice hi, slot_setPendingLinkKey, pendingLinkKey_setDevice, pendingLinkKey_setPendingLinkKey hi]
  split <;> rfl

theorem rekeyed_install (hindex : t.deviceIndex address = some i) (hd : t.slot i = some d₀) (key : AesKey) (joinTimeoutSecs : UInt8) :
    Rekeyed t i d₀ (t.installGeneratedTrustCenterLinkKey address key joinTimeoutSecs).1 := by
  have hview := install_view hindex hd key joinTimeoutSecs
  have hslot : ∀ j, (t.installGeneratedTrustCenterLinkKey address key joinTimeoutSecs).1.slot j =
      if j = i then some (d₀.withTimeout (max joinTimeoutSecs 1)) else t.slot j := by
    intro j
    have hj := congrArg Prod.fst (hview j)
    split
    · rename_i h
      rw [if_pos h] at hj
      exact hj
    · rename_i h
      rw [if_neg h] at hj
      exact hj
  refine ⟨⟨_, (hslot i).trans (if_pos rfl)⟩, fun k d hk => ?_⟩
  have hk' := (hslot k).symm.trans hk.1
  split at hk'
  · rename_i h
    cases hk'
    exact ⟨d₀, ⟨h ▸ hd, hk.2⟩, rfl⟩
  · exact ⟨d, ⟨hk', hk.2⟩, rfl⟩

theorem rekeyed_ticks (hindex : t.deviceIndex address = some i) (hd : t.slot i = some d₀)
    (hverified : d₀.hasVerifiedReplacementKey = true) (key : AesKey) (joinTimeoutSecs : UInt8) (es : List UInt8) :
    Rekeyed t i d₀ (t.rekeyed address key joinTimeoutSecs es) :=
  Run.run_invariant (fun _ e h => h.tick hverified e) (rekeyed_install hindex hd key joinTimeoutSecs) es

/-! ## The end of a re-key -/

/-- The active devices below slot `i`. -/
def activeBelow (t : TrustCenterTable) (i : Nat) : Finset Nat :=
  (Finset.range i).filter fun k => (t.slot k).any (·.active) = true

theorem mem_activeBelow {k : Nat} : k ∈ t.activeBelow i ↔ k < i ∧ ∃ d, t.Holds k d := by
  simp [activeBelow, Holds, Option.any_eq_true]

theorem left_max (d : TrustCenterDevice) : left d 255 = 0 := by
  refine left_eq_zero.mpr (UInt8.le_iff_toNat_le.mpr ?_)
  have := d.joinTimeoutRemainingSecs.toNat_lt
  have hmax : (255 : UInt8).toNat = 255 := rfl
  omega

/-- A tick of 255 seconds comes to the device, or it removes a device below it. -/
theorem Waiting.reached_or_lower (h : t.Waiting i d) (hverified : d.hasVerifiedReplacementKey = true) :
    (t.tick 255).1.slot i = some (d.withTimeout 0) ∨
      (t.tick 255).1.Waiting i d ∧ (t.tick 255).1.activeBelow i ⊂ t.activeBelow i := by
  have hage : age 255 (t.view i) = ((some (d.withTimeout 0), none), none) := by
    rw [h.age_eq, left_max, if_neg (not_not.mpr rfl), if_pos hverified]
  rcases tick_view (t := t) (e := 255) (by decide) with ⟨-, hview, -⟩ | ⟨k, -, hview, haction⟩
  · left
    exact (congrArg Prod.fst (hview i)).trans (by rw [hage])
  · by_cases hik : i ≤ k
    · left
      have hi := hview i
      rw [if_pos hik, hage] at hi
      exact congrArg Prod.fst hi
    · right
      have hi := hview i
      rw [if_neg hik] at hi
      have hslot : (t.tick 255).1.slot i = t.slot i := congrArg Prod.fst hi
      have hpending : (t.tick 255).1.pendingLinkKey i = t.pendingLinkKey i := congrArg Prod.snd hi
      refine ⟨⟨⟨hslot.trans h.1.1, h.1.2⟩, by rw [hpending]; exact h.2⟩, ?_⟩
      obtain ⟨dk, hk, -, hunverified⟩ := waiting_of_action haction
      have hgone : (t.tick 255).1.slot k = some (dk.withTimeout 0).deactivated := by
        have hkview := hview k
        rw [if_pos (Nat.le_refl k), hk.age_eq, left_max, if_neg (not_not.mpr rfl), if_neg (by simp [hunverified])] at hkview
        exact congrArg Prod.fst hkview
      refine Finset.ssubset_iff_of_subset (fun j hj => ?_) |>.mpr ⟨k, mem_activeBelow.mpr ⟨by omega, dk, hk.1⟩, fun hmem => ?_⟩
      · obtain ⟨hji, d', hd'⟩ := mem_activeBelow.mp hj
        refine mem_activeBelow.mpr ⟨hji, ?_⟩
        have hjview := congrArg Prod.fst (hview j)
        split at hjview
        · obtain ⟨d₁, hslot₁, hactive, -⟩ := age_holds (hjview.symm.trans hd'.1) hd'.2
          exact ⟨d₁, hslot₁, hactive⟩
        · exact ⟨d', hjview.symm.trans hd'.1, hd'.2⟩
      · obtain ⟨-, d', hd'⟩ := mem_activeBelow.mp hmem
        have hsame := Option.some.inj (hgone.symm.trans hd'.1)
        exact Bool.false_ne_true (hsame ▸ hd'.2 : (dk.withTimeout 0).deactivated.active = true)

/-- Some ticks abandon the exchange of a verified device. -/
theorem exists_abandons (hverified : d.hasVerifiedReplacementKey = true) (n : Nat) (h : t.Waiting i d)
    (hn : (t.activeBelow i).card ≤ n) :
    ∃ es, (Run.run (fun t e => (TrustCenterTable.tick t e).1) t es).slot i = some (d.withTimeout 0) := by
  induction n generalizing t with
  | zero =>
    rcases h.reached_or_lower hverified with hdone | ⟨-, hlower⟩
    · exact ⟨[255], hdone⟩
    · have := Finset.card_lt_card hlower
      omega
  | succ n ih =>
    rcases h.reached_or_lower hverified with hdone | ⟨hwaits, hlower⟩
    · exact ⟨[255], hdone⟩
    · have := Finset.card_lt_card hlower
      obtain ⟨es, hes⟩ := ih hwaits (by omega)
      exact ⟨255 :: es, hes⟩

/-! ## The admission of a device that is re-keyed -/

/-- Slot `i` holds the device with the key, the admission and the answer to a secured rejoin that it has in `t`. -/
def Undisturbed (t t' : TrustCenterTable) (i : Nat) (d : TrustCenterDevice) : Prop :=
  ∃ d', t'.Holds i d' ∧ d'.linkKey = d.linkKey ∧ d'.keyOrigin = d.keyOrigin ∧ d'.keyAttributes = d.keyAttributes ∧
    d'.hasCompletedAdmission = d.hasCompletedAdmission ∧
    ∀ policy indication, indication.deviceAddress = d.ieeeAddress → indication.status = .standardDeviceSecuredRejoin →
      (t'.handleUpdateDevice policy indication).2 = (t.handleUpdateDevice policy indication).2

theorem device_of_index (hindex : t.deviceIndex address = some i) (hd : t.slot i = some d) : t.device address = some d := by
  rw [device, hindex, Option.bind_some, hd]

/-- A verified device that rejoins is answered by its admission. -/
theorem securedRejoin_answer {policy : TrustCenterPolicy} {indication : ApsmeUpdateDeviceIndication}
    (hindex : t.deviceIndex indication.deviceAddress = some i) (hd : t.slot i = some d)
    (hverified : d.hasVerifiedReplacementKey = true) :
    (t.securedRejoin policy indication).2 =
      if d.hasCompletedAdmission || policy.allowRejoins then .ok .none
      else .ok (.removeDevice indication.sourceAddress indication.deviceAddress indication.deviceShortAddress) := by
  have hdevice := device_of_index hindex hd
  have hallows : t.installCodePolicyAllowsAdmission policy indication.deviceAddress = true := by
    rw [installCodePolicyAllowsAdmission, hdevice, Option.any_some, hverified, Bool.or_true, Bool.or_true]
  have hensure : t.ensureDefaultDeviceIndex indication.deviceAddress = (t, .ok i) := by
    rw [ensureDefaultDeviceIndex, hindex]
    simp [hindex]
  unfold securedRejoin
  rw [hdevice, Option.any_some, hallows, hensure]
  dsimp only
  rw [Bool.true_and, hd]
  by_cases hok : (d.hasCompletedAdmission || policy.allowRejoins) = true
  · rw [if_neg (by simp only [hok]; decide), if_pos hok]
  · rw [if_pos (by simpa only [Bool.not_eq_true', Bool.not_eq_true] using hok), if_neg hok]

/-- What a re-key leaves alone keeps its answers. -/
theorem undisturbed_of_admission {t' : TrustCenterTable} {r : UInt8} (hindex : t.deviceIndex d.ieeeAddress = some i)
    (hd : t.slot i = some d) (hverified : d.hasVerifiedReplacementKey = true)
    (hindex' : t'.deviceIndex d.ieeeAddress = some i) (hd' : t'.slot i = some (d.withTimeout r))
    (hadmission : (d.withTimeout r).hasCompletedAdmission = d.hasCompletedAdmission) : t.Undisturbed t' i d := by
  have hactive : d.active = true := by
    obtain ⟨d₁, hd₁, -⟩ := deviceIndex_eq_some hindex
    rw [hd₁.1] at hd
    exact Option.some.inj hd ▸ hd₁.2
  refine ⟨d.withTimeout r, ⟨hd', hactive⟩, rfl, rfl, rfl, hadmission, fun policy indication haddress hstatus => ?_⟩
  have hverified' : (d.withTimeout r).hasVerifiedReplacementKey = true := hverified
  have hanswer : (t'.securedRejoin policy indication).2 = (t.securedRejoin policy indication).2 := by
    rw [securedRejoin_answer (haddress ▸ hindex) hd hverified, securedRejoin_answer (haddress ▸ hindex') hd' hverified',
      hadmission]
  unfold handleUpdateDevice
  rw [hstatus]
  split
  · rfl
  · split
    · rfl
    · exact hanswer

theorem Rekeyed.deviceIndex (h : Rekeyed t₀ i d₀ t) (hindex : t₀.deviceIndex d₀.ieeeAddress = some i)
    (hactive : d₀.active = true) : t.deviceIndex d₀.ieeeAddress = some i := by
  obtain ⟨r, hr⟩ := h.device
  obtain ⟨-, hmem, hfirst⟩ := List.find?_range_eq_some.mp hindex
  refine List.find?_range_eq_some.mpr ⟨isActiveAt_iff.mpr ⟨_, ⟨hr, hactive⟩, rfl⟩, hmem, fun k hk => ?_⟩
  cases hat : t.isActiveAt d₀.ieeeAddress k with
  | false => rfl
  | true =>
    obtain ⟨d, hd, haddress⟩ := isActiveAt_iff.mp hat
    obtain ⟨d₁, hd₁, haddress₁⟩ := h.others k d hd
    have := hfirst k hk
    rw [isActiveAt_iff.mpr ⟨d₁, hd₁, haddress₁.trans haddress⟩] at this
    cases this

/-- **A re-key leaves a verified device alone exactly when the device has not been located.** Until the timer runs
    out, a device that was admitted counts as one that is not. -/
theorem rekey_undisturbed_iff (hindex : t.deviceIndex d.ieeeAddress = some i) (hd : t.slot i = some d)
    (hverified : d.hasVerifiedReplacementKey = true) (key : AesKey) (joinTimeoutSecs : UInt8) :
    (∀ es, t.Undisturbed (t.rekeyed d.ieeeAddress key joinTimeoutSecs es) i d) ↔ d.located = false := by
  have hactive : d.active = true := by
    obtain ⟨d₁, hd₁, -⟩ := deviceIndex_eq_some hindex
    rw [hd₁.1] at hd
    exact Option.some.inj hd ▸ hd₁.2
  constructor
  · intro hall
    by_contra hlocated
    rw [Bool.not_eq_false] at hlocated
    have hinstall := install_view hindex hd key joinTimeoutSecs i
    rw [if_pos rfl] at hinstall
    have hslot := congrArg Prod.fst hinstall
    by_cases hzero : d.joinTimeoutRemainingSecs = 0
    · -- an admitted device: the timer that has just been set denies the admission
      obtain ⟨d', hd', -, -, -, hadmission, -⟩ := hall []
      have hd'' := Option.some.inj (hd'.1.symm.trans hslot)
      rw [hd'', hasCompletedAdmission, hasCompletedAdmission, hzero, hlocated] at hadmission
      have hset : (max joinTimeoutSecs 1 == 0) = false := beq_false_of_ne (max_one_ne_zero joinTimeoutSecs)
      simp [withTimeout, hset] at hadmission
    · -- a device whose timer was running: the end of the re-key grants the admission
      have hwaits : (t.installGeneratedTrustCenterLinkKey d.ieeeAddress key joinTimeoutSecs).1.Waiting i
          (d.withTimeout (max joinTimeoutSecs 1)) := by
        refine ⟨⟨hslot, hactive⟩, ?_⟩
        rw [show TrustCenterTable.pendingLinkKey _ i = some key from congrArg Prod.snd hinstall, waits, Option.isSome_some, Bool.or_true]
      obtain ⟨es, hes⟩ := exists_abandons (d := d.withTimeout (max joinTimeoutSecs 1)) hverified _ hwaits (Nat.le_refl _)
      obtain ⟨d', hd', -, -, -, hadmission, -⟩ := hall es
      have hd'' := Option.some.inj (hd'.1.symm.trans hes)
      rw [hd'', hasCompletedAdmission, hasCompletedAdmission, beq_false_of_ne hzero] at hadmission
      exact Bool.false_ne_true (hadmission.symm.trans hlocated)
  · intro hlocated es
    have hrekeyed := rekeyed_ticks hindex hd hverified key joinTimeoutSecs es
    obtain ⟨r, hr⟩ := hrekeyed.device
    refine undisturbed_of_admission hindex hd hverified (hrekeyed.deviceIndex hindex hactive) hr ?_
    rw [hasCompletedAdmission, hasCompletedAdmission, hlocated]
    exact (congrArg (_ && ·) hlocated).trans (by rw [Bool.and_false, Bool.and_false])

/-- Every tick of a run is fair exactly when none stops early; and a voluntary re-key leaves the key, the admission
    and the answer to a secured rejoin of a verified device as they were, in every run of ticks, exactly when the
    device has not been located. -/
theorem timers_fair_iff (t : TrustCenterTable) :
    (∀ es, Run.Along (fun t e => (TrustCenterTable.tick t e).1) AgesFairly t es ↔
      Run.Along (fun t e => (TrustCenterTable.tick t e).1) (fun t e => ¬ t.StopsEarly e) t es) ∧
    ∀ address i d, t.deviceIndex address = some i → t.slot i = some d → d.hasVerifiedReplacementKey = true →
      ∀ key joinTimeoutSecs, (∀ es, t.Undisturbed (t.rekeyed address key joinTimeoutSecs es) i d) ↔ d.located = false := by
  refine ⟨fun es => ?_, fun address i d hindex hd hverified key joinTimeoutSecs => ?_⟩
  · exact ⟨Run.Along.mono fun t e => (agesFairly_iff t e).mp, Run.Along.mono fun t e => (agesFairly_iff t e).mpr⟩
  · obtain ⟨d₁, hd₁, haddress⟩ := deviceIndex_eq_some hindex
    rw [hd₁.1] at hd
    obtain rfl := Option.some.inj hd
    subst haddress
    exact rekey_undisturbed_iff hindex hd₁.1 hverified key joinTimeoutSecs

/-! ## Two joining devices, and one that is re-keyed -/

def timedPolicy : TrustCenterPolicy where
  allowJoins := true
  useWhitelist := false
  installCodes := .unsupported
  requireLinkKeyUpdate := true
  allowRejoins := false
  linkKeyRequests := .anyDevice
  applicationKeyRequests := .never
  joinTimeoutSecs := 100

/-- What device `n` is reported with, by router 9. -/
def reportOf (n : UInt8) (status : ApsUpdateDeviceStatus) : ApsmeUpdateDeviceIndication where
  sourceAddress := Vector.replicate 8 9
  deviceAddress := Vector.replicate 8 n
  deviceShortAddress := n.toUInt16
  status := status

/-- Device 1 joins, and device 2 joins after 95 seconds. -/
def twoJoining : TrustCenterTable :=
  let t := (new.handleUpdateDevice timedPolicy (reportOf 1 .standardDeviceUnsecuredJoin)).1
  ((t.tick 95).1.handleUpdateDevice timedPolicy (reportOf 2 .standardDeviceUnsecuredJoin)).1

def timedKey (n : UInt8) : AesKey := Vector.replicate 16 n

/-- The device at the address gets a new key and verifies it. -/
def verified (t : TrustCenterTable) (n : UInt8) : TrustCenterTable :=
  let t := (t.installGeneratedTrustCenterLinkKey (Vector.replicate 8 n) (timedKey 7) 100).1
  (t.handleVerifyKey id ⟨Vector.replicate 8 n, timedKey 7⟩).1

/-- Device 1 has joined and verified its key. -/
def admittedTable : TrustCenterTable :=
  (new.handleUpdateDevice timedPolicy (reportOf 1 .standardDeviceUnsecuredJoin)).1.verified 1

/-- Device 1 was provisioned and has verified its key, and no router has reported it. -/
def unreportedTable : TrustCenterTable := (new.provisionLinkKey (Vector.replicate 8 1) (timedKey 3) .installCode).1.verified 1

/-- What the slot holds. -/
def deviceAt (t : TrustCenterTable) (i : Nat) : TrustCenterDevice :=
  (t.slot i).getD (provisioned (Vector.replicate 8 0) (timedKey 0) .installCode)

/-- The re-key of a device that is not located is never seen. -/
theorem unreported_rekey_unseen (es : List UInt8) :
    unreportedTable.Undisturbed (unreportedTable.rekeyed (Vector.replicate 8 1) (timedKey 8) 100 es) 0
      (unreportedTable.deviceAt 0) :=
  ((timers_fair_iff unreportedTable).2 (Vector.replicate 8 1) 0 (unreportedTable.deviceAt 0) (by decide +kernel)
    (by decide +kernel) (by decide +kernel) (timedKey 8) 100).mpr (by decide +kernel) es

/-- Ten seconds later the first device has expired and the second has lost no time; and an admitted device that is
    re-keyed is removed when it rejoins. -/
theorem expiry_hides_later_devices :
    (¬ twoJoining.AgesFairly 10 ∧ (twoJoining.tick 10).1.slot 1 = twoJoining.slot 1) ∧
      ¬ admittedTable.Undisturbed (admittedTable.rekeyed (Vector.replicate 8 1) (timedKey 8) 100 []) 0
        (admittedTable.deviceAt 0) := by
  refine ⟨⟨fun hfair => (agesFairly_iff _ _).mp hfair ?_, by decide +kernel⟩, ?_⟩
  · exact ⟨by decide, 0, 1, twoJoining.deviceAt 0, twoJoining.deviceAt 1, by decide, ⟨⟨by decide +kernel, by decide +kernel⟩,
      by decide +kernel⟩, by decide +kernel, by decide +kernel, ⟨⟨by decide +kernel, by decide +kernel⟩, by decide +kernel⟩,
      by decide +kernel⟩
  · rintro ⟨d', -, -, -, -, -, hanswer⟩
    have hremoved := hanswer timedPolicy (reportOf 1 .standardDeviceSecuredRejoin) (by decide +kernel) rfl
    exact absurd hremoved (by decide +kernel)

end TrustCenterTable

end Zigbee.Runtime
