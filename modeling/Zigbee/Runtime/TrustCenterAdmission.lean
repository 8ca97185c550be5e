import Zigbee.Runtime.TrustCenterTable

/-!
# The admission policy of the Trust Center

* `Op`, `apply` — the operations on the table.
* `Change` — what an operation may do to what the table holds for one address.
* `apply_change` — every operation keeps the invariant, and changes each address only as `Change` says.
* `admission_policy` — the policy over runs of operations from the empty table.
-/

namespace Zigbee.Runtime

open TrustCenterDevice

variable {d : TrustCenterDevice} {t' : TrustCenterTable} {p : Option AesKey} {op : Op} {key : AesKey} {a : IeeeAddress}

namespace TrustCenterTable

inductive Op where
  | updateDevice (indication : ApsmeUpdateDeviceIndication)
  | requestKey (indication : ApsmeRequestKeyIndication) (trustCenterAddress : IeeeAddress)
  | installGenerated (address : IeeeAddress) (key : AesKey) (joinTimeoutSecs : UInt8)
  | verifyKey (indication : ApsmeVerifyKeyIndication)
  | provisionLinkKey (address : IeeeAddress) (key : AesKey) (origin : TrustCenterKeyOrigin)
  | provisionInstallCode (address : IeeeAddress) (installCode : Bytes.Buf)
  | tick (elapsedSecs : UInt8)
  | revoke (address : IeeeAddress)
  deriving DecidableEq

section
variable (policy : TrustCenterPolicy) (hash : AesKey → AesKey) (derive : Bytes.Buf → Except InstallCodeError AesKey)

/-- The table behind an operation, and its action where it has one. -/
def apply (t : TrustCenterTable) : Op → TrustCenterTable × Option TrustCenterAction
  | .updateDevice indication =>
    let (t, result) := t.handleUpdateDevice policy indication
    (t, result.toOption)
  | .requestKey indication trustCenterAddress => (t, (t.handleRequestKey policy indication trustCenterAddress).toOption)
  | .installGenerated address key joinTimeoutSecs =>
    ((t.installGeneratedTrustCenterLinkKey address key joinTimeoutSecs).1, none)
  | .verifyKey indication =>
    let (t, result) := t.handleVerifyKey hash indication
    (t, result.toOption)
  | .provisionLinkKey address key origin => ((t.provisionLinkKey address key origin).1, none)
  | .provisionInstallCode address installCode => ((t.provisionInstallCode derive address installCode).1, none)
  | .tick elapsedSecs =>
    let (t, action) := t.tick elapsedSecs
    (t, some action)
  | .revoke address => ((t.revoke address).1, none)

/-- The key of an install code that is accepted. -/
def installCodeKey (installCode : Bytes.Buf) : Option AesKey :=
  if installCode.length ≠ 18 then none else (derive installCode).toOption

/-- The link key that an operation provisions for an address. -/
def provisions : Op → Option (IeeeAddress × AesKey × TrustCenterKeyOrigin)
  | .provisionLinkKey address key origin => some (address, key, origin)
  | .provisionInstallCode address installCode =>
    (installCodeKey derive installCode).map fun key => (address, key, .installCode)
  | _ => none

/-- Aging: the timeout runs down, and a replacement key may be given up. It ends the admission of no
    device whose exchange runs, unless its key is verified. -/
structure Aged (d d' : TrustCenterDevice) (p p' : Option AesKey) : Prop where
  device : d' = d.withTimeout d'.joinTimeoutRemainingSecs
  timeout : d'.joinTimeoutRemainingSecs = 0 → d.joinTimeoutRemainingSecs = 0 ∨ d.hasVerifiedReplacementKey = true
  pending : p' = none ∨ p' = p

/-- What an operation may do to what the table holds for an address. -/
inductive Change (a : IeeeAddress) : Op → Option Entry → Option Entry → Prop where
  | same (op : Op) (e : Option Entry) : Change a op e e
  | provisioned {op : Op} {key : AesKey} {origin : TrustCenterKeyOrigin} (h : provisions derive op = some (a, key, origin)) :
      Change a op none (some (provisioned a key origin, none))
  | reprovisioned {op : Op} {key : AesKey} {origin : TrustCenterKeyOrigin} (h : provisions derive op = some (a, key, origin))
      (d : TrustCenterDevice) (p : Option AesKey) :
      Change a op (some (d, p)) (some (d.reprovisioned key origin, none))
  | appeared {indication : ApsmeUpdateDeviceIndication} (h : indication.deviceAddress = a) (timeout : UInt8)
      (ht : policy.requireLinkKeyUpdate = true → timeout ≠ 0) :
      Change a (.updateDevice indication) none
        (some ((provisioned a DEFAULT_TC_LINK_KEY .defaultGlobal).updateLocation indication timeout, none))
  | moved {indication : ApsmeUpdateDeviceIndication} (h : indication.deviceAddress = a) (timeout : UInt8)
      (d : TrustCenterDevice) (p : Option AesKey)
      (ht : timeout = 0 → policy.requireLinkKeyUpdate = true →
        d.hasCompletedAdmission = true ∨ d.hasVerifiedReplacementKey = true) :
      Change a (.updateDevice indication) (some (d, p)) (some (d.updateLocation indication timeout, p))
  | generated {key : AesKey} {joinTimeoutSecs : UInt8} (d : TrustCenterDevice) (p : Option AesKey) :
      Change a (.installGenerated a key joinTimeoutSecs) (some (d, p)) (some (d.withTimeout (max joinTimeoutSecs 1), some key))
  | verified {indication : ApsmeVerifyKeyIndication} (h : indication.sourceAddress = a) (d : TrustCenterDevice) (key : AesKey)
      (hhash : constantTimeEq (hash key) indication.hash = true) :
      Change a (.verifyKey indication) (some (d, some key)) (some (d.committed key, none))
  | aged {elapsedSecs : UInt8} {d d' : TrustCenterDevice} {p p' : Option AesKey} (h : Aged d d' p p') :
      Change a (.tick elapsedSecs) (some (d, p)) (some (d', p'))
  | expired {elapsedSecs : UInt8} (e : Option Entry) : Change a (.tick elapsedSecs) e none
  | revoked (e : Option Entry) : Change a (.revoke a) e none

end

/-! ## What the operations do -/

section
variable {policy : TrustCenterPolicy} {hash : AesKey → AesKey} {derive : Bytes.Buf → Except InstallCodeError AesKey}
  {t : TrustCenterTable} {a : IeeeAddress}

/-- Only this address changes, to `e`. -/
def ChangesTo (t t' : TrustCenterTable) (a : IeeeAddress) (e : Option Entry) : Prop :=
  t'.Inv ∧ ∀ b, t'.lookup b = if b = a then e else t.lookup b

/-- The slot of a known device is written. -/
theorem changesTo_of_holds (hinv : t.Inv) {i : Nat} {e : TrustCenterDevice} (hd : t.Holds i d) (hactive : e.active = true)
    (haddress : e.ieeeAddress = d.ieeeAddress) (hw : WritesSlot t t' i e p) : ChangesTo t t' d.ieeeAddress (some (e, p)) := by
  have hvalid := hinv.valid i d hd
  have hours := hinv.ours hd
  rw [← haddress] at hvalid hours ⊢
  exact hw.write hinv (slot_lt hd.1) hactive hours hvalid

theorem provisionLinkKey_cases (hinv : t.Inv) (key : AesKey) (origin : TrustCenterKeyOrigin) :
    (∃ e, t.provisionLinkKey a key origin = (t, .error e) ∧ t.lookup a = none) ∨
      (∃ t', t.provisionLinkKey a key origin = (t', .ok ()) ∧ t.lookup a = none ∧
        ChangesTo t t' a (some (provisioned a key origin, none))) ∨
      ∃ t' d p, t.provisionLinkKey a key origin = (t', .ok ()) ∧ t.lookup a = some (d, p) ∧
        ChangesTo t t' a (some (d.reprovisioned key origin, none)) := by
  unfold provisionLinkKey
  cases hindex : t.deviceIndex a with
  | none =>
    have hnone := lookup_eq_none.mpr hindex
    by_cases hvalid : validateDeviceAddress a = true
    · simp only [hvalid, Bool.not_true, Bool.false_eq_true, if_false]
      cases hfree : t.freeIndex with
      | none => exact Or.inl ⟨_, rfl, hnone⟩
      | some i =>
        obtain ⟨hi, hempty⟩ := freeIndex_eq_some hfree
        refine Or.inr (Or.inl ⟨_, rfl, hnone, ?_⟩)
        exact (writesSlot_clear hi).write hinv hi rfl (ours_of_free hempty hindex) hvalid
    · simp only [hvalid, Bool.not_false, if_true]
      exact Or.inl ⟨_, rfl, hnone⟩
  | some i =>
    obtain ⟨d, hd, rfl⟩ := deviceIndex_eq_some hindex
    simp only [hinv.valid i d hd, Bool.not_true, Bool.false_eq_true, if_false, hd.1]
    refine Or.inr (Or.inr ⟨_, d, t.pendingLinkKey i, rfl, lookup_of_holds hinv hd, ?_⟩)
    exact changesTo_of_holds hinv hd (by exact hd.2) (by rfl) (writesSlot_clear (slot_lt hd.1))

/-- The table behind `ensureDefaultDeviceIndex`, where it succeeds. -/
theorem ensureDefaultDeviceIndex_cases (hinv : t.Inv) :
    (∃ e, t.ensureDefaultDeviceIndex a = (t, .error e) ∧ t.lookup a = none) ∨
      ∃ t' i d, t.ensureDefaultDeviceIndex a = (t', .ok i) ∧ t'.Inv ∧ t'.Holds i d ∧ d.ieeeAddress = a ∧
        (∀ b, b ≠ a → t'.lookup b = t.lookup b) ∧
        ((t.lookup a = none ∧ d = provisioned a DEFAULT_TC_LINK_KEY .defaultGlobal ∧ t'.pendingLinkKey i = none) ∨
          t.lookup a = some (d, t'.pendingLinkKey i)) := by
  unfold ensureDefaultDeviceIndex
  cases hindex : t.deviceIndex a with
  | none =>
    simp only [Option.isNone_none, if_true]
    have hnone := lookup_eq_none.mpr hindex
    rcases provisionLinkKey_cases (a := a) hinv DEFAULT_TC_LINK_KEY .defaultGlobal with
      ⟨e, heq, -⟩ | ⟨t', heq, -, hinv', hlookup⟩ | ⟨t', d, p, -, hsome, -⟩
    · rw [heq]
      exact Or.inl ⟨e, rfl, hnone⟩
    · rw [heq]
      have hself := hlookup a
      rw [if_pos rfl] at hself
      obtain ⟨i, hi, hd, haddress, hp⟩ := lookup_eq_some hself
      simp only [hi]
      exact Or.inr ⟨t', i, _, rfl, hinv', hd, haddress, fun b hb => by rw [hlookup, if_neg hb], Or.inl ⟨hnone, rfl, hp.symm⟩⟩
    · rw [hnone] at hsome
      cases hsome
  | some i =>
    obtain ⟨d, hd, rfl⟩ := deviceIndex_eq_some hindex
    simp only [Option.isNone_some, Bool.false_eq_true, if_false, hindex]
    exact Or.inr ⟨t, i, d, rfl, hinv, hd, rfl, fun b _ => rfl, Or.inr (lookup_of_holds hinv hd)⟩

/-- The device of an Update-Device is moved, after it was provisioned with the default key if the table did
    not know it. -/
structure Moved (policy : TrustCenterPolicy) (t t' : TrustCenterTable) (indication : ApsmeUpdateDeviceIndication)
    (d : TrustCenterDevice) (p : Option AesKey) (timeout : UInt8) : Prop where
  changes : ChangesTo t t' indication.deviceAddress (some (d.updateLocation indication timeout, p))
  device : (t.lookup indication.deviceAddress = none ∧
      d = provisioned indication.deviceAddress DEFAULT_TC_LINK_KEY .defaultGlobal ∧ p = none) ∨
    t.lookup indication.deviceAddress = some (d, p)

theorem moved_of_ensure {indication : ApsmeUpdateDeviceIndication} {i : Nat} (hinv' : t'.Inv) (hd : t'.Holds i d)
    (haddress : d.ieeeAddress = indication.deviceAddress) (hother : ∀ b, b ≠ indication.deviceAddress → t'.lookup b = t.lookup b)
    (hdevice : (t.lookup indication.deviceAddress = none ∧
        d = provisioned indication.deviceAddress DEFAULT_TC_LINK_KEY .defaultGlobal ∧
        t'.pendingLinkKey i = none) ∨ t.lookup indication.deviceAddress = some (d, t'.pendingLinkKey i)) (timeout : UInt8) :
    Moved policy t (t'.setDevice i (d.updateLocation indication timeout)) indication d (t'.pendingLinkKey i) timeout := by
  have hwrite := changesTo_of_holds (e := d.updateLocation indication timeout) hinv' hd rfl rfl (writesSlot_keep (slot_lt hd.1))
  rw [haddress] at hwrite
  refine ⟨⟨hwrite.1, fun b => ?_⟩, hdevice⟩
  rw [hwrite.2]
  split
  · rfl
  · rename_i hb
    exact hother b hb

theorem admitWithNetworkKey_cases (hinv : t.Inv) (policy : TrustCenterPolicy) (indication : ApsmeUpdateDeviceIndication) :
    (∃ e, t.admitWithNetworkKey policy indication = (t, .error e)) ∨
      ∃ t' d p required timeout, t.admitWithNetworkKey policy indication = (t', .ok (.transportNetworkKey indication.sourceAddress
          indication.deviceAddress indication.deviceShortAddress d.linkKey required)) ∧
        Moved policy t t' indication d p timeout ∧
        (timeout = 0 → policy.requireLinkKeyUpdate = true → d.hasVerifiedReplacementKey = true) := by
  unfold admitWithNetworkKey
  rcases ensureDefaultDeviceIndex_cases (a := indication.deviceAddress) hinv with
    ⟨e, heq, -⟩ | ⟨t', i, d, heq, hinv', hd, haddress, hother, hdevice⟩
  · rw [heq]
    exact Or.inl ⟨e, rfl⟩
  · rw [heq]
    simp only [hd.1]
    refine Or.inr ⟨_, d, _, _, _, rfl, moved_of_ensure hinv' hd haddress hother hdevice _, ?_⟩
    intro hzero hrequire
    split at hzero
    · exact absurd hzero (max_one_ne_zero _)
    · rename_i hnot
      rw [hrequire, Bool.true_and, Bool.or_eq_true, not_or, Bool.not_eq_true', Bool.not_eq_false] at hnot
      exact hnot.2

theorem securedRejoin_cases (hinv : t.Inv) (policy : TrustCenterPolicy) (indication : ApsmeUpdateDeviceIndication) :
    ((t.securedRejoin policy indication).1 = t ∧
        ∀ p a s k r, (t.securedRejoin policy indication).2 ≠ .ok (.transportNetworkKey p a s k r)) ∨
      ∃ t' d p timeout, t.securedRejoin policy indication = (t', .ok .none) ∧ Moved policy t t' indication d p timeout ∧
        (timeout = 0 → policy.requireLinkKeyUpdate = true →
          (t.lookup indication.deviceAddress).any (·.1.hasCompletedAdmission) = true ∨ d.hasVerifiedReplacementKey = true) := by
  unfold securedRejoin
  simp only
  split
  · exact Or.inl ⟨rfl, fun p a s k r h => by cases h⟩
  · rcases ensureDefaultDeviceIndex_cases (a := indication.deviceAddress) hinv with
      ⟨e, heq, -⟩ | ⟨t', i, d, heq, hinv', hd, haddress, hother, hdevice⟩
    · rw [heq]
      exact Or.inl ⟨rfl, fun p a s k r h => by cases h⟩
    · rw [heq]
      simp only [hd.1]
      refine Or.inr ⟨_, d, _, _, rfl, moved_of_ensure hinv' hd haddress hother hdevice _, ?_⟩
      intro hzero hrequire
      split at hzero
      · rename_i hrunning
        exact absurd hzero hrunning
      · split at hzero
        · exact absurd hzero (max_one_ne_zero _)
        · rename_i hnot
          rw [hrequire, Bool.and_true, Bool.and_eq_true, not_and_or, Bool.not_eq_true', Bool.not_eq_true', Bool.not_eq_false,
            Bool.not_eq_false, device_eq_lookup, Option.any_map] at hnot
          exact hnot

/-- A move is a change that the policy allows. -/
theorem Moved.change {indication : ApsmeUpdateDeviceIndication} {timeout : UInt8} (h : Moved policy t t' indication d p timeout)
    (ht : timeout = 0 → policy.requireLinkKeyUpdate = true →
      (t.lookup indication.deviceAddress).any (·.1.hasCompletedAdmission) = true ∨ d.hasVerifiedReplacementKey = true)
    (b : IeeeAddress) : Change policy hash derive b (.updateDevice indication) (t.lookup b) (t'.lookup b) := by
  rw [h.changes.2]
  split
  · rename_i hb
    rw [hb]
    rcases h.device with ⟨hnone, rfl, rfl⟩ | hsome
    · rw [hnone] at ht ⊢
      refine Change.appeared rfl timeout fun hrequire hzero => ?_
      rcases ht hzero hrequire with h | h
      · cases h
      · cases h
    · rw [hsome] at ht ⊢
      exact Change.moved rfl timeout d p ht
  · exact Change.same _ _

/-- What one Update-Device does, and whom it sends the network key. -/
theorem handleUpdateDevice_change (hinv : t.Inv) (policy : TrustCenterPolicy) (indication : ApsmeUpdateDeviceIndication) :
    (t.handleUpdateDevice policy indication).1.Inv ∧
      ∀ b, Change policy hash derive b (.updateDevice indication) (t.lookup b)
        ((t.handleUpdateDevice policy indication).1.lookup b) := by
  have hsame : t.Inv ∧ ∀ b, Change policy hash derive b (.updateDevice indication) (t.lookup b) (t.lookup b) :=
    ⟨hinv, fun b => Change.same _ _⟩
  have hadmit : (t.admitWithNetworkKey policy indication).1.Inv ∧
      ∀ b, Change policy hash derive b (.updateDevice indication) (t.lookup b)
        ((t.admitWithNetworkKey policy indication).1.lookup b) := by
    rcases admitWithNetworkKey_cases hinv policy indication with ⟨e, heq⟩ | ⟨t', d, p, required, timeout, heq, hmoved, ht⟩
    · rw [heq]
      exact hsame
    · rw [heq]
      exact ⟨hmoved.changes.1, hmoved.change fun hzero hrequire => Or.inr (ht hzero hrequire)⟩
  unfold handleUpdateDevice
  split
  · exact hsame
  · split
    · exact hsame
    · split
      · exact hsame
      · rcases securedRejoin_cases hinv policy indication with ⟨heq, -⟩ | ⟨t', d, p, timeout, heq, hmoved, ht⟩
        · rw [heq]
          exact hsame
        · rw [heq]
          exact ⟨hmoved.changes.1, hmoved.change ht⟩
      · split
        · exact hsame
        · exact hadmit
      · simp only
        split
        · exact hsame
        · exact hadmit

theorem provisionLinkKey_change (hinv : t.Inv) {origin : TrustCenterKeyOrigin} (hop : provisions derive op = some (a, key, origin)) :
    (t.provisionLinkKey a key origin).1.Inv ∧
      ∀ b, Change policy hash derive b op (t.lookup b) ((t.provisionLinkKey a key origin).1.lookup b) := by
  rcases provisionLinkKey_cases (a := a) hinv key origin with ⟨e, heq, -⟩ | ⟨t', heq, hnone, hinv', hlookup⟩ |
    ⟨t', d, p, heq, hsome, hinv', hlookup⟩
  · rw [heq]
    exact ⟨hinv, fun b => Change.same _ _⟩
  · rw [heq]
    refine ⟨hinv', fun b => ?_⟩
    rw [hlookup]
    split
    · rename_i hb
      rw [hb, hnone]
      exact Change.provisioned hop
    · exact Change.same _ _
  · rw [heq]
    refine ⟨hinv', fun b => ?_⟩
    rw [hlookup]
    split
    · rename_i hb
      rw [hb, hsome]
      exact Change.reprovisioned hop d p
    · exact Change.same _ _

theorem provisionInstallCode_fst (address : IeeeAddress) (installCode : Bytes.Buf) :
    (t.provisionInstallCode derive address installCode).1 =
      match installCodeKey derive installCode with
      | none => t
      | some key => (t.provisionLinkKey address key .installCode).1 := by
  unfold provisionInstallCode installCodeKey
  by_cases hlen : installCode.length ≠ 18
  · rw [if_pos hlen, if_pos hlen]
  · rw [if_neg hlen, if_neg hlen]
    cases derive installCode with
    | error e => rfl
    | ok key =>
      simp only [Except.toOption]
      split
      · rename_i heq
        rw [heq]
      · rename_i heq
        rw [heq]

theorem provisionInstallCode_change (hinv : t.Inv) (address : IeeeAddress) (installCode : Bytes.Buf) :
    (t.provisionInstallCode derive address installCode).1.Inv ∧
      ∀ b, Change policy hash derive b (.provisionInstallCode address installCode) (t.lookup b)
        ((t.provisionInstallCode derive address installCode).1.lookup b) := by
  rw [provisionInstallCode_fst]
  cases hkey : installCodeKey derive installCode with
  | none => exact ⟨hinv, fun b => Change.same _ _⟩
  | some key => exact provisionLinkKey_change hinv (by simp only [provisions, hkey, Option.map_some])

theorem installGenerated_change (hinv : t.Inv) (key : AesKey) (joinTimeoutSecs : UInt8) :
    (t.installGeneratedTrustCenterLinkKey a key joinTimeoutSecs).1.Inv ∧
      ∀ b, Change policy hash derive b (.installGenerated a key joinTimeoutSecs) (t.lookup b)
        ((t.installGeneratedTrustCenterLinkKey a key joinTimeoutSecs).1.lookup b) := by
  unfold installGeneratedTrustCenterLinkKey
  cases hindex : t.deviceIndex a with
  | none => exact ⟨hinv, fun b => Change.same _ _⟩
  | some i =>
    obtain ⟨d, hd, rfl⟩ := deviceIndex_eq_some hindex
    simp only [slot_setPendingLinkKey, hd.1]
    obtain ⟨hinv', hlookup⟩ := changesTo_of_holds (e := d.withTimeout (max joinTimeoutSecs 1)) hinv hd hd.2 rfl
      (show WritesSlot t _ i _ (some key) from writesSlot_set (slot_lt hd.1))
    refine ⟨hinv', fun b => ?_⟩
    rw [hlookup]
    split
    · rename_i hb
      rw [hb, lookup_of_holds hinv hd]
      exact Change.generated d _
    · exact Change.same _ _

/-- The replacement key that a Verify-Key commits. -/
def commits (hash : AesKey → AesKey) (t : TrustCenterTable) (indication : ApsmeVerifyKeyIndication) : Bool :=
  match t.lookup indication.sourceAddress with
  | some (_, some key) => constantTimeEq (hash key) indication.hash
  | _ => false

theorem handleVerifyKey_cases (hinv : t.Inv) (hash : AesKey → AesKey) (indication : ApsmeVerifyKeyIndication) :
    ((t.handleVerifyKey hash indication).1 = t ∧ commits hash t indication = false) ∨
      ∃ d key, t.lookup indication.sourceAddress = some (d, some key) ∧
        constantTimeEq (hash key) indication.hash = true ∧
        ChangesTo t (t.handleVerifyKey hash indication).1 indication.sourceAddress (some (d.committed key, none)) := by
  unfold handleVerifyKey commits
  cases hindex : t.deviceIndex indication.sourceAddress with
  | none =>
    rw [lookup_eq_none.mpr hindex]
    exact Or.inl ⟨rfl, rfl⟩
  | some i =>
    obtain ⟨d, hd, haddress⟩ := deviceIndex_eq_some hindex
    have hlookup := lookup_of_holds hinv hd
    rw [haddress] at hlookup
    rw [hlookup]
    unfold keyToVerify
    cases hpending : t.pendingLinkKey i with
    | none =>
      refine Or.inl ⟨?_, rfl⟩
      cases hverified : d.hasVerifiedReplacementKey with
      | false => simp [hpending, hd.1, hverified]
      | true => simp [hpending, hd.1, hverified]
    | some key =>
      cases hhash : constantTimeEq (hash key) indication.hash with
      | false => exact Or.inl ⟨by simp [hpending, hhash], hhash⟩
      | true =>
        refine Or.inr ⟨d, key, rfl, hhash, ?_⟩
        simp only [hpending, hhash, Bool.and_self, if_true, hd.1]
        have hwrite := changesTo_of_holds (e := d.committed key) hinv hd hd.2 rfl (writesSlot_clear (slot_lt hd.1))
        rwa [haddress] at hwrite

theorem handleVerifyKey_change (hinv : t.Inv) (indication : ApsmeVerifyKeyIndication) :
    (t.handleVerifyKey hash indication).1.Inv ∧
      ∀ b, Change policy hash derive b (.verifyKey indication) (t.lookup b)
        ((t.handleVerifyKey hash indication).1.lookup b) := by
  rcases handleVerifyKey_cases hinv hash indication with ⟨heq, -⟩ | ⟨d, key, hsome, hhash, hinv', hlookup⟩
  · rw [heq]
    exact ⟨hinv, fun b => Change.same _ _⟩
  · refine ⟨hinv', fun b => ?_⟩
    rw [hlookup]
    split
    · rename_i hb
      rw [hb, hsome]
      exact Change.verified rfl d key hhash
    · exact Change.same _ _

theorem revoke_change (hinv : t.Inv) :
    (t.revoke a).1.Inv ∧ ∀ b, Change policy hash derive b (.revoke a) (t.lookup b) ((t.revoke a).1.lookup b) := by
  unfold revoke
  cases hindex : t.deviceIndex a with
  | none => exact ⟨hinv, fun b => Change.same _ _⟩
  | some i =>
    obtain ⟨d, hd, rfl⟩ := deviceIndex_eq_some hindex
    simp only [hd.1]
    obtain ⟨hinv', hlookup⟩ := (writesSlot_clear (d := (d.withTimeout 0).deactivated) (slot_lt hd.1)).deactivate hinv rfl hd
    refine ⟨hinv', fun b => ?_⟩
    rw [hlookup]
    split
    · rename_i hb
      rw [hb]
      exact Change.revoked _
    · exact Change.same _ _

/-! ### Aging -/

/-- What aging does to an entry; it is transitive, so it describes the whole loop. -/
def AgedEntry : Option Entry → Option Entry → Prop
  | _, none => True
  | none, some _ => False
  | some (d, p), some (d', p') => Aged d d' p p'

theorem AgedEntry.refl (e : Option Entry) : AgedEntry e e := by
  cases e with
  | none => trivial
  | some e => exact ⟨rfl, Or.inl, Or.inr rfl⟩

theorem AgedEntry.trans {e e' e'' : Option Entry} (h : AgedEntry e e') (h' : AgedEntry e' e'') : AgedEntry e e'' := by
  rcases e'' with - | ⟨d'', p''⟩
  · trivial
  · rcases e' with - | ⟨d', p'⟩
    · exact absurd h' id
    · rcases e with - | ⟨d, p⟩
      · exact absurd h id
      · change Aged d d' p p' at h
        change Aged d' d'' p' p'' at h'
        have hsame : d'.hasVerifiedReplacementKey = d.hasVerifiedReplacementKey := by
          rw [h.device]
          rfl
        refine ⟨?_, fun hzero => ?_, ?_⟩
        · rw [h'.device, h.device]
          rfl
        · rcases h'.timeout hzero with hzero' | hverified
          · exact h.timeout hzero'
          · exact Or.inr (hsame ▸ hverified)
        · rcases h'.pending with hnone | hkeep
          · exact Or.inl hnone
          · rw [hkeep]
            exact h.pending

theorem tickSlot_aged (hinv : t.Inv) (elapsedSecs : UInt8) (i : Nat) :
    (t.tickSlot elapsedSecs i).1.Inv ∧ ∀ b, AgedEntry (t.lookup b) ((t.tickSlot elapsedSecs i).1.lookup b) := by
  unfold tickSlot
  split
  · exact ⟨hinv, fun b => AgedEntry.refl _⟩
  · rename_i d hslot
    obtain ⟨hsome, hactive⟩ := Option.filter_eq_some_iff.mp hslot
    have hd : t.Holds i d := ⟨hsome, hactive⟩
    simp only
    split
    · exact ⟨hinv, fun b => AgedEntry.refl _⟩
    · generalize hremaining : d.joinTimeoutRemainingSecs - min elapsedSecs d.joinTimeoutRemainingSecs = remaining
      have hage : ∀ {t' : TrustCenterTable} {p : Option AesKey},
          (remaining = 0 → d.hasVerifiedReplacementKey = true) → (p = none ∨ p = t.pendingLinkKey i) →
          WritesSlot t t' i (d.withTimeout remaining) p → t'.Inv ∧ ∀ b, AgedEntry (t.lookup b) (t'.lookup b) := by
        intro t' p hzero hp hw
        obtain ⟨hinv', hlookup⟩ := changesTo_of_holds (e := d.withTimeout remaining) hinv hd hd.2 rfl hw
        refine ⟨hinv', fun b => ?_⟩
        rw [hlookup]
        split
        · rename_i hb
          rw [hb, lookup_of_holds hinv hd]
          exact ⟨rfl, fun h => Or.inr (hzero h), hp⟩
        · exact AgedEntry.refl _
      split
      · rename_i hrunning
        exact hage (fun hzero => absurd hzero hrunning) (Or.inr rfl) (writesSlot_keep (slot_lt hd.1))
      · split
        · rename_i hverified
          exact hage (fun _ => hverified) (Or.inl rfl) (writesSlot_clear (slot_lt hd.1))
        · obtain ⟨hinv', hlookup⟩ :=
            (writesSlot_clear (d := (d.withTimeout remaining).deactivated) (slot_lt hd.1)).deactivate hinv rfl hd
          refine ⟨hinv', fun b => ?_⟩
          rw [hlookup]
          split
          · trivial
          · exact AgedEntry.refl _

theorem tickSlots_aged (elapsedSecs : UInt8) (is : List Nat) (hinv : t.Inv) :
    (tickSlots elapsedSecs is t).1.Inv ∧ ∀ b, AgedEntry (t.lookup b) ((tickSlots elapsedSecs is t).1.lookup b) := by
  induction is generalizing t with
  | nil => exact ⟨hinv, fun b => AgedEntry.refl _⟩
  | cons i is ih =>
    obtain ⟨hinv', hage⟩ := tickSlot_aged hinv elapsedSecs i
    unfold tickSlots
    split
    · rename_i heq
      rw [heq] at hinv' hage
      exact ⟨hinv', hage⟩
    · rename_i heq
      rw [heq] at hinv' hage
      obtain ⟨hinv'', hage'⟩ := ih hinv'
      exact ⟨hinv'', fun b => (hage b).trans (hage' b)⟩

theorem tick_change (hinv : t.Inv) (elapsedSecs : UInt8) :
    (t.tick elapsedSecs).1.Inv ∧
      ∀ b, Change policy hash derive b (.tick elapsedSecs) (t.lookup b) ((t.tick elapsedSecs).1.lookup b) := by
  unfold tick
  split
  · exact ⟨hinv, fun b => Change.same _ _⟩
  · obtain ⟨hinv', hage⟩ := tickSlots_aged elapsedSecs (List.range MAX_TRUST_CENTER_DEVICES) hinv
    refine ⟨hinv', fun b => ?_⟩
    have hb := hage b
    generalize t.lookup b = e at hb ⊢
    generalize (tickSlots elapsedSecs (List.range MAX_TRUST_CENTER_DEVICES) t).1.lookup b = e' at hb ⊢
    rcases e' with - | ⟨d', p'⟩
    · exact Change.expired e
    · rcases e with - | ⟨d, p⟩
      · exact absurd hb id
      · exact Change.aged hb

/-- **What an operation does**: it keeps the invariant, and changes each address only in the ways of `Change`. -/
theorem apply_change (policy : TrustCenterPolicy) (hash : AesKey → AesKey)
    (derive : Bytes.Buf → Except InstallCodeError AesKey) (hinv : t.Inv) (op : Op) :
    (t.apply policy hash derive op).1.Inv ∧
      ∀ b, Change policy hash derive b op (t.lookup b) ((t.apply policy hash derive op).1.lookup b) := by
  cases op with
  | updateDevice indication => exact handleUpdateDevice_change hinv policy indication
  | requestKey indication trustCenterAddress => exact ⟨hinv, fun b => Change.same _ _⟩
  | installGenerated address key joinTimeoutSecs => exact installGenerated_change hinv key joinTimeoutSecs
  | verifyKey indication => exact handleVerifyKey_change hinv indication
  | provisionLinkKey address key origin => exact provisionLinkKey_change hinv rfl
  | provisionInstallCode address installCode => exact provisionInstallCode_change hinv address installCode
  | tick elapsedSecs => exact tick_change hinv elapsedSecs
  | revoke address => exact revoke_change hinv

/-! ## The policy, one step at a time -/

theorem constantTimeEq_iff {left right : AesKey} : constantTimeEq left right = true ↔ left = right := by
  have hfold : ∀ (l : List UInt8) (acc : UInt8), l.foldl (· ||| ·) acc = 0 ↔ acc = 0 ∧ ∀ b ∈ l, b = 0 := by
    intro l
    induction l with
    | nil => simp
    | cons b l ih =>
      intro acc
      rw [List.foldl_cons, ih, UInt8.or_eq_zero_iff]
      simp only [List.mem_cons, forall_eq_or_imp, and_assoc]
  have hzip : ∀ l r : List UInt8, l.length = r.length → ((∀ b ∈ List.zipWith (· ^^^ ·) l r, b = 0) ↔ l = r) := by
    intro l
    induction l with
    | nil =>
      intro r h
      rw [List.length_nil] at h
      rw [List.length_eq_zero_iff.mp h.symm]
      simp
    | cons b l ih =>
      rintro (_ | ⟨c, r⟩) h
      · cases h
      · simp only [List.zipWith_cons_cons, List.mem_cons, forall_eq_or_imp, ih r (Nat.succ.inj h), UInt8.xor_eq_zero_iff,
          List.cons.injEq]
  unfold constantTimeEq
  rw [beq_iff_eq, hfold, and_iff_right rfl, hzip _ _ (by rw [Vector.length_toList, Vector.length_toList]), Vector.toList_inj]

/-- The committed key of a device changes only by provisioning, or by a Verify-Key for the replacement key
    that waits for it; only the latter makes it generated and verified. -/
structure KeyRule (policy : TrustCenterPolicy) (hash : AesKey → AesKey) (derive : Bytes.Buf → Except InstallCodeError AesKey)
    (t : TrustCenterTable) (op : Op) (a : IeeeAddress) : Prop where
  changed : ∀ d p d' p', t.lookup a = some (d, p) → (t.apply policy hash derive op).1.lookup a = some (d', p') →
    d'.linkKey ≠ d.linkKey →
      (∃ origin, provisions derive op = some (a, d'.linkKey, origin)) ∨
        ∃ indication, op = .verifyKey indication ∧ indication.sourceAddress = a ∧ p = some d'.linkKey ∧
          hash d'.linkKey = indication.hash
  appeared : ∀ d' p', t.lookup a = none → (t.apply policy hash derive op).1.lookup a = some (d', p') →
    (∃ origin, provisions derive op = some (a, d'.linkKey, origin)) ∨
      ∃ indication, op = .updateDevice indication ∧ indication.deviceAddress = a ∧ d'.linkKey = DEFAULT_TC_LINK_KEY
  verified : ∀ d' p', (t.apply policy hash derive op).1.lookup a = some (d', p') → d'.hasVerifiedReplacementKey = true →
    (∃ d p, t.lookup a = some (d, p) ∧ d.hasVerifiedReplacementKey = true ∧ d.linkKey = d'.linkKey) ∨
      ∃ indication d, op = .verifyKey indication ∧ indication.sourceAddress = a ∧ t.lookup a = some (d, some d'.linkKey) ∧
        hash d'.linkKey = indication.hash

variable (policy hash derive) in
theorem keyRule (hinv : t.Inv) (op : Op) (a : IeeeAddress) : KeyRule policy hash derive t op a := by
  have hchange := (apply_change policy hash derive hinv op).2 a
  generalize hbefore : t.lookup a = e at hchange
  generalize hafter : (t.apply policy hash derive op).1.lookup a = e' at hchange
  refine ⟨fun d p d' p' hd hd' hne => ?_, fun d' p' hnone hd' => ?_, fun d' p' hd' hverified => ?_⟩
  · rw [hbefore] at hd
    rw [hafter] at hd'
    subst hd hd'
    cases hchange with
    | same => exact absurd rfl hne
    | reprovisioned h => exact Or.inl ⟨_, h⟩
    | moved => exact absurd rfl hne
    | generated => exact absurd rfl hne
    | verified h d key hhash => exact Or.inr ⟨_, rfl, h, rfl, constantTimeEq_iff.mp hhash⟩
    | aged h => exact absurd (congrArg TrustCenterDevice.linkKey h.device) hne
  · rw [hbefore] at hnone
    rw [hafter] at hd'
    subst hnone hd'
    cases hchange with
    | provisioned h => exact Or.inl ⟨_, h⟩
    | appeared h => exact Or.inr ⟨_, rfl, h, rfl⟩
  · rw [hafter] at hd'
    subst hd'
    cases hchange with
    | same => exact Or.inl ⟨_, _, hbefore, hverified, rfl⟩
    | provisioned => simp [hasVerifiedReplacementKey, provisioned] at hverified
    | reprovisioned => simp [hasVerifiedReplacementKey, reprovisioned] at hverified
    | appeared => cases hverified
    | moved h timeout d => exact Or.inl ⟨d, _, hbefore, hverified, rfl⟩
    | generated d p => exact Or.inl ⟨d, p, hbefore, hverified, rfl⟩
    | verified h d key hhash => exact Or.inr ⟨_, d, rfl, h, hbefore, constantTimeEq_iff.mp hhash⟩
    | aged h =>
      rw [h.device] at hverified
      exact Or.inl ⟨_, _, hbefore, hverified, (congrArg TrustCenterDevice.linkKey h.device).symm⟩

def sendsNetworkKey : TrustCenterAction → Bool
  | .transportNetworkKey .. => true
  | _ => false

variable (policy) in
theorem handleRequestKey_sends_nothing (indication : ApsmeRequestKeyIndication) (trustCenterAddress : IeeeAddress) :
    (t.handleRequestKey policy indication trustCenterAddress).toOption.any sendsNetworkKey = false := by
  unfold handleRequestKey
  dsimp only
  repeat' split
  all_goals rfl

variable (hash) in
theorem handleVerifyKey_sends_nothing (indication : ApsmeVerifyKeyIndication) :
    (t.handleVerifyKey hash indication).2.toOption.any sendsNetworkKey = false := by
  unfold handleVerifyKey
  dsimp only
  repeat' split
  all_goals rfl

theorem tickSlot_sends_nothing (elapsedSecs : UInt8) (i : Nat) :
    (t.tickSlot elapsedSecs i).2.any sendsNetworkKey = false := by
  unfold tickSlot
  dsimp only
  repeat' split
  all_goals rfl

theorem tick_sends_nothing (elapsedSecs : UInt8) : sendsNetworkKey (t.tick elapsedSecs).2 = false := by
  have hslots : ∀ is (t : TrustCenterTable), sendsNetworkKey (tickSlots elapsedSecs is t).2 = false := by
    intro is
    induction is with
    | nil => exact fun t => rfl
    | cons i is ih =>
      intro t
      have hslot := tickSlot_sends_nothing (t := t) elapsedSecs i
      unfold tickSlots
      split
      · rename_i heq
        rw [heq] at hslot
        exact hslot
      · exact ih _
  unfold tick
  split
  · rfl
  · exact hslots _ t

variable (policy) in
theorem securedRejoin_sends_nothing (hinv : t.Inv) (indication : ApsmeUpdateDeviceIndication) :
    (t.securedRejoin policy indication).2.toOption.any sendsNetworkKey = false := by
  rcases securedRejoin_cases hinv policy indication with ⟨-, hno⟩ | ⟨t', d, p, timeout, heq, -, -⟩
  · cases hresult : (t.securedRejoin policy indication).2 with
    | error e => rfl
    | ok action =>
      cases action with
      | transportNetworkKey p a s k r => exact absurd hresult (hno p a s k r)
      | _ => rfl
  · rw [heq]
    rfl

/-- **The network key under required install codes** goes only to a device with an install-code key or a
    verified replacement. -/
theorem transportNetworkKey_allowed (hinv : t.Inv) {parent device : IeeeAddress} {short : ShortAddress} {linkKey : AesKey}
    {required : Bool} (hpolicy : policy.installCodes = .required)
    (h : (t.apply policy hash derive op).2 = some (.transportNetworkKey parent device short linkKey required)) :
    ∃ d p, t.lookup device = some (d, p) ∧ d.linkKey = linkKey ∧
      (d.keyOrigin = .installCode ∨ d.hasVerifiedReplacementKey = true) := by
  have hadmit : ∀ {indication : ApsmeUpdateDeviceIndication},
      t.installCodePolicyAllowsAdmission policy indication.deviceAddress = true →
      (t.admitWithNetworkKey policy indication).2.toOption = some (.transportNetworkKey parent device short linkKey required) →
      ∃ d p, t.lookup device = some (d, p) ∧ d.linkKey = linkKey ∧
        (d.keyOrigin = .installCode ∨ d.hasVerifiedReplacementKey = true) := by
    intro indication hallowed hresult
    unfold installCodePolicyAllowsAdmission at hallowed
    rw [hpolicy, device_eq_lookup, Option.any_map] at hallowed
    rcases admitWithNetworkKey_cases hinv policy indication with ⟨e, heq⟩ | ⟨t', d, p, req, timeout, heq, hmoved, -⟩
    · rw [heq] at hresult
      cases hresult
    · rw [heq] at hresult
      injection hresult with hresult
      injection hresult with _ haddress _ hkey _
      subst haddress hkey
      rcases hmoved.device with ⟨hnone, -, -⟩ | hsome
      · rw [hnone] at hallowed
        cases hallowed
      · rw [hsome] at hallowed
        refine ⟨d, p, hsome, rfl, ?_⟩
        simpa using hallowed
  have hsends : (t.apply policy hash derive op).2.any sendsNetworkKey = true := by
    rw [h]
    rfl
  cases op with
  | updateDevice indication =>
    change (t.handleUpdateDevice policy indication).2.toOption = _ at h
    unfold handleUpdateDevice at h
    split at h
    · cases h
    · split at h
      · cases h
      · split at h
        · cases h
        · have hno := securedRejoin_sends_nothing policy hinv indication
          rw [h] at hno
          cases hno
        · split at h
          · cases h
          · rename_i hguard
            rw [Bool.or_eq_true, not_or, Bool.not_eq_true', Bool.not_eq_false] at hguard
            exact hadmit hguard.2 h
        · dsimp only at h
          split at h
          · cases h
          · rename_i hguard
            rw [Bool.or_eq_true, not_or, Bool.not_eq_true', Bool.not_eq_false] at hguard
            exact hadmit hguard.1 h
  | requestKey indication trustCenterAddress =>
    have hno := handleRequestKey_sends_nothing (t := t) policy indication trustCenterAddress
    exact absurd (hno.symm.trans hsends) (by decide)
  | verifyKey indication =>
    have hno := handleVerifyKey_sends_nothing (t := t) hash indication
    exact absurd (hno.symm.trans hsends) (by decide)
  | tick elapsedSecs =>
    have hno := tick_sends_nothing (t := t) elapsedSecs
    exact absurd (hno.symm.trans hsends) (by decide)
  | installGenerated address key joinTimeoutSecs => cases h
  | provisionLinkKey address key origin => cases h
  | provisionInstallCode address installCode => cases h
  | revoke address => cases h

end

/-! ## Runs -/

/-- The table, and the addresses of which a replacement key was verified since they became active. -/
structure Audit where
  table : TrustCenterTable
  verified : IeeeAddress → Bool

namespace Audit

def new : Audit := ⟨TrustCenterTable.new, fun _ => false⟩

section
variable (policy : TrustCenterPolicy) (hash : AesKey → AesKey) (derive : Bytes.Buf → Except InstallCodeError AesKey)

/-- Does the operation verify the replacement key of this address? -/
def verifies (s : Audit) (op : Op) (a : IeeeAddress) : Bool :=
  match op with
  | .verifyKey indication => indication.sourceAddress == a && commits hash s.table indication
  | _ => false

def step (s : Audit) (op : Op) : Audit where
  table := (s.table.apply policy hash derive op).1
  verified a := ((s.table.apply policy hash derive op).1.lookup a).isSome && (s.verified a || s.verifies hash op a)

/-- Every device whose admission is complete had a replacement key verified. -/
def AdmittedWasVerified (s : Audit) : Prop :=
  ∀ a d p, s.table.lookup a = some (d, p) → d.hasCompletedAdmission = true → s.verified a = true

/-- Every device whose admission is complete has a verified replacement key now. -/
def AdmittedIsVerified (s : Audit) : Prop :=
  ∀ a d p, s.table.lookup a = some (d, p) → d.hasCompletedAdmission = true → d.hasVerifiedReplacementKey = true

/-- No device is provisioned while its first exchange runs. -/
def SparesExchange (s : Audit) (op : Op) : Prop :=
  ∀ a key origin d p, provisions derive op = some (a, key, origin) → s.table.lookup a = some (d, p) → d.located = true →
    d.joinTimeoutRemainingSecs ≠ 0 → s.verified a = true

/-- No located device is provisioned. -/
def SparesLocated (s : Audit) (op : Op) : Prop :=
  ∀ a key origin d p, provisions derive op = some (a, key, origin) → s.table.lookup a = some (d, p) → d.located = false

/-- The invariant of the audit: a verified replacement key was verified. -/
structure Sound (s : Audit) : Prop where
  inv : s.table.Inv
  verified : ∀ a d p, s.table.lookup a = some (d, p) → d.hasVerifiedReplacementKey = true → s.verified a = true

end

section
variable {policy : TrustCenterPolicy} {hash : AesKey → AesKey} {derive : Bytes.Buf → Except InstallCodeError AesKey} {s : Audit}

theorem new_sound : new.Sound := by
  refine ⟨new_inv, fun a d p h => ?_⟩
  have hnone := lookup_new a
  rw [show new.table = TrustCenterTable.new from rfl, hnone] at h
  cases h

variable (policy hash) in
theorem provisions_known {t : TrustCenterTable} (hinv : t.Inv) {origin : TrustCenterKeyOrigin}
    (hop : provisions derive op = some (a, key, origin)) (hd : t.lookup a = some (d, p)) :
    (t.apply policy hash derive op).1.lookup a = some (d.reprovisioned key origin, none) := by
  have hknown : (t.provisionLinkKey a key origin).1.lookup a = some (d.reprovisioned key origin, none) := by
    rcases provisionLinkKey_cases (a := a) hinv key origin with ⟨e, -, hnone⟩ | ⟨t', -, hnone, -⟩ |
      ⟨t', d', p', heq, hsome, -, hlookup⟩
    · rw [hd] at hnone
      cases hnone
    · rw [hd] at hnone
      cases hnone
    · rw [hd] at hsome
      obtain ⟨rfl, rfl⟩ := Prod.mk.inj (Option.some.inj hsome)
      rw [heq, hlookup, if_pos rfl]
  cases op with
  | provisionLinkKey address key' origin' =>
    obtain ⟨rfl, hrest⟩ := Prod.mk.inj (Option.some.inj hop)
    obtain ⟨rfl, rfl⟩ := Prod.mk.inj hrest
    exact hknown
  | provisionInstallCode address installCode =>
    obtain ⟨key', hkey, heq⟩ := Option.map_eq_some_iff.mp hop
    obtain ⟨rfl, hrest⟩ := Prod.mk.inj heq
    obtain ⟨rfl, rfl⟩ := Prod.mk.inj hrest
    change (t.provisionInstallCode derive address installCode).1.lookup address = _
    rw [provisionInstallCode_fst, hkey]
    exact hknown
  | updateDevice => cases hop
  | requestKey => cases hop
  | installGenerated => cases hop
  | verifyKey => cases hop
  | tick => cases hop
  | revoke => cases hop

theorem verifies_of_provisions {r : IeeeAddress × AesKey × TrustCenterKeyOrigin} (hop : provisions derive op = some r)
    (a : IeeeAddress) : s.verifies hash op a = false := by
  cases op with
  | verifyKey => cases hop
  | _ => rfl

theorem verified_step {e : Entry} (he : (s.table.apply policy hash derive op).1.lookup a = some e)
    (h : s.verified a = true ∨ s.verifies hash op a = true) : (s.step policy hash derive op).verified a = true := by
  unfold step
  simp only [he, Option.isSome_some, Bool.true_and, Bool.or_eq_true]
  exact h

theorem verifies_of_hash {indication : ApsmeVerifyKeyIndication} (haddress : indication.sourceAddress = a)
    (hd : s.table.lookup a = some (d, some key)) (hhash : constantTimeEq (hash key) indication.hash = true) :
    s.verifies hash (.verifyKey indication) a = true := by
  simp only [verifies, commits, haddress, hd, hhash, beq_self_eq_true, Bool.and_self]

theorem Sound.step (h : s.Sound) (op : Op) : (s.step policy hash derive op).Sound := by
  refine ⟨(apply_change policy hash derive h.inv op).1, fun a d' p' hd' hverified => verified_step hd' ?_⟩
  rcases (keyRule policy _ derive h.inv op a).verified d' p' hd' hverified with
    ⟨d, p, hd, hbefore, -⟩ | ⟨indication, d, rfl, rfl, hd, hhash⟩
  · exact Or.inl (h.verified a d p hd hbefore)
  · exact Or.inr (verifies_of_hash rfl hd (constantTimeEq_iff.mpr hhash))

theorem hasCompletedAdmission_iff : d.hasCompletedAdmission = true ↔ d.joinTimeoutRemainingSecs = 0 ∧ d.located = true := by
  unfold hasCompletedAdmission
  rw [Bool.and_eq_true, beq_iff_eq]

/-- How a device comes to be admitted: it was, its key is verified, or it was provisioned where it is. -/
theorem admitted_cases (h : s.Sound) (hrequire : policy.requireLinkKeyUpdate = true) {d' : TrustCenterDevice} {p' : Option AesKey}
    (hd' : (s.table.apply policy hash derive op).1.lookup a = some (d', p')) (hadmitted : d'.hasCompletedAdmission = true) :
    (∃ d p, s.table.lookup a = some (d, p) ∧ d.hasCompletedAdmission = true ∧
        d'.hasVerifiedReplacementKey = d.hasVerifiedReplacementKey) ∨
      (d'.hasVerifiedReplacementKey = true ∧ (s.verified a = true ∨ s.verifies hash op a = true)) ∨
      ∃ key origin d p, provisions derive op = some (a, key, origin) ∧ s.table.lookup a = some (d, p) ∧ d.located = true ∧
        d'.hasVerifiedReplacementKey = false := by
  have hchange := (apply_change policy hash derive h.inv op).2 a
  rw [hd'] at hchange
  obtain ⟨hzero, hlocated⟩ := hasCompletedAdmission_iff.mp hadmitted
  generalize hbefore : s.table.lookup a = e at hchange
  cases hchange with
  | same => exact Or.inl ⟨d', p', rfl, hadmitted, rfl⟩
  | provisioned =>
    simp [located, provisioned] at hlocated
  | reprovisioned hop d =>
    refine Or.inr (Or.inr ⟨_, _, d, _, hop, rfl, hlocated, ?_⟩)
    simp [hasVerifiedReplacementKey, reprovisioned]
  | appeared _ timeout ht => exact absurd hzero (ht hrequire)
  | moved _ timeout d _ ht =>
    rcases ht hzero hrequire with hbefore' | hverified
    · exact Or.inl ⟨d, _, rfl, hbefore', rfl⟩
    · exact Or.inr (Or.inl ⟨hverified, Or.inl (h.verified a d _ hbefore hverified)⟩)
  | generated d => exact absurd hzero (max_one_ne_zero _)
  | verified haddress d key hhash =>
    refine Or.inr (Or.inl ⟨?_, Or.inr (verifies_of_hash haddress hbefore hhash)⟩)
    simp [hasVerifiedReplacementKey, committed]
  | @aged _ d _ _ _ hage =>
    have hkeep : d'.hasVerifiedReplacementKey = d.hasVerifiedReplacementKey := by
      rw [hage.device]
      rfl
    rcases hage.timeout hzero with hzero' | hverified
    · refine Or.inl ⟨_, _, rfl, hasCompletedAdmission_iff.mpr ⟨hzero', ?_⟩, hkeep⟩
      rw [hage.device] at hlocated
      exact hlocated
    · exact Or.inr (Or.inl ⟨hkeep.trans hverified, Or.inl (h.verified a _ _ hbefore hverified)⟩)

/-- Provisioning where the device is completes its admission, with a key that is not verified. -/
theorem reprovisioned_admitted (key : AesKey) (origin : TrustCenterKeyOrigin) (hlocated : d.located = true) :
    (d.reprovisioned key origin).hasCompletedAdmission = true ∧
      (d.reprovisioned key origin).hasVerifiedReplacementKey = false :=
  ⟨hasCompletedAdmission_iff.mpr ⟨rfl, hlocated⟩,
    by simp [hasVerifiedReplacementKey, reprovisioned]⟩

theorem admittedWasVerified_step (hrequire : policy.requireLinkKeyUpdate = true) (op : Op)
    (h : s.Sound ∧ s.AdmittedWasVerified) :
    ((s.step policy hash derive op).Sound ∧ (s.step policy hash derive op).AdmittedWasVerified) ↔
      s.SparesExchange derive op := by
  obtain ⟨hsound, hadmitted⟩ := h
  constructor
  · rintro ⟨-, hafter⟩ a key origin d p hop hd hlocated -
    have hd' := provisions_known policy hash hsound.inv hop hd
    have hverified := hafter a _ _ hd' (reprovisioned_admitted key origin hlocated).1
    unfold step at hverified
    simp only [Bool.and_eq_true, Bool.or_eq_true, verifies_of_provisions hop, Bool.false_eq_true, or_false] at hverified
    exact hverified.2
  · intro hspares
    refine ⟨hsound.step op, fun a d' p' hd' hcomplete => verified_step hd' ?_⟩
    rcases admitted_cases hsound hrequire hd' hcomplete with ⟨d, p, hd, hbefore, -⟩ | ⟨-, hverified⟩ |
      ⟨key, origin, d, p, hop, hd, hlocated, -⟩
    · exact Or.inl (hadmitted a d p hd hbefore)
    · exact hverified
    · by_cases hzero : d.joinTimeoutRemainingSecs = 0
      · exact Or.inl (hadmitted a d p hd (hasCompletedAdmission_iff.mpr ⟨hzero, hlocated⟩))
      · exact Or.inl (hspares a key origin d p hop hd hlocated hzero)

theorem admittedIsVerified_step (hrequire : policy.requireLinkKeyUpdate = true) (op : Op)
    (h : s.Sound ∧ s.AdmittedIsVerified) :
    ((s.step policy hash derive op).Sound ∧ (s.step policy hash derive op).AdmittedIsVerified) ↔
      s.SparesLocated derive op := by
  obtain ⟨hsound, hadmitted⟩ := h
  constructor
  · rintro ⟨-, hafter⟩ a key origin d p hop hd
    cases hlocated : d.located with
    | false => rfl
    | true =>
      have hd' := provisions_known policy hash hsound.inv hop hd
      obtain ⟨hcomplete, hnot⟩ := reprovisioned_admitted key origin hlocated
      have hverified := hafter a _ _ hd' hcomplete
      rw [hnot] at hverified
      cases hverified
  · intro hspares
    refine ⟨hsound.step op, fun a d' p' hd' hcomplete => ?_⟩
    rcases admitted_cases hsound hrequire hd' hcomplete with ⟨d, p, hd, hbefore, hkeep⟩ | ⟨hverified, -⟩ |
      ⟨key, origin, d, p, hop, hd, hlocated, -⟩
    · rw [hkeep]
      exact hadmitted a d p hd hbefore
    · exact hverified
    · have hfalse := hspares a key origin d p hop hd
      rw [hlocated] at hfalse
      cases hfalse

variable (policy hash derive) in
theorem sound_run (ops : List Op) : (Run.run (step policy hash derive) new ops).Sound :=
  Run.run_invariant (I := Sound) (fun _ op h => h.step op) new_sound ops

end

end Audit

open Audit in
/-- **The admission policy**: the rules that every run keeps, and, where the link-key update is required, the
    runs in which every admitted device had its replacement key verified, and those in which it has. -/
theorem admission_policy (policy : TrustCenterPolicy) (hash : AesKey → AesKey)
    (derive : Bytes.Buf → Except InstallCodeError AesKey) (ops : List Op) :
    let t := (Run.run (step policy hash derive) Audit.new ops).table
    t.Inv ∧ (∀ op a, KeyRule policy hash derive t op a) ∧
      (policy.installCodes = .required → ∀ op parent device short linkKey required,
        (t.apply policy hash derive op).2 = some (.transportNetworkKey parent device short linkKey required) →
          ∃ d p, t.lookup device = some (d, p) ∧ d.linkKey = linkKey ∧
            (d.keyOrigin = .installCode ∨ d.hasVerifiedReplacementKey = true)) ∧
      (policy.requireLinkKeyUpdate = true →
        ((∀ ops', ops' <+: ops → (Run.run (step policy hash derive) Audit.new ops').AdmittedWasVerified) ↔
            Run.Along (step policy hash derive) (SparesExchange derive) Audit.new ops) ∧
          ((∀ ops', ops' <+: ops → (Run.run (step policy hash derive) Audit.new ops').AdmittedIsVerified) ↔
            Run.Along (step policy hash derive) (SparesLocated derive) Audit.new ops)) := by
  have hsound := sound_run policy hash derive ops
  refine ⟨hsound.inv, fun op a => keyRule policy hash derive hsound.inv op a, fun hpolicy op parent device short linkKey required h =>
    transportNetworkKey_allowed hsound.inv hpolicy h, fun hrequire => ⟨?_, ?_⟩⟩
  · have hnew : Audit.new.AdmittedWasVerified := fun a d p h => by
      rw [show Audit.new.table.lookup a = none from lookup_new a] at h
      cases h
    rw [← Run.prefix_iff_along (I := fun s : Audit => s.Sound ∧ s.AdmittedWasVerified)
      (fun s op h => admittedWasVerified_step hrequire op h) ⟨new_sound, hnew⟩ ops]
    exact forall_congr' fun ops' => imp_congr_right fun _ => (and_iff_right (sound_run _ _ _ ops')).symm
  · have hnew : Audit.new.AdmittedIsVerified := fun a d p h => by
      rw [show Audit.new.table.lookup a = none from lookup_new a] at h
      cases h
    rw [← Run.prefix_iff_along (I := fun s : Audit => s.Sound ∧ s.AdmittedIsVerified)
      (fun s op h => admittedIsVerified_step hrequire op h) ⟨new_sound, hnew⟩ ops]
    exact forall_congr' fun ops' => imp_congr_right fun _ => (and_iff_right (sound_run _ _ _ ops')).symm

def strictPolicy : TrustCenterPolicy where
  allowJoins := true
  useWhitelist := false
  installCodes := .supported
  requireLinkKeyUpdate := true
  allowRejoins := false
  linkKeyRequests := .provisionalOnly
  applicationKeyRequests := .anyPair
  joinTimeoutSecs := 10

/-- A device joins, and while its key exchange runs its link key is provisioned. -/
def provisionedWhileJoining : List Op :=
  [.updateDevice ⟨Vector.replicate 8 1, Vector.replicate 8 2, 0x1234, .standardDeviceUnsecuredJoin⟩,
    .provisionLinkKey (Vector.replicate 8 2) (Vector.replicate 16 3) .applicationProvisioned]

/-- It is admitted without a verified key: the timeout that would have removed it is gone. -/
theorem provisioned_while_joining_is_admitted :
    ¬ ∀ hash derive ops, (Run.run (Audit.step strictPolicy hash derive) Audit.new ops).AdmittedWasVerified := by
  intro h
  have hverified := h id (fun _ => .error .invalidCrc) provisionedWhileJoining (Vector.replicate 8 2)
    ⟨Vector.replicate 8 2, Vector.replicate 8 1, 0x1234, Vector.replicate 16 3, .applicationProvisioned, .provisional, 0, true⟩
    none (by decide +kernel) (by decide +kernel)
  revert hverified
  decide +kernel

end TrustCenterTable

end Zigbee.Runtime
