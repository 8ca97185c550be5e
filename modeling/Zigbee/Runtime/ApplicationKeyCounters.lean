import Zigbee.Runtime.ApsTables
import Zigbee.Runtime.Lifecycle

/-!
# Outgoing counters of the application link keys

Model of `capture_with_security_into` (`aps_table_store.rs`) and of `save_aps_tables` and
`restore_aps_tables` of `zigbee-runtime/src/lib.rs`, in runs with transmissions, newly transported keys,
failing stores and reboots.

A save reserves a range for each key that is short of counters, stores the ends of the ranges, and only
then raises the live limits.  A restore reserves once more before it installs a key.

* `Node.step` — one event of a device with its flash.
* `Node.Inv` — every counter that was sent is below the live counter of its key and below its stored limit.
* `application_counters_never_repeat` — what holds of every run.
-/

namespace Zigbee.Runtime

open Records Aps PersistentApsTables ApsSecurity

/-! ## Capture -/

variable {k : PersistentApplicationLinkKey} {rest l l' : List PersistentApplicationLinkKey} {e : ApsLinkKeyEntry}

namespace PersistentApsTables

variable {f : Features}

/-- The limit that a capture asks for. -/
def captureLimit (e : ApsLinkKeyEntry) : Option UInt32 :=
  let low := saturatingSub32 e.outgoingFrameCounterLimit e.outgoingFrameCounter ≤ APPLICATION_KEY_LOW_WATER
  if e.outgoingFrameCounterLimit ≤ e.outgoingFrameCounter ∨ low then
    checkedAdd32 (max e.outgoingFrameCounter e.outgoingFrameCounterLimit) APPLICATION_KEY_RESERVATION
  else some e.outgoingFrameCounterLimit

/-- The loop over the key table. -/
def captureKeys (keys : Bounded PersistentApplicationLinkKey (MAX_KEY_TABLE_ENTRIES f.trustCenter)) :
    List ApsLinkKeyEntry →
      Except ApsTableStoreError (Bounded PersistentApplicationLinkKey (MAX_KEY_TABLE_ENTRIES f.trustCenter))
  | [] => .ok keys
  | e :: rest =>
    match captureLimit e with
    | none => .error .counterExhausted
    | some limit =>
      match keys.push ⟨e.partnerAddress, e.key, limit, e.incomingFrameCounter, e.incomingFrameCounterValid⟩ with
      | none => .error .full
      | some keys => captureKeys keys rest

def captureWithSecurity (extendedPanId : IeeeAddress) (bindings : BindingTable) (groups : GroupTable f.router)
    (security : ApsSecurity) : Except ApsTableStoreError (PersistentApsTables f) :=
  match (⟨extendedPanId, bindings, groups, .empty⟩ : PersistentApsTables f).validate with
  | .error e => .error e
  | .ok () =>
    match captureKeys (f := f) .empty (security.keyTable.filter (·.keyType == .applicationLinkKey)) with
    | .error e => .error e
    | .ok applicationKeys => checked ⟨extendedPanId, bindings, groups, applicationKeys⟩

/-- `matches_network` -/
def matchesNetwork (t : PersistentApsTables f) (extendedPanId : IeeeAddress) : Bool := t.extendedPanId == extendedPanId

def reserveKey (k : PersistentApplicationLinkKey) : Option PersistentApplicationLinkKey :=
  (checkedAdd32 k.outgoingFrameCounterLimit APPLICATION_KEY_RESERVATION).map fun limit =>
    { k with outgoingFrameCounterLimit := limit }

/-- Every limit raised by one reservation. -/
def reserveKeys : List PersistentApplicationLinkKey → Option (List PersistentApplicationLinkKey)
  | [] => some []
  | k :: rest =>
    match reserveKey k with
    | none => none
    | some k =>
      match reserveKeys rest with
      | none => none
      | some rest => some (k :: rest)

theorem reserveKeys_cons (h : reserveKeys (k :: rest) = some l) :
    ∃ k' rest', reserveKey k = some k' ∧ reserveKeys rest = some rest' ∧ l = k' :: rest' := by
  simp only [reserveKeys] at h
  split at h
  · cases h
  · rename_i k' hk
    split at h
    · cases h
    · rename_i rest' hrest
      cases h
      exact ⟨k', rest', hk, hrest, rfl⟩

/-- The keys of the result are those of the list, each raised. -/
theorem reserveKeys_spec (h : reserveKeys l = some l') : List.Forall₂ (fun k k' => reserveKey k = some k') l l' := by
  induction l generalizing l' with
  | nil =>
    cases h
    exact List.Forall₂.nil
  | cons k l ih =>
    obtain ⟨k', rest', hk, hrest, rfl⟩ := reserveKeys_cons h
    exact List.Forall₂.cons hk (ih hrest)

theorem reserveKey_spec {k' : PersistentApplicationLinkKey} (h : reserveKey k = some k') :
    k'.partnerAddress = k.partnerAddress ∧ k'.key = k.key ∧
      k'.outgoingFrameCounterLimit.toNat = k.outgoingFrameCounterLimit.toNat + 0x400 := by
  obtain ⟨limit, hlimit, rfl⟩ := Option.map_eq_some_iff.mp h
  exact ⟨rfl, rfl, toNat_of_checkedAdd32 hlimit⟩

def reserve (t : PersistentApsTables f) : Option (PersistentApsTables f) :=
  match h : reserveKeys t.applicationKeys.items with
  | none => none
  | some keys => some { t with applicationKeys := ⟨keys, (reserveKeys_spec h).length_eq ▸ t.applicationKeys.bounded⟩ }

/-- What a capture stores for an entry: its own limit, or one reservation above its counter and limit. -/
def Reserved (e : ApsLinkKeyEntry) (k : PersistentApplicationLinkKey) : Prop :=
  k.partnerAddress = e.partnerAddress ∧ k.key = e.key ∧
    (k.outgoingFrameCounterLimit = e.outgoingFrameCounterLimit ∧
        e.outgoingFrameCounter.toNat < e.outgoingFrameCounterLimit.toNat ∨
      ∃ current : Nat, k.outgoingFrameCounterLimit.toNat = current + 0x400 ∧ e.outgoingFrameCounter.toNat ≤ current ∧
        e.outgoingFrameCounterLimit.toNat ≤ current)

theorem Reserved.counter_le (h : Reserved e k) : e.outgoingFrameCounter.toNat ≤ k.outgoingFrameCounterLimit.toNat := by
  obtain ⟨-, -, ⟨heq, hlt⟩ | ⟨current, hk, hc, -⟩⟩ := h
  · rw [heq]
    omega
  · omega

theorem Reserved.limit_le (h : Reserved e k) : e.outgoingFrameCounterLimit.toNat ≤ k.outgoingFrameCounterLimit.toNat := by
  obtain ⟨-, -, ⟨heq, -⟩ | ⟨current, hk, -, hl⟩⟩ := h
  · rw [heq]
  · omega

theorem captureLimit_reserved {limit : UInt32} (h : captureLimit e = some limit) (counter : UInt32) (valid : Bool) :
    Reserved e ⟨e.partnerAddress, e.key, limit, counter, valid⟩ := by
  refine ⟨rfl, rfl, ?_⟩
  simp only [captureLimit] at h
  split at h
  · right
    refine ⟨(max e.outgoingFrameCounter e.outgoingFrameCounterLimit).toNat, toNat_of_checkedAdd32 h, ?_, ?_⟩
    · rw [toNat_max]
      exact Nat.le_max_left _ _
    · exact le_toNat_max_right _ _
  · rename_i hroom
    cases h
    rw [not_or] at hroom
    exact Or.inl ⟨rfl, Nat.not_le.mp hroom.1⟩

theorem captureKeys_spec {l : List ApsLinkKeyEntry}
    {keys keys' : Bounded PersistentApplicationLinkKey (MAX_KEY_TABLE_ENTRIES f.trustCenter)}
    (h : captureKeys keys l = .ok keys') : ∃ l', keys'.items = keys.items ++ l' ∧ List.Forall₂ Reserved l l' := by
  induction l generalizing keys with
  | nil =>
    cases h
    exact ⟨[], by simp, List.Forall₂.nil⟩
  | cons e l ih =>
    simp only [captureKeys] at h
    split at h
    · cases h
    · rename_i limit hlimit
      split at h
      · cases h
      · rename_i pushed hpush
        have hitems : pushed.items = keys.items ++
            [⟨e.partnerAddress, e.key, limit, e.incomingFrameCounter, e.incomingFrameCounterValid⟩] := by
          unfold Bounded.push at hpush
          split at hpush
          · cases hpush
            rfl
          · cases hpush
        obtain ⟨l', hl', hall⟩ := ih h
        exact ⟨_ :: l', by rw [hl', hitems, List.append_assoc]; rfl,
          List.Forall₂.cons (captureLimit_reserved hlimit _ _) hall⟩

theorem exists_of_forall₂ {α β : Type} {R : α → β → Prop} {l : List α} {l' : List β} (h : List.Forall₂ R l l') :
    (∀ a ∈ l, ∃ b ∈ l', R a b) ∧ ∀ b ∈ l', ∃ a ∈ l, R a b := by
  induction h with
  | nil => simp
  | cons hab _ ih =>
    simp only [List.mem_cons, forall_eq_or_imp, exists_eq_or_imp]
    exact ⟨⟨Or.inl hab, fun a ha => Or.inr (ih.1 a ha)⟩, Or.inl hab, fun b hb => Or.inr (ih.2 b hb)⟩

/-- The keys of a snapshot are those of the live table. -/
structure Captures (security : ApsSecurity) (keys : List PersistentApplicationLinkKey) : Prop where
  distinct : (keys.map (·.partnerAddress)).Nodup
  complete : ∀ partner e, security.findKey partner .applicationLinkKey = some e → ∃ k ∈ keys, Reserved e k
  sound : ∀ k ∈ keys, ∃ e, security.findKey k.partnerAddress .applicationLinkKey = some e ∧ Reserved e k

theorem captureWithSecurity_spec {extendedPanId : IeeeAddress} {bindings : BindingTable} {groups : GroupTable f.router}
    {security : ApsSecurity} {snapshot : PersistentApsTables f}
    (h : captureWithSecurity extendedPanId bindings groups security = .ok snapshot) :
    Captures security snapshot.applicationKeys.items := by
  unfold captureWithSecurity at h
  split at h
  · cases h
  · split at h
    · cases h
    · rename_i keys hkeys
      unfold checked at h
      split at h
      · cases h
      · rename_i hvalid
        cases h
        have hdistinct := keys_of_validate hvalid
        obtain ⟨l', hitems, hall⟩ := captureKeys_spec hkeys
        rw [Bounded.empty_items, List.nil_append] at hitems
        subst hitems
        obtain ⟨hleft, hright⟩ := exists_of_forall₂ hall
        have hcomplete : ∀ partner e, security.findKey partner .applicationLinkKey = some e → ∃ k ∈ keys.items, Reserved e k := by
          intro partner e he
          obtain ⟨hmem, -, htype⟩ := findKey_eq_some he
          exact hleft e (List.mem_filter.mpr ⟨hmem, by simp [htype]⟩)
        refine ⟨hdistinct, hcomplete, fun k hk => ?_⟩
        obtain ⟨e, he, hreserved⟩ := hright k hk
        obtain ⟨hmem, htype⟩ := List.mem_filter.mp he
        cases hfind : security.findKey k.partnerAddress .applicationLinkKey with
        | none =>
          have hnot := List.find?_eq_none.mp hfind e hmem
          simp only [beq_iff_eq] at htype
          simp [ApsLinkKeyEntry.isFor, htype, hreserved.1] at hnot
        | some e' =>
          obtain ⟨-, hpartner, -⟩ := findKey_eq_some hfind
          obtain ⟨k', hk', hreserved'⟩ := hcomplete _ e' hfind
          have hsame : k' = k := List.inj_on_of_nodup_map hdistinct hk' hk (hreserved'.1.trans hpartner)
          exact ⟨e', rfl, hsame ▸ hreserved'⟩

end PersistentApsTables

/-! ## The device -/

/-- How the store takes a snapshot. -/
inductive TableStoreOutcome where
  | done
  /-- An error, and the old snapshot stays. -/
  | refused (e : ApsTableStoreError)
  /-- An error, although the snapshot is in place. -/
  | lost (e : ApsTableStoreError)

/-- A frame secured with the application link key of a partner. -/
structure SentFrame where
  partner : IeeeAddress
  key : AesKey
  counter : UInt32
  deriving DecidableEq

structure ApsNode (f : Features) where
  extendedPanId : IeeeAddress
  bindings : BindingTable
  groups : GroupTable f.router
  security : ApsSecurity
  /-- What `load_into` would return. -/
  stored : Option (PersistentApsTables f)
  sent : List SentFrame

namespace ApsNode

variable {f : Features}

/-- The live tables after a power-up. -/
def powerUp (stored : Option (PersistentApsTables f)) : ApsNode f where
  extendedPanId := Vector.replicate 8 0
  bindings := .new
  groups := .new
  security := ⟨MAX_KEY_TABLE_ENTRIES f.trustCenter, [], DEFAULT_TC_LINK_KEY, none, [], []⟩
  stored := stored
  sent := []

def storeTables (stored : Option (PersistentApsTables f)) (snapshot : PersistentApsTables f) :
    TableStoreOutcome → Option (PersistentApsTables f) × Except ApsTableStoreError Unit
  | .done => (some snapshot, .ok ())
  | .refused e => (stored, .error e)
  | .lost e => (some snapshot, .error e)

/-- The entry with a reserved range. -/
def raised (counter limit : UInt32) (e : ApsLinkKeyEntry) : ApsLinkKeyEntry :=
  { e with outgoingFrameCounter := counter, outgoingFrameCounterLimit := limit }

/-- What `save_aps_tables` does once the snapshot is stored. -/
def raiseLimits (security : ApsSecurity) : List PersistentApplicationLinkKey → ApsSecurity × Except ApsTableStoreError Unit
  | [] => (security, .ok ())
  | k :: rest =>
    match security.findKey k.partnerAddress .applicationLinkKey with
    | none => (security, .error .corrupt)
    | some e =>
      if e.key ≠ k.key then (security, .error .corrupt)
      else if e.outgoingFrameCounterLimit ≠ k.outgoingFrameCounterLimit then
        match checkedSub32 k.outgoingFrameCounterLimit APPLICATION_KEY_RESERVATION with
        | none => (security, .error .corrupt)
        | some counter =>
          raiseLimits (security.updateKey k.partnerAddress .applicationLinkKey
            (raised counter k.outgoingFrameCounterLimit)) rest
      else raiseLimits security rest

def saveApsTables (n : ApsNode f) (o : TableStoreOutcome) : ApsNode f × Except ApsTableStoreError Unit :=
  match captureWithSecurity n.extendedPanId n.bindings n.groups n.security with
  | .error e => (n, .error e)
  | .ok snapshot =>
    match storeTables n.stored snapshot o with
    | (stored, .error e) => ({ n with stored }, .error e)
    | (stored, .ok ()) =>
      let (security, result) := raiseLimits n.security snapshot.applicationKeys.items
      ({ n with stored, security }, result)

/-- The keys of a snapshot, installed one by one. -/
def installKeys (security : ApsSecurity) : List PersistentApplicationLinkKey → ApsSecurity × Except ApsTableStoreError Unit
  | [] => (security, .ok ())
  | k :: rest =>
    match checkedSub32 k.outgoingFrameCounterLimit APPLICATION_KEY_RESERVATION with
    | none => (security, .error .corrupt)
    | some counter =>
      match security.addKey ⟨k.partnerAddress, k.key, .applicationLinkKey, counter, k.outgoingFrameCounterLimit,
          k.incomingFrameCounter, k.incomingFrameCounterValid⟩ with
      | none => (security, .error .full)
      | some security => installKeys security rest

/-- `o` is not looked at when nothing is stored. -/
def restoreApsTables (n : ApsNode f) (o : TableStoreOutcome) : ApsNode f × Except ApsTableStoreError Unit :=
  match n.stored with
  | none => ({ n with bindings := .new, groups := .new, security := n.security.clearApplicationLinkKeys }, .ok ())
  | some snapshot =>
    match snapshot.validate with
    | .error e => (n, .error e)
    | .ok () =>
      if !snapshot.isEmpty && !snapshot.matchesNetwork n.extendedPanId then (n, .error .foreignNetwork)
      else
        match snapshot.reserve with
        | none => (n, .error .counterExhausted)
        | some snapshot =>
          match if snapshot.applicationKeys.items = [] then (n.stored, .ok ()) else storeTables n.stored snapshot o with
          | (stored, .error e) => ({ n with stored }, .error e)
          | (stored, .ok ()) =>
            let (security, result) := installKeys n.security.clearApplicationLinkKeys snapshot.applicationKeys.items
            ({ n with stored, bindings := snapshot.bindings, groups := snapshot.groups, security }, result)

/-- A Transport-Key with an application link key; a key that is installed is kept. -/
def transportKey (n : ApsNode f) (partner : IeeeAddress) (key : AesKey) : ApsNode f :=
  if (n.security.findKey partner .applicationLinkKey).any (·.key == key) then n
  else
    match n.security.addKey ⟨partner, key, .applicationLinkKey, 0, 0, 0, false⟩ with
    | none => n
    | some security => { n with security }

/-- A frame to the partner, if the range allows it. -/
def send (n : ApsNode f) (partner : IeeeAddress) : ApsNode f :=
  match n.security.findKey partner .applicationLinkKey, n.security.nextFrameCounter partner .applicationLinkKey with
  | some e, (security, some counter) => { n with security, sent := n.sent ++ [⟨partner, e.key, counter⟩] }
  | _, _ => n

inductive Event (f : Features) where
  | save (o : TableStoreOutcome)
  /-- `loads` is `false` when the flash cannot be read. -/
  | restore (loads : Bool) (o : TableStoreOutcome)
  | reboot
  | send (partner : IeeeAddress)
  | transportKey (partner : IeeeAddress) (key : AesKey)
  /-- The rest of the stack changes what else is captured. -/
  | change (extendedPanId : IeeeAddress) (bindings : BindingTable) (groups : GroupTable f.router)

def step (n : ApsNode f) : Event f → ApsNode f
  | .save o => (n.saveApsTables o).1
  | .restore loads o => if loads then (n.restoreApsTables o).1 else n
  | .reboot => { powerUp n.stored with sent := n.sent }
  | .send partner => n.send partner
  | .transportKey partner key => n.transportKey partner key
  | .change extendedPanId bindings groups => { n with extendedPanId, bindings, groups }

/-- A key that is installed has not been used with its partner before. -/
def NewKeys (n : ApsNode f) : Event f → Prop
  | .transportKey partner key => ∀ u ∈ n.sent, ¬ (u.partner = partner ∧ u.key = key)
  | _ => True

/-! ## The invariant -/

/-- The counters that were used with a key are below `n`. -/
def UsedBelow (sent : List SentFrame) (partner : IeeeAddress) (key : AesKey) (n : Nat) : Prop :=
  ∀ u ∈ sent, u.partner = partner → u.key = key → u.counter.toNat < n

/-- No range, or a range whose end was stored. -/
def LimitStored (keys : List PersistentApplicationLinkKey) (partner : IeeeAddress) (key : AesKey) (limit : UInt32) : Prop :=
  limit = 0 ∨ (∃ k ∈ keys, k.partnerAddress = partner ∧ k.key = key) ∧
    ∀ k ∈ keys, k.partnerAddress = partner → k.key = key → limit.toNat ≤ k.outgoingFrameCounterLimit.toNat

def storedKeys (n : ApsNode f) : List PersistentApplicationLinkKey :=
  match n.stored with
  | none => []
  | some t => t.applicationKeys.items

/-- The live keys, against the frames sent and the keys stored. -/
def LiveOk (sent : List SentFrame) (keys : List PersistentApplicationLinkKey) (security : ApsSecurity) : Prop :=
  ∀ partner e, security.findKey partner .applicationLinkKey = some e →
    UsedBelow sent partner e.key e.outgoingFrameCounter.toNat ∧ LimitStored keys partner e.key e.outgoingFrameCounterLimit

structure Inv (n : ApsNode f) : Prop where
  live : LiveOk n.sent n.storedKeys n.security
  stored : ∀ k ∈ n.storedKeys, UsedBelow n.sent k.partnerAddress k.key k.outgoingFrameCounterLimit.toNat
  distinct : n.sent.Nodup

section Invariant

variable {sent : List SentFrame} {keys : List PersistentApplicationLinkKey} {security : ApsSecurity} {partner : IeeeAddress}
  {key : AesKey} {n : ApsNode f}

theorem UsedBelow.mono {a b : Nat} (h : UsedBelow sent partner key a) (hab : a ≤ b) : UsedBelow sent partner key b :=
  fun u hu hp hk => (h u hu hp hk).trans_le hab

theorem LimitStored.of_mem (hdistinct : (keys.map (·.partnerAddress)).Nodup) (hk : k ∈ keys) {limit : UInt32}
    (hle : limit.toNat ≤ k.outgoingFrameCounterLimit.toNat) : LimitStored keys k.partnerAddress k.key limit := by
  refine Or.inr ⟨⟨k, hk, rfl, rfl⟩, fun k' hk' hpartner _ => ?_⟩
  rw [List.inj_on_of_nodup_map hdistinct hk' hk hpartner]
  exact hle

/-- A table without application keys. -/
theorem LiveOk.of_none (h : ∀ partner, security.findKey partner .applicationLinkKey = none) : LiveOk sent keys security := by
  intro partner e he
  rw [h partner] at he
  cases he

/-- A capture reserves above what was used. -/
theorem Inv.capture (h : n.Inv) (hcaptures : Captures n.security keys) :
    LiveOk n.sent keys n.security ∧ ∀ k ∈ keys, UsedBelow n.sent k.partnerAddress k.key k.outgoingFrameCounterLimit.toNat := by
  constructor
  · intro partner e he
    obtain ⟨k, hk, hreserved⟩ := hcaptures.complete partner e he
    obtain ⟨-, hpartner, -⟩ := findKey_eq_some he
    refine ⟨(h.live partner e he).1, ?_⟩
    rw [← hpartner, ← hreserved.1, ← hreserved.2.1]
    exact LimitStored.of_mem hcaptures.distinct hk hreserved.limit_le
  · intro k hk
    obtain ⟨e, he, hreserved⟩ := hcaptures.sound k hk
    rw [hreserved.2.1]
    exact (h.live _ e he).1.mono hreserved.counter_le

/-- The stored limit of a key is its live limit, or one reservation above its live counter. -/
def Raisable (security : ApsSecurity) (k : PersistentApplicationLinkKey) : Prop :=
  ∀ e, security.findKey k.partnerAddress .applicationLinkKey = some e →
    k.outgoingFrameCounterLimit = e.outgoingFrameCounterLimit ∨
      ∃ current : Nat, k.outgoingFrameCounterLimit.toNat = current + 0x400 ∧ e.outgoingFrameCounter.toNat ≤ current

theorem findKey_raised (counter limit : UInt32) (partner' : IeeeAddress) :
    (security.updateKey partner .applicationLinkKey (raised counter limit)).findKey partner' .applicationLinkKey =
      if partner' = partner then (security.findKey partner' .applicationLinkKey).map (raised counter limit)
      else security.findKey partner' .applicationLinkKey := by
  rw [findKey_updateKey]
  · simp only [and_true]
  · exact fun _ => rfl
  · exact fun _ => rfl

/-- **Raising the live limits** to those that were stored. -/
theorem raiseLimits_live (hdistinct : (keys.map (·.partnerAddress)).Nodup) (hrest : ∀ k ∈ rest, k ∈ keys)
    (hnodup : (rest.map (·.partnerAddress)).Nodup) (hraisable : ∀ k ∈ rest, Raisable security k)
    (hlive : LiveOk sent keys security) : LiveOk sent keys (raiseLimits security rest).1 := by
  induction rest generalizing security with
  | nil => exact hlive
  | cons k rest ih =>
    obtain ⟨hnew, hnodup⟩ := List.nodup_cons.mp hnodup
    obtain ⟨hk, hrest⟩ := List.forall_mem_cons.mp hrest
    obtain ⟨hkraisable, hraisable⟩ := List.forall_mem_cons.mp hraisable
    simp only [raiseLimits]
    split
    · exact hlive
    · rename_i e he
      split
      · exact hlive
      · rename_i hkey
        split
        · rename_i hlimit
          split
          · exact hlive
          · rename_i counter hcounter
            refine ih hrest hnodup (fun k' hk' e' he' => ?_) fun p e' he' => ?_
            · have hother : k'.partnerAddress ≠ k.partnerAddress := by
                intro heq
                exact hnew (List.mem_map.mpr ⟨k', hk', heq⟩)
              rw [findKey_raised, if_neg hother] at he'
              exact hraisable k' hk' e' he'
            · rw [findKey_raised] at he'
              split at he'
              · rename_i hsame
                rw [hsame, he] at he'
                cases he'
                obtain hkeep | ⟨current, hcurrent, hle⟩ := hkraisable e he
                · exact absurd hkeep.symm hlimit
                · have hsub := toNat_of_checkedSub32 hcounter
                  have hcounter' : e.outgoingFrameCounter.toNat ≤ counter.toNat := by
                    have hreservation : APPLICATION_KEY_RESERVATION.toNat = 0x400 := rfl
                    omega
                  have hkey' : e.key = k.key := by simpa using hkey
                  rw [hsame]
                  refine ⟨(hlive _ e he).1.mono hcounter', ?_⟩
                  rw [show (raised counter k.outgoingFrameCounterLimit e).key = k.key from hkey']
                  exact LimitStored.of_mem hdistinct hk (Nat.le_refl _)
              · exact hlive p e' he'
        · exact ih hrest hnodup hraisable hlive

/-- A stored limit that a restore may install. -/
def Installable (sent : List SentFrame) (k : PersistentApplicationLinkKey) : Prop :=
  ∃ start : Nat, k.outgoingFrameCounterLimit.toNat = start + 0x400 ∧ UsedBelow sent k.partnerAddress k.key start

/-- **Installing the stored keys** above what was used. -/
theorem installKeys_live (hdistinct : (keys.map (·.partnerAddress)).Nodup) (hrest : ∀ k ∈ rest, k ∈ keys)
    (hinstallable : ∀ k ∈ rest, Installable sent k) (hlive : LiveOk sent keys security) :
    LiveOk sent keys (installKeys security rest).1 := by
  induction rest generalizing security with
  | nil => exact hlive
  | cons k rest ih =>
    obtain ⟨hk, hrest⟩ := List.forall_mem_cons.mp hrest
    obtain ⟨⟨start, hstart, hused⟩, hinstallable⟩ := List.forall_mem_cons.mp hinstallable
    simp only [installKeys]
    split
    · exact hlive
    · rename_i counter hcounter
      split
      · exact hlive
      · rename_i security' hadd
        refine ih hrest hinstallable fun p e he => ?_
        rw [findKey_addKey hadd] at he
        split at he
        · rename_i hsame
          cases he
          rw [hsame.1]
          have hsub := toNat_of_checkedSub32 hcounter
          have hreservation : APPLICATION_KEY_RESERVATION.toNat = 0x400 := rfl
          exact ⟨hused.mono (by simp only; omega), LimitStored.of_mem hdistinct hk (Nat.le_refl _)⟩
        · exact hlive p e he

/-! ### Events -/

theorem Inv.save (h : n.Inv) (o : TableStoreOutcome) : (n.saveApsTables o).1.Inv := by
  unfold saveApsTables
  split
  · exact h
  · rename_i snapshot hcapture
    have hcaptures := captureWithSecurity_spec hcapture
    obtain ⟨hlive, hstored⟩ := h.capture hcaptures
    cases o with
    | refused e => exact h
    | lost e => exact ⟨hlive, hstored, h.distinct⟩
    | done =>
      refine ⟨raiseLimits_live hcaptures.distinct (fun _ hk => hk) hcaptures.distinct (fun k hk e he => ?_) hlive, hstored,
        h.distinct⟩
      obtain ⟨e', he', -, -, hreserved⟩ := hcaptures.sound k hk
      rw [he] at he'
      cases he'
      obtain ⟨heq, -⟩ | ⟨current, hcurrent, hle, -⟩ := hreserved
      · exact Or.inl heq
      · exact Or.inr ⟨current, hcurrent, hle⟩

/-- What a restore stores again. -/
theorem reserve_spec {t t' : PersistentApsTables f} (h : t.reserve = some t') :
    List.Forall₂ (fun k k' => reserveKey k = some k') t.applicationKeys.items t'.applicationKeys.items := by
  unfold reserve at h
  split at h
  · cases h
  · rename_i keys hkeys
    cases h
    exact reserveKeys_spec hkeys

theorem map_partner_reserve (h : List.Forall₂ (fun k k' => reserveKey k = some k') l l') :
    l'.map (·.partnerAddress) = l.map (·.partnerAddress) := by
  induction h with
  | nil => rfl
  | cons hk _ ih => rw [List.map_cons, List.map_cons, ih, (reserveKey_spec hk).1]

/-- The stored limits may be raised. -/
theorem Inv.raiseStored (h : n.Inv)
    (hall : List.Forall₂ (fun k k' => reserveKey k = some k') n.storedKeys l') :
    LiveOk n.sent l' n.security ∧ (∀ k ∈ l', UsedBelow n.sent k.partnerAddress k.key k.outgoingFrameCounterLimit.toNat) ∧
      ∀ k ∈ l', Installable n.sent k := by
  obtain ⟨hleft, hright⟩ := exists_of_forall₂ hall
  have hinstallable : ∀ k ∈ l', Installable n.sent k := by
    intro k' hk'
    obtain ⟨k, hk, hraised⟩ := hright k' hk'
    obtain ⟨hpartner, hkey, hlimit⟩ := reserveKey_spec hraised
    refine ⟨k.outgoingFrameCounterLimit.toNat, hlimit, ?_⟩
    rw [hpartner, hkey]
    exact h.stored k hk
  refine ⟨fun partner e he => ⟨(h.live partner e he).1, ?_⟩, fun k hk => ?_, hinstallable⟩
  · obtain hzero | ⟨⟨k, hk, hkp, hkk⟩, hlimits⟩ := (h.live partner e he).2
    · exact Or.inl hzero
    · right
      constructor
      · obtain ⟨k', hk', hraised⟩ := hleft k hk
        obtain ⟨hpartner, hkey, -⟩ := reserveKey_spec hraised
        exact ⟨k', hk', hpartner.trans hkp, hkey.trans hkk⟩
      · intro k' hk' hkp' hkk'
        obtain ⟨k, hk, hraised⟩ := hright k' hk'
        obtain ⟨hpartner, hkey, hlimit⟩ := reserveKey_spec hraised
        have hle := hlimits k hk (hpartner.symm.trans hkp') (hkey.symm.trans hkk')
        omega
  · obtain ⟨start, hstart, hused⟩ := hinstallable k hk
    exact hused.mono (by omega)

theorem Inv.restore (h : n.Inv) (o : TableStoreOutcome) : (n.restoreApsTables o).1.Inv := by
  unfold restoreApsTables
  have hcleared : ∀ keys, LiveOk n.sent keys n.security.clearApplicationLinkKeys :=
    fun keys => LiveOk.of_none fun _ => findKey_clearApplicationLinkKeys
  cases hn : n.stored with
  | none =>
    refine ⟨hcleared _, fun k hk => ?_, h.distinct⟩
    simp [storedKeys] at hk
  | some snapshot =>
    have hkeys : n.storedKeys = snapshot.applicationKeys.items := by
      unfold storedKeys
      rw [hn]
    dsimp only
    split
    · exact h
    · rename_i hvalid
      split
      · exact h
      · split
        · exact h
        · rename_i snapshot' hreserve
          have hall := reserve_spec hreserve
          have hdistinct : (snapshot'.applicationKeys.items.map (·.partnerAddress)).Nodup := by
            rw [map_partner_reserve hall]
            exact keys_of_validate hvalid
          rw [← hkeys] at hall
          obtain ⟨hlive, hstored, hinstallable⟩ := h.raiseStored hall
          split
          · rename_i stored e hoe
            split at hoe
            · cases hoe
            · cases o with
              | done => cases hoe
              | refused e' =>
                cases hoe
                have hsame : { n with stored := some snapshot } = n := by rw [← hn]
                exact hsame.symm ▸ h
              | lost e' =>
                cases hoe
                exact ⟨hlive, hstored, h.distinct⟩
          · rename_i stored hoe
            split at hoe
            · rename_i hempty
              cases hoe
              rw [hempty]
              refine ⟨hcleared _, fun k hk => h.stored k ?_, h.distinct⟩
              rw [hkeys]
              exact hk
            · cases o with
              | refused e' => cases hoe
              | lost e' => cases hoe
              | done =>
                cases hoe
                exact ⟨installKeys_live hdistinct (fun _ hk => hk) hinstallable (hcleared _), hstored, h.distinct⟩

theorem Inv.transportKey (h : n.Inv) (hnew : ∀ u ∈ n.sent, ¬ (u.partner = partner ∧ u.key = key)) :
    (n.transportKey partner key).Inv := by
  unfold ApsNode.transportKey
  split
  · exact h
  · split
    · exact h
    · rename_i security hadd
      refine ⟨fun p e he => ?_, h.stored, h.distinct⟩
      rw [findKey_addKey hadd] at he
      split at he
      · rename_i hsame
        cases he
        rw [hsame.1]
        exact ⟨fun u hu hp hk => absurd ⟨hp, hk⟩ (hnew u hu), Or.inl rfl⟩
      · exact h.live p e he

theorem Inv.send (h : n.Inv) : (n.send partner).Inv := by
  unfold ApsNode.send
  split
  · rename_i e security counter hfind hnext
    unfold nextFrameCounter at hnext
    rw [hfind] at hnext
    simp only at hnext
    split at hnext
    · cases hnext
    · rename_i hroom
      cases hnext
      obtain ⟨hused, hlimit⟩ := h.live partner e hfind
      have hlt : e.outgoingFrameCounter.toNat < e.outgoingFrameCounterLimit.toNat := Nat.not_le.mp hroom
      have hlimits : ∀ k ∈ n.storedKeys, k.partnerAddress = partner → k.key = e.key →
          e.outgoingFrameCounterLimit.toNat ≤ k.outgoingFrameCounterLimit.toNat := by
        obtain hzero | ⟨-, hlimits⟩ := hlimit
        · rw [hzero] at hlt
          exact absurd hlt (Nat.not_lt_zero _)
        · exact hlimits
      have hsent : ∀ {p k m}, UsedBelow n.sent p k m → (p = partner → k = e.key → e.outgoingFrameCounter.toNat < m) →
          UsedBelow (n.sent ++ [⟨partner, e.key, e.outgoingFrameCounter⟩]) p k m := by
        intro p k m hm hthis u hu hp hk
        rcases List.mem_append.mp hu with hu | hu
        · exact hm u hu hp hk
        · rw [List.mem_singleton.mp hu] at hp hk ⊢
          exact hthis hp.symm hk.symm
      refine ⟨fun p e' he' => ?_, fun k hk => ?_, ?_⟩
      · rw [findKey_updateKey] at he'
        · split at he'
          · rename_i hsame
            rw [hsame.1, hfind] at he'
            cases he'
            have hnext : (e.outgoingFrameCounter + 1).toNat = e.outgoingFrameCounter.toNat + 1 := by
              have := e.outgoingFrameCounterLimit.toNat_lt
              rw [UInt32.toNat_add]
              exact Nat.mod_eq_of_lt (by have : (1 : UInt32).toNat = 1 := rfl; omega)
            rw [hsame.1]
            refine ⟨?_, hlimit⟩
            rw [hnext]
            exact hsent (hused.mono (Nat.le_succ _)) fun _ _ => Nat.lt_succ_self _
          · rename_i hother
            obtain ⟨hused', hlimit'⟩ := h.live p e' he'
            exact ⟨hsent hused' fun hp _ => absurd ⟨hp, rfl⟩ hother, hlimit'⟩
        · exact fun _ => rfl
        · exact fun _ => rfl
      · exact hsent (h.stored k hk) fun hp hkey => hlt.trans_le (hlimits k hk hp hkey)
      · refine List.nodup_append.mpr ⟨h.distinct, List.nodup_singleton _, fun u hu u' hu' heq => ?_⟩
        rw [List.mem_singleton.mp hu'] at heq
        have := hused u hu (by rw [heq]) (by rw [heq])
        rw [heq] at this
        exact absurd this (Nat.lt_irrefl _)
  · exact h

theorem Inv.step (h : n.Inv) (e : Event f) (hnew : n.NewKeys e) : (n.step e).Inv := by
  cases e with
  | save o => exact h.save o
  | restore loads o =>
    cases loads with
    | false => exact h
    | true => exact h.restore o
  | reboot => exact ⟨LiveOk.of_none fun _ => rfl, h.stored, h.distinct⟩
  | send partner => exact h.send
  | transportKey partner key => exact h.transportKey hnew
  | change extendedPanId bindings groups => exact ⟨h.live, h.stored, h.distinct⟩

theorem inv_powerUp (stored : Option (PersistentApsTables f)) : (powerUp stored).Inv :=
  ⟨LiveOk.of_none fun _ => rfl, fun _ _ _ hu => absurd hu List.not_mem_nil, List.nodup_nil⟩

end Invariant

/-- **The counters of the application link keys never repeat.** -/
theorem application_counters_never_repeat (stored : Option (PersistentApsTables f)) (es : List (Event f))
    (hnew : Run.Along step NewKeys (powerUp stored) es) :
    (Run.run step (powerUp stored) es).sent.Nodup ∧
      ∀ partner e, (Run.run step (powerUp stored) es).security.findKey partner .applicationLinkKey = some e →
        LimitStored (Run.run step (powerUp stored) es).storedKeys partner e.key e.outgoingFrameCounterLimit := by
  have hinv := Run.run_induct (I := Inv) (fun _ e h hnew => h.step e hnew) (inv_powerUp stored) hnew
  exact ⟨hinv.distinct, fun partner e he => (hinv.live partner e he).2⟩

/-- A key that is transported, saved and used, and used again after a reboot. -/
theorem counters_of_two_lives :
    let partner : IeeeAddress := Vector.replicate 8 0x22
    let key : AesKey := Vector.replicate 16 0x33
    let network : Event ⟨true, true⟩ := .change (Vector.replicate 8 0x11) .new .new
    let es := [network, .transportKey partner key, .send partner, .save .done, .send partner, .send partner, .reboot, network,
      .restore true .done, .send partner]
    (Run.run step (powerUp none) es).sent.Nodup ∧
      (Run.run step (powerUp none) es).sent.map (·.counter) = [0, 1, 0x400] := by
  intro partner key network es
  refine ⟨(application_counters_never_repeat none es ?_).1, by decide +kernel⟩
  refine ⟨trivial, fun u hu => ?_, trivial, trivial, trivial, trivial, trivial, trivial, trivial, trivial, trivial⟩
  cases hu

end ApsNode

end Zigbee.Runtime
