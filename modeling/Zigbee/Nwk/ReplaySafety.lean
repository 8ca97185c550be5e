import Zigbee.Nwk.KeySlots

/-!
# Replay safety of committed counters

A counter committed for a source under an installed key stays refused: either its floor is in the
table, or the key is the sealed previous key of a router, which admits no source without a floor.

* `forgets` — the steps that may give a floor up: a stale eviction, the parent's replacement, and the
  clearing of a source.
* `reopens` — delivering the key of slot 1 once more.  Three operations take it for a change of the
  installed keys: they drop the seal, or the floors, of a key that stays.
* `renumbers` — delivering an installed key under another sequence number, where it has no floors.
* `committed_counter_stays_refused` — over every run without such deliveries a committed counter is
  never admitted again under its key.
* `replay_admitted_after_rotation` — with one, it is.
-/

namespace Zigbee.Nwk

open NwkSecurity Run

/-- A key under its sequence number is in one of the slots. -/
def NwkSecurity.installed (s : NwkSecurity) (key : AesKey) (keySequence : UInt8) : Bool :=
  (s.keyBySeq keySequence).any (·.key == key)

/-- The key material is in one of the slots. -/
def NwkSecurity.carries (s : NwkSecurity) (key : AesKey) : Bool :=
  s.keys0.any (·.key == key) || s.keys1.any (·.key == key)

/-- The slots hold the key material under no other sequence number. -/
def NwkSecurity.onlyUnder (s : NwkSecurity) (key : AesKey) (keySequence : UInt8) : Bool :=
  s.keys0.all (fun e => e.key != key || e.seqNumber == keySequence) &&
    s.keys1.all (fun e => e.key != key || e.seqNumber == keySequence)

/-- The step gives up the floor of a source under a key sequence by a rule that allows it. -/
def SecurityOp.forgets (router : Bool) (s : NwkSecurity) (source : IeeeAddress) (keySequence : UInt8)
    (op : SecurityOp) : Bool :=
  match op with
  | .clearFrameCountersForSource cleared => cleared == source
  | op =>
    (op.commitCall s).any fun call =>
      (s.victim router call).any fun i =>
        (s.frameCounterTable[i]?).any (·.isFor source keySequence)

/-- The step delivers the key that slot 1 holds already, and is taken for a change of the keys. -/
def SecurityOp.reopens (s : NwkSecurity) : SecurityOp → Bool
  | .setNetworkKey key seqNumber => s.secondaryIs key seqNumber && s.previousKeyReplaySealed
  | .stageNetworkKey key seqNumber =>
    s.secondaryIs key seqNumber && s.previousKeyReplaySealed &&
      s.keys0.any fun active => keySequenceIsNewer seqNumber active.seqNumber
  | .restorePreviousNetworkKey key seqNumber => s.secondaryIs key seqNumber
  | _ => false

/-- The step puts the key into a slot under another sequence number. -/
def SecurityOp.renumbers (s : NwkSecurity) (key : AesKey) (keySequence : UInt8) (op : SecurityOp) : Bool :=
  (op.delivers s).any fun delivered => delivered.1 == key && delivered.2 != keySequence

/-- What keeps a committed counter refused. -/
inductive Refused (router : Bool) (s : NwkSecurity) (source : IeeeAddress) (keySequence : UInt8)
    (counter : UInt32) : Prop
  | floor {e : FrameCounterEntry} (he : e ∈ s.frameCounterTable) (hdom : e.domain = (source, keySequence))
      (hle : counter ≤ e.counter)
  | shut (hrouter : router = true) (hprev : s.previousSequence = some keySequence)
      (hsealed : s.previousKeyReplaySealed = true)
      (hgone : ∀ e ∈ s.frameCounterTable, e.domain ≠ (source, keySequence))

variable {key : AesKey} {op : SecurityOp}

section

variable {router : Bool} {s s' : NwkSecurity} {source : IeeeAddress} {keySequence : UInt8} {counter : UInt32}

theorem le_max_counter (a b : UInt32) : a ≤ max a b ∧ b ≤ max a b := by
  change a ≤ (if a ≤ b then b else a) ∧ b ≤ (if a ≤ b then b else a)
  split
  · exact ⟨‹_›, UInt32.le_refl b⟩
  · exact ⟨UInt32.le_refl a, (UInt32.le_total a b).resolve_left ‹_›⟩

theorem keyBySeq_eq_some {e : NetworkKeyEntry} (h : s.keyBySeq keySequence = some e) :
    (s.keys0 = some e ∨ s.keys1 = some e) ∧ e.seqNumber = keySequence := by
  rcases Option.or_eq_some_iff.mp h with h | ⟨-, h⟩
  · obtain ⟨h0, hseq⟩ := Option.filter_eq_some_iff.mp h
    exact ⟨Or.inl h0, beq_iff_eq.mp hseq⟩
  · obtain ⟨h1, hseq⟩ := Option.filter_eq_some_iff.mp h
    exact ⟨Or.inr h1, beq_iff_eq.mp hseq⟩

theorem installed_slot (h : s.installed key keySequence = true) :
    (∃ a, s.keys0 = some a ∧ a.seqNumber = keySequence ∧ a.key = key) ∨ s.secondaryIs key keySequence = true := by
  obtain ⟨e, he, hkey⟩ := (Option.any_eq_true _ _).mp h
  obtain ⟨h0 | h1, hseq⟩ := keyBySeq_eq_some he
  · exact Or.inl ⟨e, h0, hseq, beq_iff_eq.mp hkey⟩
  · exact Or.inr (secondaryIs_iff.mpr ⟨e, h1, hseq, beq_iff_eq.mp hkey⟩)

/-- An installed key under the active sequence number is the active key. -/
theorem installed_active {a : NetworkKeyEntry} (h : s.installed key keySequence = true) (h0 : s.keys0 = some a)
    (hseq : a.seqNumber = keySequence) : a.key = key := by
  simpa [NwkSecurity.installed, keyBySeq, h0, hseq, Option.filter] using h

/-! ## Where a key is installed -/

def NwkSecurity.Slot (s : NwkSecurity) (e : NetworkKeyEntry) : Prop := s.keys0 = some e ∨ s.keys1 = some e

theorem carries_iff : s.carries key = true ↔ ∃ e, s.Slot e ∧ e.key = key := by
  simp only [carries, Bool.or_eq_true, Option.any_eq_true, beq_iff_eq, Slot, or_and_right, exists_or]

theorem onlyUnder_iff :
    s.onlyUnder key keySequence = true ↔ ∀ e, s.Slot e → e.key = key → e.seqNumber = keySequence := by
  simp only [onlyUnder, Bool.and_eq_true, Option.all_eq_true, Bool.or_eq_true, bne_iff_ne, beq_iff_eq, Slot,
    or_imp, forall_and, ← imp_iff_not_or]

theorem installed_iff (hw : WellFormed router s) :
    s.installed key keySequence = true ↔ ∃ e, s.Slot e ∧ e.key = key ∧ e.seqNumber = keySequence := by
  constructor
  · intro h
    obtain ⟨e, he, hkey⟩ := (Option.any_eq_true _ _).mp h
    obtain ⟨hslot, hseq⟩ := keyBySeq_eq_some he
    exact ⟨e, hslot, beq_iff_eq.mp hkey, hseq⟩
  · rintro ⟨e, h0 | h1, rfl, rfl⟩
    · simp [NwkSecurity.installed, keyBySeq, h0, Option.filter]
    · have hfirst : s.keys0.filter (·.seqNumber == e.seqNumber) = none :=
        Option.filter_eq_none_iff.mpr fun a h0 => by simpa using hw.slots.distinct a e h0 h1
      rw [NwkSecurity.installed, keyBySeq, hfirst, h1]
      simp [Option.filter]

/-- A key that is in a slot after a step was in one before, or the step delivers it. -/
theorem change_slot (hw : WellFormed router s) (hc : Change router op s s') {e' : NetworkKeyEntry} (he' : s'.Slot e') :
    (∃ e, s.Slot e ∧ e.key = e'.key ∧ e.seqNumber = e'.seqNumber) ∨
      op.delivers s = some (e'.key, e'.seqNumber) := by
  have hkept : s.Slot e' → ∃ e, s.Slot e ∧ e.key = e'.key ∧ e.seqNumber = e'.seqNumber := fun h => ⟨e', h, rfl, rfl⟩
  cases hc with
  | same => exact Or.inl (hkept he')
  | cleared => rcases he' with h | h <;> cases h
  | @rekeyed a key h0 hop =>
    have hkeys : (s.replaceActiveKey a key).keys0 = some { a with key := key, active := true } ∧
        (s.replaceActiveKey a key).keys1 = s.keys1 := by
      unfold replaceActiveKey
      dsimp only
      split <;> exact ⟨rfl, rfl⟩
    rcases he' with h | h
    · rw [hkeys.1] at h
      cases h
      exact Or.inr hop
    · rw [hkeys.2] at h
      exact Or.inl (hkept (Or.inr h))
  | swapped hwhy =>
    rcases he' with h | h
    · obtain ⟨b, h1, rfl⟩ := Option.map_eq_some_iff.mp h
      exact Or.inl ⟨b, Or.inr h1, rfl, rfl⟩
    · obtain ⟨a, h0, rfl⟩ := Option.map_eq_some_iff.mp h
      exact Or.inl ⟨a, Or.inl h0, rfl, rfl⟩
  | installed h0 h1 hop =>
    rcases he' with h | h
    · cases h
      exact Or.inr hop
    · obtain ⟨a, h0, rfl⟩ := Option.map_eq_some_iff.mp (Option.filter_eq_some_iff.mp h).1
      exact Or.inl ⟨a, Or.inl h0, rfl, rfl⟩
  | staged hop h0 h1 hnewer => exact Or.inl (hkept he')
  | secondary h0 hne hstaged h1 hop =>
    rcases he' with h | h
    · exact Or.inl (hkept (Or.inl h))
    · cases h
      exact Or.inr hop
  | flagged =>
    obtain ⟨h0, h1⟩ := hw.slots.flags_eq
    rw [h0, h1] at he'
    exact Or.inl (hkept he')
  | retired hstaged =>
    rcases he' with h | h
    · exact Or.inl (hkept (Or.inl h))
    · cases h
  | forgotten hop => exact Or.inl (hkept he')
  | timeout secs => exact Or.inl (hkept he')
  | aged elapsedSecs => exact Or.inl (hkept he')
  | committed call hcall =>
    obtain ⟨h0, h1, -⟩ := (commit_effect hw.floors.capacity call).keys
    unfold NwkSecurity.Slot at he'
    rw [h0, h1] at he'
    exact Or.inl (hkept he')

/-- **A key that no step renumbers stays under its number.** -/
theorem change_onlyUnder (hw : WellFormed router s) (hc : Change router op s s')
    (honly : s.onlyUnder key keySequence = true) (hop : op.renumbers s key keySequence = false) :
    s'.onlyUnder key keySequence = true := by
  rw [onlyUnder_iff] at honly ⊢
  rintro e' he' rfl
  rcases change_slot hw hc he' with ⟨e, he, hkey, hseq⟩ | hdel
  · rw [← hseq]
    exact honly e he hkey
  · simpa [SecurityOp.renumbers, hdel] using hop

theorem installed_of_carries (hw : WellFormed router s) (honly : s.onlyUnder key keySequence = true)
    (h : s.carries key = true) : s.installed key keySequence = true := by
  obtain ⟨e, he, hkey⟩ := carries_iff.mp h
  exact (installed_iff hw).mpr ⟨e, he, hkey, onlyUnder_iff.mp honly e he hkey⟩

theorem previousSequence_eq_some :
    s.previousSequence = some keySequence ↔ ∃ b, s.Retained b ∧ b.seqNumber = keySequence := by
  simp only [previousSequence, Option.filter_eq_some_iff, Option.map_eq_some_iff, bne_iff_ne, Retained]
  constructor
  · rintro ⟨⟨b, h1, rfl⟩, hst⟩
    exact ⟨b, ⟨h1, hst⟩, rfl⟩
  · rintro ⟨b, ⟨h1, hst⟩, rfl⟩
    exact ⟨⟨b, h1, rfl⟩, hst⟩

/-- The sealed previous key is not the active one, nor a staged one. -/
theorem previous_not_first (h : WellFormed router s) (hprev : s.previousSequence = some keySequence) :
    ∀ a, s.keys0 = some a → a.seqNumber ≠ keySequence := by
  obtain ⟨b, hb, rfl⟩ := previousSequence_eq_some.mp hprev
  exact fun a h0 => h.slots.distinct a b h0 hb.1

theorem previous_not_staged (h : WellFormed router s) (hprev : s.previousSequence = some keySequence) :
    s.stagedKeySequence = none := by
  obtain ⟨b, hb, rfl⟩ := previousSequence_eq_some.mp hprev
  cases hst : s.stagedKeySequence with
  | none => rfl
  | some seqNumber =>
    obtain ⟨b', h1, hseq⟩ := h.slots.keys1_of_staged hst
    rw [hb.1] at h1
    cases h1
    exact absurd (by rw [hst, hseq]) hb.2

/-- The floors of an installed key survive `retain_frame_counters_for_installed_keys`. -/
theorem mem_retained {e : FrameCounterEntry} {k : NetworkKeyEntry} (hk : s.keys0 = some k ∨ s.keys1 = some k)
    (he : e ∈ s.frameCounterTable) (hseq : e.keySequence = k.seqNumber) :
    e ∈ s.retainFrameCountersForInstalledKeys.frameCounterTable := by
  refine List.mem_filter.mpr ⟨he, ?_⟩
  rcases hk with hk | hk <;> simp [unsealPreviousKey, hk, hseq]

theorem mem_clearFrameCountersForKey {e : FrameCounterEntry} {seqNumber : UInt8} (he : e ∈ s.frameCounterTable)
    (hne : e.keySequence ≠ seqNumber) : e ∈ (s.clearFrameCountersForKey seqNumber).frameCounterTable :=
  List.mem_filter.mpr ⟨he, bne_iff_ne.mpr hne⟩

/-- A known floor decides by its counter alone. -/
theorem admission_of_floor (hw : WellFormed router s) {e : FrameCounterEntry} (he : e ∈ s.frameCounterTable)
    (hdom : e.domain = (source, keySequence)) (counter' : UInt32) (caller : Caller) :
    s.admission router source keySequence counter' caller = if e.counter < counter' then .fresh else .replay := by
  have hfind : s.frameCounterTable.find? (·.isFor source keySequence) = some e := by
    refine Table.find?_eq_of_nodup hw.floors.nodup (fun y => ?_) he
    rw [y.isFor_iff, hdom]
  cases router with
  | true => simp [admission, checkFrameCounterReserving, hfind]
  | false => simp [admission, replayAdmission, hfind]

/-- The sealed previous key admits no source without a floor. -/
theorem admission_shut (hprev : s.previousSequence = some keySequence) (hsealed : s.previousKeyReplaySealed = true)
    (hgone : ∀ e ∈ s.frameCounterTable, e.domain ≠ (source, keySequence)) (counter' : UInt32) (caller : Caller) :
    s.admission true source keySequence counter' caller = .tableFull := by
  have hfind : s.frameCounterTable.find? (·.isFor source keySequence) = none :=
    List.find?_eq_none.mpr fun e he hfor => hgone e he ((e.isFor_iff _ _).mp hfor)
  simp [admission, checkFrameCounterReserving, hfind, reclaimableKeySequence, hprev, hsealed]

/-- A commit leaves the seal, and adds no floor that the seal keeps out. -/
theorem CommitEffect.stays_shut {call : CommitCall} {ok : Bool} (he : CommitEffect true s call s' ok)
    (hprev : s.previousSequence = some keySequence) (hsealed : s.previousKeyReplaySealed = true)
    (hgone : ∀ e ∈ s.frameCounterTable, e.domain ≠ (source, keySequence)) :
    s'.previousKeyReplaySealed = true ∧ ∀ e ∈ s'.frameCounterTable, e.domain ≠ (source, keySequence) := by
  have hentry : ¬ (s.previousSequence = some call.keySequence ∧ s.previousKeyReplaySealed = true) →
      call.entry.domain ≠ (source, keySequence) := by
    intro hopen hdom
    have hseq : call.keySequence = keySequence := congrArg Prod.snd hdom
    exact hopen ⟨by rw [hprev, hseq], hsealed⟩
  cases he with
  | @known i e e' hi hfor hdom' hcounter =>
    refine ⟨hsealed, fun x hx => ?_⟩
    rcases List.mem_or_eq_of_mem_set hx with hx | rfl
    · exact hgone x hx
    · rw [hdom']
      exact hgone e (List.mem_of_getElem? hi)
  | refused hnew => exact ⟨hsealed, hgone⟩
  | appended hnew hopen hroom =>
    refine ⟨hsealed, fun x hx => ?_⟩
    rcases List.mem_append.mp hx with hx | hx
    · exact hgone x hx
    · rw [List.mem_singleton.mp hx]
      exact hentry (hopen rfl)
  | @reclaimed i e _ hnew hi hprev' hne =>
    refine ⟨rfl, fun x hx => ?_⟩
    rcases List.mem_or_eq_of_mem_set hx with hx | rfl
    · exact hgone x hx
    · refine hentry fun hopen => hne ?_
      rw [hprev'] at hopen
      exact (Option.some.inj hopen.1).symm
  | evicted _ hnew hi hopen hvictim =>
    refine ⟨hsealed, fun x hx => ?_⟩
    rcases List.mem_or_eq_of_mem_set hx with hx | rfl
    · exact hgone x hx
    · exact hentry hopen
  | replaced hrouter hnew hvictim hi => cases hrouter

namespace Refused

/-- A change that keeps the floors of the domain, adds none of it, and keeps the seal. -/
theorem of_keeps (h : Refused router s source keySequence counter)
    (hsub : ∀ e ∈ s'.frameCounterTable, e ∈ s.frameCounterTable)
    (hkeep : ∀ e ∈ s.frameCounterTable, e.domain = (source, keySequence) → e ∈ s'.frameCounterTable)
    (hseal : s.previousSequence = some keySequence → s.previousKeyReplaySealed = true →
      s'.previousSequence = some keySequence ∧ s'.previousKeyReplaySealed = true) :
    Refused router s' source keySequence counter := by
  cases h with
  | floor he hdom hle => exact .floor (hkeep _ he hdom) hdom hle
  | shut hrouter hprev hsealed hgone =>
    obtain ⟨hprev', hsealed'⟩ := hseal hprev hsealed
    exact .shut hrouter hprev' hsealed' fun e he => hgone e (hsub e he)

/-- A change that keeps the floors of the active key, which has no seal. -/
theorem of_active (hw : WellFormed router s) (h : Refused router s source keySequence counter)
    {a : NetworkKeyEntry} (h0 : s.keys0 = some a) (hseq : a.seqNumber = keySequence)
    (hkeep : ∀ e ∈ s.frameCounterTable, e.keySequence = keySequence → e ∈ s'.frameCounterTable) :
    Refused router s' source keySequence counter := by
  cases h with
  | floor he hdom hle => exact .floor (hkeep _ he (congrArg Prod.snd hdom)) hdom hle
  | shut hrouter hprev hsealed hgone => exact absurd hseq (previous_not_first hw hprev a h0)

theorem commit (hw : WellFormed router s) (h : Refused router s source keySequence counter) {call : CommitCall}
    {ok : Bool} (he : CommitEffect router s call s' ok)
    (hforget : ∀ i e, s.victim router call = some i → s.frameCounterTable[i]? = some e →
      e.domain ≠ (source, keySequence)) : Refused router s' source keySequence counter := by
  cases h with
  | floor hx hdom hle =>
    rename_i x
    cases he with
    | @known i e e' hi hfor hdom' hcounter =>
      rcases Table.mem_set_of_mem e' hx with hx' | hx'
      · rw [hi] at hx'
        cases hx'
        exact .floor (List.mem_set (List.getElem?_eq_some_iff.mp hi).1 _) (by rw [hdom', hdom])
          (by rw [hcounter]; exact UInt32.le_trans hle (le_max_counter _ _).1)
      · exact .floor hx' hdom hle
    | refused hnew => exact .floor hx hdom hle
    | appended hnew hopen hroom => exact .floor (List.mem_append_left _ hx) hdom hle
    | @reclaimed i e hrouter hnew hi hprev hne =>
      rcases Table.mem_set_of_mem call.entry hx with hx' | hx'
      · -- The floor itself is reclaimed: the key is the previous one, and it is sealed.
        obtain rfl : e = x := Option.some.inj (hi.symm.trans hx')
        have hseq : e.keySequence = keySequence := congrArg Prod.snd hdom
        refine .shut hrouter (by rw [← hseq]; exact hprev) rfl ?_
        rw [← hdom]
        exact Table.key_gone hw.floors.nodup hi fun hk => hne (congrArg Prod.snd hk)
      · exact .floor hx' hdom hle
    | evicted hrouter hnew hi hopen hvictim =>
      rcases Table.mem_set_of_mem call.entry hx with hx' | hx'
      · exact absurd hdom (hforget _ _ hvictim hx')
      · exact .floor hx' hdom hle
    | replaced hrouter hnew hvictim hi =>
      rcases Table.mem_eraseIdx_of_mem hx with hx' | hx'
      · exact absurd hdom (hforget _ _ hvictim hx')
      · exact .floor (List.mem_append_left _ hx') hdom hle
  | shut hrouter hprev hsealed hgone =>
    subst hrouter
    obtain ⟨hsealed', hgone'⟩ := he.stays_shut hprev hsealed hgone
    obtain ⟨-, h1, hst⟩ := he.keys
    exact .shut rfl (by rw [previousSequence, h1, hst]; exact hprev) hsealed' hgone'

theorem aged (h : Refused router s source keySequence counter) (elapsedSecs : UInt16) :
    Refused router (s.ageReplayFloors elapsedSecs) source keySequence counter := by
  cases h with
  | floor he hdom hle => exact .floor (List.mem_map_of_mem he) hdom hle
  | shut hrouter hprev hsealed hgone =>
    refine .shut hrouter hprev hsealed fun x hx => ?_
    obtain ⟨e, he, rfl⟩ := List.mem_map.mp hx
    exact hgone e he

theorem rekeyed (h : Refused router s source keySequence counter)
    {a : NetworkKeyEntry} {key key' : AesKey} (h0 : s.keys0 = some a)
    (hbefore : s.installed key keySequence = true)
    (hafter : (s.replaceActiveKey a key').installed key keySequence = true) :
    Refused router (s.replaceActiveKey a key') source keySequence counter := by
  have hseal : ∀ keys0 table, s.previousSequence = some keySequence →
      previousSequence { s with keys0 := keys0, stagedKeySequence := none, frameCounterTable := table } =
        some keySequence := by
    intro keys0 table hprev
    obtain ⟨b, hb, hseq⟩ := previousSequence_eq_some.mp hprev
    exact previousSequence_eq_some.mpr ⟨b, ⟨hb.1, nofun⟩, hseq⟩
  unfold replaceActiveKey at hafter ⊢
  dsimp only at hafter ⊢
  split at hafter
  · rename_i hkey
    have hne : a.seqNumber ≠ keySequence := by
      intro hseq
      rw [installed_active hbefore h0 hseq] at hkey
      exact hkey (installed_active hafter rfl hseq).symm
    rw [if_pos hkey]
    refine h.of_keeps (fun e he => (List.mem_filter.mp he).1) (fun e he hdom => ?_)
      fun hprev hsealed => ⟨hseal _ _ hprev, hsealed⟩
    have hseq : e.keySequence = keySequence := congrArg Prod.snd hdom
    exact List.mem_filter.mpr ⟨he, bne_iff_ne.mpr (by rw [hseq]; exact hne.symm)⟩
  · rename_i hkey
    rw [if_neg hkey]
    exact h.of_keeps (fun e he => he) (fun e he _ => he) fun hprev hsealed => ⟨hseal _ _ hprev, hsealed⟩

theorem installed (hw : WellFormed router s) (h : Refused router s source keySequence counter)
    {key key' : AesKey} {seqNumber : UInt8} (h0 : ∀ a, s.keys0 = some a → a.seqNumber ≠ seqNumber)
    (h1 : s.secondaryIs key' seqNumber = false) (hbefore : s.installed key keySequence = true)
    (hafter : (s.installNetworkKey key' seqNumber).installed key keySequence = true) :
    Refused router (s.installNetworkKey key' seqNumber) source keySequence counter := by
  -- The key was installed before, so it is not the one that comes in.
  have hne : seqNumber ≠ keySequence := by
    rintro rfl
    obtain rfl : key' = key := installed_active hafter rfl rfl
    rcases installed_slot hbefore with ⟨a, ha, hseq, -⟩ | hsec
    · exact h0 a ha hseq
    · rw [h1] at hsec
      cases hsec
  rcases installed_slot hafter with ⟨a, ha, hseq, -⟩ | hsec
  · cases ha
    exact absurd hseq hne
  · obtain ⟨b, hb, hseq, -⟩ := secondaryIs_iff.mp hsec
    obtain ⟨hb', -⟩ := Option.filter_eq_some_iff.mp hb
    obtain ⟨a, ha, rfl⟩ := Option.map_eq_some_iff.mp hb'
    refine h.of_active hw ha hseq fun e he hkey => ?_
    refine mem_retained (Or.inr hb) (mem_clearFrameCountersForKey he ?_) (by rw [hkey, hseq])
    rw [hkey]
    exact hne.symm

theorem secondary (hw : WellFormed router s) (h : Refused router s source keySequence counter)
    {key key' : AesKey} {seqNumber : UInt8} {stagedKey : Option UInt8} {a : NetworkKeyEntry}
    (h0 : s.keys0 = some a) (hne : a.seqNumber ≠ seqNumber) (h1 : s.secondaryIs key' seqNumber = false)
    (hbefore : s.installed key keySequence = true)
    (hafter : (s.setSecondary key' seqNumber stagedKey).installed key keySequence = true) :
    Refused router (s.setSecondary key' seqNumber stagedKey) source keySequence counter := by
  have hseq : a.seqNumber = keySequence := by
    rcases installed_slot hafter with ⟨a', ha', hseq, -⟩ | hsec
    · have ha' : s.keys0 = some a' := ha'
      rw [h0] at ha'
      cases ha'
      exact hseq
    · obtain ⟨b, hb, hseq, hkey⟩ := secondaryIs_iff.mp hsec
      cases hb
      rcases installed_slot hbefore with ⟨a', ha', hseq', -⟩ | hsec'
      · rw [h0] at ha'
        cases ha'
        exact hseq'
      · dsimp only at hseq hkey
        rw [hseq, hkey, hsec'] at h1
        cases h1
  refine h.of_active hw h0 hseq fun e he hkey => ?_
  refine mem_retained (Or.inl h0) (mem_clearFrameCountersForKey he ?_) (by rw [hkey, hseq])
  rw [hkey, ← hseq]
  exact hne

/-- **A step keeps a committed counter refused** while the key stays installed. -/
theorem change (hw : WellFormed router s) (h : Refused router s source keySequence counter)
    (hc : Change router op s s') (hbefore : s.installed key keySequence = true)
    (hafter : s'.installed key keySequence = true) (hforget : op.forgets router s source keySequence = false)
    (hreopen : op.reopens s = false) : Refused router s' source keySequence counter := by
  cases hc with
  | same => exact h
  | cleared => cases hafter
  | @rekeyed a key' h0 =>
    exact h.rekeyed h0 hbefore hafter
  | swapped hwhy =>
    refine h.of_keeps (fun e he => he) (fun e he _ => he) fun hprev hsealed => ?_
    rcases hwhy with ⟨key, seqNumber, rfl, hsec⟩ | ⟨seqNumber, hst⟩
    · simp [SecurityOp.reopens, hsec, hsealed] at hreopen
    · rw [previous_not_staged hw hprev] at hst
      cases hst
  | @installed key' seqNumber h0 h1 =>
    exact h.installed hw h0 h1 hbefore hafter
  | @staged key' seqNumber a hop h0 h1 hnewer =>
    refine h.of_keeps (fun e he => he) (fun e he _ => he) fun hprev hsealed => ?_
    subst hop
    simp [SecurityOp.reopens, h1, hsealed, h0, hnewer] at hreopen
  | @secondary key' seqNumber stagedKey a h0 hne hstaged h1 =>
    refine h.secondary hw h0 hne ?_ hbefore hafter
    by_contra hsec
    rw [Bool.not_eq_false] at hsec
    rw [h1 hsec] at hreopen
    simp [SecurityOp.reopens, hsec] at hreopen
  | flagged =>
    obtain ⟨h0, h1⟩ := hw.slots.flags_eq
    rw [h0, h1]
    exact h
  | retired hstaged =>
    rcases installed_slot hafter with ⟨a, h0, hseq, -⟩ | hsec
    · refine h.of_active hw h0 hseq fun e he hkey => ?_
      exact mem_retained (Or.inl h0) he (by rw [hkey, hseq])
    · cases hsec
  | @forgotten source' hop =>
    subst hop
    have hne : source' ≠ source := by simpa [SecurityOp.forgets] using hforget
    refine h.of_keeps (fun e he => (List.mem_filter.mp he).1) (fun e he hdom => ?_) fun hprev hsealed => ⟨hprev, hsealed⟩
    have hsource : e.source = source := congrArg Prod.fst hdom
    exact List.mem_filter.mpr ⟨he, by simpa [hsource] using hne.symm⟩
  | timeout secs => exact h.of_keeps (fun e he => he) (fun e he _ => he) fun hprev hsealed => ⟨hprev, hsealed⟩
  | aged elapsedSecs => exact h.aged elapsedSecs
  | committed call hcall =>
    refine h.commit hw (commit_effect hw.floors.capacity call) fun i e hvictim hi hdom => ?_
    have hforgets : op.forgets router s source keySequence = true := by
      have hop : op.forgets router s source keySequence = (op.commitCall s).any fun call =>
          (s.victim router call).any fun i => (s.frameCounterTable[i]?).any (·.isFor source keySequence) := by
        cases op <;> first | rfl | cases hcall
      rw [hop, hcall, Option.any_some, hvictim, Option.any_some, hi, Option.any_some]
      exact (e.isFor_iff _ _).mpr hdom
    rw [hforget] at hforgets
    cases hforgets

/-- A refused counter is not admitted. -/
theorem not_fresh (hw : WellFormed router s) (h : Refused router s source keySequence counter)
    {counter' : UInt32} (hle : counter' ≤ counter) (caller : Caller) :
    s.admission router source keySequence counter' caller ≠ .fresh := by
  cases h with
  | @floor e he hdom hfloor =>
    rw [admission_of_floor hw he hdom, if_neg (UInt32.not_lt.mpr (UInt32.le_trans hle hfloor))]
    nofun
  | shut hrouter hprev hsealed hgone =>
    subst hrouter
    rw [admission_shut hprev hsealed hgone]
    nofun

end Refused

/-- A successful commit leaves its floor in the table. -/
theorem CommitEffect.refused_after {call : CommitCall} (he : CommitEffect router s call s' true) :
    Refused router s' call.source call.keySequence call.counter := by
  cases he with
  | @known i e e' hi hfor hdom hcounter =>
    refine .floor (List.mem_set (List.getElem?_eq_some_iff.mp hi).1 _) (by rw [hdom, hfor]) ?_
    rw [hcounter]
    exact (le_max_counter _ _).2
  | appended hnew hopen hroom =>
    exact .floor (List.mem_append_right _ (List.mem_singleton.mpr rfl)) rfl (UInt32.le_refl _)
  | reclaimed hrouter hnew hi hprev hne =>
    exact .floor (List.mem_set (List.getElem?_eq_some_iff.mp hi).1 _) rfl (UInt32.le_refl _)
  | evicted hrouter hnew hi hopen hvictim => exact .floor (List.mem_set hi _) rfl (UInt32.le_refl _)
  | replaced hrouter hnew hvictim hi =>
    exact .floor (List.mem_append_right _ (List.mem_singleton.mpr rfl)) rfl (UInt32.le_refl _)

theorem step_of_commitCall {call : CommitCall} (h : op.commitCall s = some call) :
    op.step router s = (s.commitCall router call).1 := by
  cases op with
  | commit source keySequence counter caller =>
    cases h
    rfl
  | commitFrameCounter source counter =>
    cases h
    rfl
  | restoreReplayCounter replay =>
    simp only [SecurityOp.commitCall] at h
    simp only [SecurityOp.step, restoreReplayCounter]
    cases hk : s.keyBySeq replay.keySequence with
    | none =>
      rw [hk] at h
      cases h
    | some key =>
      rw [hk] at h
      dsimp only at h ⊢
      split at h
      · cases h
      · rename_i hfp
        cases h
        rw [if_neg hfp]
        rfl
  | _ => cases h

end

/-! ## Runs -/

/-- The step keeps the key material in a slot and gives up no floor of the source under it by a rule that
    allows it. -/
def Retains (router : Bool) (source : IeeeAddress) (key : AesKey) (keySequence : UInt8) (s : NwkSecurity)
    (op : SecurityOp) : Prop :=
  op.forgets router s source keySequence = false ∧ (op.step router s).carries key = true

instance (router : Bool) (source : IeeeAddress) (key : AesKey) (keySequence : UInt8) (s : NwkSecurity)
    (op : SecurityOp) : Decidable (Retains router source key keySequence s op) :=
  inferInstanceAs (Decidable (_ ∧ _))

/-- **A committed counter stays refused** under its key material, whatever number a frame names, in every build
    and for every caller, as long as the material stays in a slot, its floor is not given up by a rule that
    allows it, the key of slot 1 is not delivered once more to a router that has sealed it, and the material
    is installed under one number only. -/
theorem committed_counter_stays_refused (router : Bool) (before after : List SecurityOp) (op : SecurityOp)
    (call : CommitCall) (key : AesKey) (hcall : op.commitCall (reached router before) = some call)
    (hok : ((reached router before).commitCall router call).2 = true)
    (hkey : (reached router before).installed key call.keySequence = true)
    (honly : (reached router before).onlyUnder key call.keySequence = true)
    (hrun : Along (SecurityOp.step router) (Retains router call.source key call.keySequence)
      (reached router (before ++ [op])) after)
    (hredeliver : Along (SecurityOp.step router)
      (fun s op => op.reopens s = false ∧ op.renumbers s key call.keySequence = false)
      (reached router (before ++ [op])) after)
    (keySequence : UInt8) (hframe : (reached router (before ++ [op] ++ after)).installed key keySequence = true)
    (counter : UInt32) (hle : counter ≤ call.counter) (caller : Caller) :
    (reached router (before ++ [op] ++ after)).admission router call.source keySequence counter caller ≠
      .fresh := by
  have hw := reached_wellFormed router before
  have hstep : reached router (before ++ [op]) = ((reached router before).commitCall router call).1 := by
    rw [NwkSecurity.reached, run_append]
    exact step_of_commitCall hcall
  have he := commit_effect hw.floors.capacity call
  rw [hok, ← hstep] at he
  have hslots : (reached router (before ++ [op])).installed key call.keySequence = true ∧
      (reached router (before ++ [op])).onlyUnder key call.keySequence = true := by
    obtain ⟨h0, h1, -⟩ := he.keys
    rw [NwkSecurity.installed, keyBySeq, onlyUnder, h0, h1]
    exact ⟨hkey, honly⟩
  rw [NwkSecurity.reached, run_append] at hframe ⊢
  have hinv : ∀ s op, (WellFormed router s ∧ (s.installed key call.keySequence = true ∧
        s.onlyUnder key call.keySequence = true) ∧ Refused router s call.source call.keySequence call.counter) →
      (Retains router call.source key call.keySequence s op ∧
        op.reopens s = false ∧ op.renumbers s key call.keySequence = false) →
      WellFormed router (op.step router s) ∧ ((op.step router s).installed key call.keySequence = true ∧
        (op.step router s).onlyUnder key call.keySequence = true) ∧
        Refused router (op.step router s) call.source call.keySequence call.counter := by
    rintro s op ⟨hws, ⟨hi, ho⟩, hr⟩ ⟨⟨hforget, hcarries⟩, hreopen, hnumber⟩
    have hc : Change router op s (op.step router s) := step_change hws.slots.empty op
    have hws' := hws.step op
    have ho' := change_onlyUnder hws hc ho hnumber
    have hi' := installed_of_carries hws' ho' hcarries
    exact ⟨hws', ⟨hi', ho'⟩, hr.change hws hc hi hi' hforget hreopen⟩
  obtain ⟨hws, ⟨-, ho⟩, hr⟩ := run_induct hinv ⟨reached_wellFormed router _, hslots, he.refused_after⟩
    (along_and.mpr ⟨hrun, hredeliver⟩)
  -- the frame names the number under which the counter was committed
  obtain ⟨e, hslot, hmaterial, rfl⟩ := (installed_iff hws).mp hframe
  rw [onlyUnder_iff.mp ho e hslot hmaterial]
  exact hr.not_fresh hws hle caller

namespace Rotation

def first : AesKey := .replicate 16 1

def second : AesKey := .replicate 16 2

def device (n : Nat) : IeeeAddress := ⟨#[0, 0, 0, 0, 0, 0, 0, UInt8.ofNat n], rfl⟩

/-- The commit that is replayed. -/
def call : CommitCall := ⟨device 0, 1, 100, .conservative⟩

/-- The network moves to the second key, its other devices fill the table, and the first key is set again. -/
def rotation : List SecurityOp :=
  [.setNetworkKey second 2] ++
    (List.range 64).map (fun n => .commit (device (n + 1)) 2 1 .conservative) ++ [.setNetworkKey first 1]

end Rotation

open Rotation

/-- The counter of a device is still refused under the first key after the network moved to the second. -/
theorem previous_counter_refused :
    (reached true ([.setNetworkKey first 1] ++ [.commit (device 0) 1 100 .conservative] ++
      [.setNetworkKey second 2])).admission true (device 0) 1 100 .conservative ≠ .fresh :=
  committed_counter_stays_refused true [.setNetworkKey first 1] [.setNetworkKey second 2]
    (.commit (device 0) 1 100 .conservative) call first rfl (by decide) (by decide)
    (by decide) (by decide) (by decide) 1 (by decide) 100 (by decide) .conservative

/-- **A rotation back to the previous key admits a counter once more** that was committed under it: the
    swap lifts the seal of the key that had given up the floor. -/
theorem replay_admitted_after_rotation :
    (reached true [.setNetworkKey first 1]).installed first 1 = true ∧
    ((reached true [.setNetworkKey first 1]).commitCall true call).2 = true ∧
    Along (SecurityOp.step true) (Retains true (device 0) first 1)
      (reached true ([.setNetworkKey first 1] ++ [.commit (device 0) 1 100 .conservative]))
      Rotation.rotation ∧
    (reached true ([.setNetworkKey first 1] ++ [.commit (device 0) 1 100 .conservative] ++
      Rotation.rotation)).admission true (device 0) 1 100 .conservative = .fresh := by
  decide +kernel

-- The same key under another number, where it has no floors.
example :
    (reached true ([.setNetworkKey first 1] ++ [.commit (device 0) 1 100 .conservative] ++
      [.setNetworkKey first 2])).installed first 2 = true ∧
    (reached true ([.setNetworkKey first 1] ++ [.commit (device 0) 1 100 .conservative] ++
      [.setNetworkKey first 2])).admission true (device 0) 2 50 .conservative = .fresh := by
  decide +kernel

end Zigbee.Nwk
