import Zigbee.Lib.Run
import Zigbee.Lib.Table
import Zigbee.Nwk.Security

/-!
# What a security operation can do, and the key-slot invariant

`step_change` says once what every operation of `NwkSecurity` does to the key slots, and
`commit_effect` what a commit does to the table of floors.  Everything about runs is derived from
these two.

* `WellFormed` — the invariant of the key slots and the table: two different sequence numbers, only the
  first slot active, a staged number that names slot 1 and is newer, one floor per (source, key
  sequence) and no more floors than the table holds.
* `key_slots_well_formed` — every reachable context is well formed, and activation never promotes a
  retained previous key.
-/

namespace Zigbee.Nwk

open NwkSecurity

/-! ## Commits -/

/-- A call of the build's commit. -/
structure CommitCall where
  source : IeeeAddress
  keySequence : UInt8
  counter : UInt32
  caller : Caller

def CommitCall.entry (call : CommitCall) : FrameCounterEntry :=
  ⟨call.source, call.keySequence, call.counter, 0⟩

def NwkSecurity.commitCall (router : Bool) (s : NwkSecurity) (call : CommitCall) : NwkSecurity × Bool :=
  s.commit router call.source call.keySequence call.counter call.caller

/-- The commit an operation makes, if any. -/
def SecurityOp.commitCall (s : NwkSecurity) : SecurityOp → Option CommitCall
  | .commit source keySequence counter caller => some ⟨source, keySequence, counter, caller⟩
  | .commitFrameCounter source counter => some ⟨source, s.activeSequence, counter, .conservative⟩
  | .restoreReplayCounter replay =>
    match s.keyBySeq replay.keySequence with
    | none => none
    | some key =>
      if keyFingerprint key.key ≠ replay.keyFingerprint then none
      else some ⟨replay.source, replay.keySequence, replay.counter, .conservative⟩
  | _ => none

/-- No floor is recorded for the domain of a call. -/
def NwkSecurity.Unknown (s : NwkSecurity) (call : CommitCall) : Prop :=
  ∀ e ∈ s.frameCounterTable, e.domain ≠ (call.source, call.keySequence)

/-- The floor that a commit gives up by the stale-eviction rule of a router or the parent rule of an end
    device. -/
def NwkSecurity.victim (router : Bool) (s : NwkSecurity) (call : CommitCall) : Option Nat :=
  if s.hasFrameCounterForKey call.source call.keySequence ||
      s.frameCounterTable.length < MAX_FRAME_COUNTER_ENTRIES router then none
  else if router then
    match s.reclaimableKeySequence call.keySequence with
    | none => none
    | some reclaimFrom =>
      if (s.previousVictim reclaimFrom).isSome then none else s.staleVictim call.caller.protect
  else if s.leafAdmitsNewDomain call.source call.keySequence call.caller.parent then
    s.parentVictim call.source
  else none

/-- Everything a commit can do to the context, and what it returns. -/
inductive CommitEffect (router : Bool) (s : NwkSecurity) (call : CommitCall) : NwkSecurity → Bool → Prop
  | known {i : Nat} {e e' : FrameCounterEntry} (hi : s.frameCounterTable[i]? = some e)
      (hfor : e.domain = (call.source, call.keySequence)) (hdom : e'.domain = e.domain)
      (hcounter : e'.counter = max e.counter call.counter) :
      CommitEffect router s call { s with frameCounterTable := s.frameCounterTable.set i e' } true
  | refused (hnew : s.Unknown call) : CommitEffect router s call s false
  | appended (hnew : s.Unknown call)
      (hopen : router = true → ¬ (s.previousSequence = some call.keySequence ∧ s.previousKeyReplaySealed = true))
      (hroom : s.frameCounterTable.length < MAX_FRAME_COUNTER_ENTRIES router) :
      CommitEffect router s call { s with frameCounterTable := s.frameCounterTable ++ [call.entry] } true
  | reclaimed {i : Nat} {e : FrameCounterEntry} (hrouter : router = true) (hnew : s.Unknown call)
      (hi : s.frameCounterTable[i]? = some e) (hprev : s.previousSequence = some e.keySequence)
      (hne : call.keySequence ≠ e.keySequence) :
      CommitEffect router s call
        { s with frameCounterTable := s.frameCounterTable.set i call.entry, previousKeyReplaySealed := true } true
  | evicted {i : Nat} (hrouter : router = true) (hnew : s.Unknown call) (hi : i < s.frameCounterTable.length)
      (hopen : ¬ (s.previousSequence = some call.keySequence ∧ s.previousKeyReplaySealed = true))
      (hvictim : s.victim router call = some i) :
      CommitEffect router s call { s with frameCounterTable := s.frameCounterTable.set i call.entry } true
  | replaced {i : Nat} (hrouter : router = false) (hnew : s.Unknown call)
      (hvictim : s.victim router call = some i) (hi : i < s.frameCounterTable.length) :
      CommitEffect router s call
        { s with frameCounterTable := s.frameCounterTable.eraseIdx i ++ [call.entry] } true

theorem FrameCounterEntry.isFor_iff (e : FrameCounterEntry) (source : IeeeAddress) (keySequence : UInt8) :
    e.isFor source keySequence = true ↔ e.domain = (source, keySequence) := by
  simp [FrameCounterEntry.isFor, FrameCounterEntry.domain]

section

variable {router : Bool} {s : NwkSecurity} {call : CommitCall}

theorem unknown_of_findIdx? (h : s.frameCounterTable.findIdx? (·.isFor call.source call.keySequence) = none) :
    s.Unknown call := by
  intro e he hd
  have := List.findIdx?_eq_none_iff.mp h e he
  rw [(e.isFor_iff _ _).mpr hd] at this
  cases this

theorem hasFrameCounterForKey_eq_false (h : s.Unknown call) :
    s.hasFrameCounterForKey call.source call.keySequence = false := by
  rw [Bool.eq_false_iff]
  intro hany
  obtain ⟨e, he, hfor⟩ := List.any_eq_true.mp hany
  exact h e he ((e.isFor_iff _ _).mp hfor)

theorem reclaimable_open {reclaimFrom : Option UInt8}
    (h : s.reclaimableKeySequence call.keySequence = some reclaimFrom) :
    ¬ (s.previousSequence = some call.keySequence ∧ s.previousKeyReplaySealed = true) := by
  rintro ⟨hprev, hsealed⟩
  simp [reclaimableKeySequence, hprev, hsealed] at h

theorem staleVictim_lt {protect : IeeeAddress → Bool} {i : Nat} (h : s.staleVictim protect = some i) :
    i < s.frameCounterTable.length := by
  obtain ⟨p, hp, rfl⟩ := Option.map_eq_some_iff.mp h
  obtain ⟨hmem, -⟩ := List.mem_filter.mp (maxByKey_mem hp)
  exact List.snd_lt_of_mem_zipIdx hmem

theorem known_effect {i : Nat} {f : FrameCounterEntry → FrameCounterEntry}
    (hf : ∀ e, (f e).domain = e.domain ∧ (f e).counter = max e.counter call.counter)
    (h : s.frameCounterTable.findIdx? (·.isFor call.source call.keySequence) = some i) :
    CommitEffect router s call { s with frameCounterTable := s.frameCounterTable.modify i f } true := by
  obtain ⟨e, hi, hfor⟩ := Table.getElem?_of_findIdx? h
  rw [Table.modify_eq_set hi]
  exact .known hi ((e.isFor_iff _ _).mp hfor) (hf e).1 (hf e).2

theorem protecting_effect (call : CommitCall) :
    CommitEffect true s call
      (s.commitFrameCounterForKeyProtecting call.source call.keySequence call.counter call.caller.protect).1
      (s.commitFrameCounterForKeyProtecting call.source call.keySequence call.counter call.caller.protect).2 := by
  unfold commitFrameCounterForKeyProtecting
  cases hidx : s.frameCounterTable.findIdx? (·.isFor call.source call.keySequence) with
  | some i => exact known_effect (fun e => ⟨rfl, rfl⟩) hidx
  | none =>
    have hnew := unknown_of_findIdx? hidx
    dsimp only
    cases hr : s.reclaimableKeySequence call.keySequence with
    | none => exact .refused hnew
    | some reclaimFrom =>
      have hopen := reclaimable_open hr
      dsimp only
      by_cases hroom : s.frameCounterTable.length < MAX_FRAME_COUNTER_ENTRIES true
      · rw [if_pos hroom]
        exact .appended hnew (fun _ => hopen) hroom
      · rw [if_neg hroom]
        cases hp : s.previousVictim reclaimFrom with
        | some i =>
          cases hprev : s.previousSequence with
          | none =>
            simp only [reclaimableKeySequence, hprev, reduceCtorEq, if_false, Option.some.injEq] at hr
            simp [previousVictim, ← hr] at hp
          | some p =>
            by_cases hpe : p = call.keySequence
            · subst hpe
              simp only [reclaimableKeySequence, hprev, if_true] at hr
              split at hr
              · cases hr
              · cases hr
                simp [previousVictim] at hp
            · simp only [reclaimableKeySequence, hprev, Option.some.injEq, hpe, if_false] at hr
              subst hr
              obtain ⟨e, hi, hseq⟩ := Table.getElem?_of_findIdx? hp
              have hseq' : e.keySequence = p := by simpa using hseq
              exact .reclaimed rfl hnew hi (by rw [hprev, hseq']) (by rw [hseq']; exact Ne.symm hpe)
        | none =>
          have hvictim : s.victim true call = s.staleVictim call.caller.protect := by
            simp only [victim, hasFrameCounterForKey_eq_false hnew, Bool.false_or, hroom, decide_false,
              Bool.false_eq_true, if_false, if_true, hr, hp, Option.isSome_none]
          cases hst : s.staleVictim call.caller.protect with
          | some i => exact .evicted rfl hnew (staleVictim_lt hst) hopen (by rw [hvictim, hst])
          | none => exact .refused hnew

/-- A full end-device table admits only the parent, over a floor of another source. -/
theorem parentVictim_of_full (hfull : ¬ s.frameCounterTable.length < MAX_FRAME_COUNTER_ENTRIES false)
    {source : IeeeAddress} {keySequence : UInt8} {parent : Option IeeeAddress}
    (h : s.leafAdmitsNewDomain source keySequence parent = true) :
    ∃ i, s.parentVictim source = some i ∧ i < s.frameCounterTable.length := by
  have hfree : MAX_FRAME_COUNTER_ENTRIES false - s.frameCounterTable.length = 0 := by omega
  unfold leafAdmitsNewDomain at h
  rw [hfree] at h
  cases parent with
  | none => simp at h
  | some parent =>
    by_cases hp : parent = source
    · subst hp
      simp only [if_true, Nat.lt_irrefl, decide_false, Bool.false_or] at h
      cases hv : s.parentVictim parent with
      | some i => exact ⟨i, rfl, (List.findIdx?_eq_some_iff_getElem.mp hv).1⟩
      | none =>
        obtain ⟨e, he, hne⟩ := List.any_eq_true.mp h
        rw [List.findIdx?_eq_none_iff.mp hv e he] at hne
        cases hne
    · simp [hp] at h

theorem withParent_effect (hcap : s.frameCounterTable.length ≤ MAX_FRAME_COUNTER_ENTRIES false)
    (call : CommitCall) :
    CommitEffect false s call
      (s.commitFrameCounterForKeyWithParent call.source call.keySequence call.counter call.caller.parent).1
      (s.commitFrameCounterForKeyWithParent call.source call.keySequence call.counter call.caller.parent).2 := by
  unfold commitFrameCounterForKeyWithParent
  cases hidx : s.frameCounterTable.findIdx? (·.isFor call.source call.keySequence) with
  | some i => exact known_effect (fun e => ⟨rfl, rfl⟩) hidx
  | none =>
    have hnew := unknown_of_findIdx? hidx
    dsimp only
    cases had : s.leafAdmitsNewDomain call.source call.keySequence call.caller.parent with
    | false => exact .refused hnew
    | true =>
      simp only [Bool.not_true, Bool.false_eq_true, if_false]
      by_cases hroom : s.frameCounterTable.length < MAX_FRAME_COUNTER_ENTRIES false
      · simp only [if_pos hroom]
        exact .appended hnew (by simp) hroom
      · obtain ⟨i, hv, hi⟩ := parentVictim_of_full hroom had
        have hlen : (s.frameCounterTable.eraseIdx i).length < MAX_FRAME_COUNTER_ENTRIES false := by
          rw [List.length_eraseIdx_of_lt hi]
          omega
        simp only [if_neg hroom, hv, if_pos hlen]
        refine .replaced rfl hnew ?_ hi
        simp only [victim, hasFrameCounterForKey_eq_false hnew, Bool.false_or, hroom, decide_false,
          Bool.false_eq_true, if_false, had, if_true, hv]

/-- **Every commit has one of the effects.** -/
theorem commit_effect (hcap : s.frameCounterTable.length ≤ MAX_FRAME_COUNTER_ENTRIES router)
    (call : CommitCall) :
    CommitEffect router s call (s.commitCall router call).1 (s.commitCall router call).2 := by
  cases router with
  | true => exact protecting_effect call
  | false => exact withParent_effect hcap call

end

/-! ## Key operations -/

/-- The key that an operation puts into a slot, and its sequence number. -/
def SecurityOp.delivers (s : NwkSecurity) : SecurityOp → Option (AesKey × UInt8)
  | .setNetworkKey key seqNumber => some (key, seqNumber)
  | .stageNetworkKey key seqNumber =>
    if s.keys0.all fun active => keySequenceIsNewer seqNumber active.seqNumber then some (key, seqNumber) else none
  | .restorePreviousNetworkKey key seqNumber =>
    if s.keys0.any fun active => active.seqNumber != seqNumber then some (key, seqNumber) else none
  | _ => none

/-- Everything an operation can do to the context. -/
inductive Change (router : Bool) (op : SecurityOp) (s : NwkSecurity) : NwkSecurity → Prop
  | same : Change router op s s
  | cleared : Change router op s s.clearNetworkKeys
  | rekeyed {a : NetworkKeyEntry} {key : AesKey} (h0 : s.keys0 = some a)
      (hop : op.delivers s = some (key, a.seqNumber)) : Change router op s (s.replaceActiveKey a key)
  | swapped (hwhy : (∃ key seqNumber, op = .setNetworkKey key seqNumber ∧ s.secondaryIs key seqNumber = true) ∨
      (∃ seqNumber, s.stagedKeySequence = some seqNumber)) : Change router op s s.swapKeys
  | installed {key : AesKey} {seqNumber : UInt8} (h0 : ∀ a, s.keys0 = some a → a.seqNumber ≠ seqNumber)
      (h1 : s.secondaryIs key seqNumber = false) (hop : op.delivers s = some (key, seqNumber)) :
      Change router op s (s.installNetworkKey key seqNumber)
  | staged {key : AesKey} {seqNumber : UInt8} {a : NetworkKeyEntry} (hop : op = .stageNetworkKey key seqNumber)
      (h0 : s.keys0 = some a) (h1 : s.secondaryIs key seqNumber = true)
      (hnewer : keySequenceIsNewer seqNumber a.seqNumber = true) :
      Change router op s { s with stagedKeySequence := some seqNumber }
  | secondary {key : AesKey} {seqNumber : UInt8} {stagedKey : Option UInt8} {a : NetworkKeyEntry}
      (h0 : s.keys0 = some a) (hne : a.seqNumber ≠ seqNumber)
      (hstaged : stagedKey = none ∨ (stagedKey = some seqNumber ∧ keySequenceIsNewer seqNumber a.seqNumber = true))
      (h1 : s.secondaryIs key seqNumber = true → op = .restorePreviousNetworkKey key seqNumber)
      (hop : op.delivers s = some (key, seqNumber)) :
      Change router op s (s.setSecondary key seqNumber stagedKey)
  | flagged : Change router op s
      { s with keys0 := s.keys0.map (·.setActive true), keys1 := s.keys1.map (·.setActive false) }
  | retired (hstaged : s.stagedKeySequence = none) :
      Change router op s (retainFrameCountersForInstalledKeys { s with keys1 := none })
  | forgotten {source : IeeeAddress} (hop : op = .clearFrameCountersForSource source) :
      Change router op s (s.clearFrameCountersForSource source)
  | timeout (secs : UInt16) : Change router op s (s.setReplayStaleTimeoutSecs secs)
  | aged (elapsedSecs : UInt16) : Change router op s (s.ageReplayFloors elapsedSecs)
  | committed (call : CommitCall) (hcall : op.commitCall s = some call) :
      Change router op s (s.commitCall router call).1

variable {op : SecurityOp} {seqNumber : UInt8}

section

variable {router : Bool} {s : NwkSecurity}

theorem setNetworkKey_change {key : AesKey}
    (hop : s.secondaryIs key seqNumber = true → s.keys0.isSome = true → op = .setNetworkKey key seqNumber)
    (hdel : op.delivers s = some (key, seqNumber)) (hnone : s.keys0 = none → s.keys1 = none) :
    Change router op s (s.setNetworkKey key seqNumber) := by
  unfold setNetworkKey
  cases h0 : s.keys0.filter (·.seqNumber == seqNumber) with
  | some a =>
    obtain ⟨h0, hseq⟩ := Option.filter_eq_some_iff.mp h0
    exact .rekeyed h0 (by rw [hdel, beq_iff_eq.mp hseq])
  | none =>
    dsimp only
    have hne : ∀ a, s.keys0 = some a → a.seqNumber ≠ seqNumber := by
      intro a ha heq
      have := Option.filter_eq_none_iff.mp h0 a ha
      simp [heq] at this
    split
    · rename_i hsec
      refine .swapped (Or.inl ⟨key, seqNumber, hop hsec ?_, hsec⟩)
      by_contra hno
      have hk0 : s.keys0 = none := by simpa using hno
      simp [secondaryIs, hnone hk0] at hsec
    · rename_i hsec
      exact .installed hne (by simpa using hsec) hdel

theorem activateNetworkKey_change (seqNumber : UInt8) : Change router op s (s.activateNetworkKey seqNumber).1 := by
  unfold activateNetworkKey
  split
  · exact .flagged
  · split
    · exact .same
    · rename_i hst
      split
      · push Not at hst
        exact .swapped (Or.inr ⟨seqNumber, hst.1⟩)
      · exact .same

/-- **Every operation makes one of the changes.** -/
theorem step_change (hnone : s.keys0 = none → s.keys1 = none) (op : SecurityOp) :
    Change router op s (op.step router s) := by
  cases op with
  | clearNetworkKeys => exact .cleared
  | setNetworkKey key seqNumber => exact setNetworkKey_change (fun _ _ => rfl) rfl hnone
  | stageNetworkKey key seqNumber =>
    simp only [SecurityOp.step, stageNetworkKey]
    cases h0 : s.keys0 with
    | none => exact setNetworkKey_change (by simp [h0]) (by simp [SecurityOp.delivers, h0]) hnone
    | some a =>
      dsimp only
      split
      · exact .same
      · rename_i hne
        split
        · rename_i hsec
          split
          · rename_i hnewer
            rw [← h0]
            exact .staged rfl h0 hsec hnewer
          · exact .same
        · rename_i hsec
          split
          · exact .same
          · rename_i hnewer
            exact .secondary h0 hne (Or.inr ⟨rfl, by simpa using hnewer⟩) (fun h => absurd h hsec)
              (by simpa [SecurityOp.delivers, h0] using hnewer)
  | restorePreviousNetworkKey key seqNumber =>
    simp only [SecurityOp.step, restorePreviousNetworkKey]
    cases h0 : s.keys0 with
    | none => exact .same
    | some a =>
      dsimp only
      split
      · exact .same
      · rename_i hne
        exact .secondary h0 hne (Or.inl rfl) (fun _ => rfl) (by simp [SecurityOp.delivers, h0, hne])
  | activateNetworkKey seqNumber => exact activateNetworkKey_change seqNumber
  | activateReceivedKey seqNumber =>
    simp only [SecurityOp.step, activateReceivedKey]
    split
    · exact activateNetworkKey_change seqNumber
    · exact .same
  | retirePreviousNetworkKey =>
    simp only [SecurityOp.step, retirePreviousNetworkKey]
    split
    · exact .same
    · rename_i hst
      cases h1 : s.keys1 with
      | none => exact .same
      | some b => exact .retired (by simpa using hst)
  | clearFrameCountersForSource source => exact .forgotten rfl
  | setReplayStaleTimeoutSecs secs => exact .timeout secs
  | ageReplayFloors elapsedSecs => exact .aged elapsedSecs
  | commit source keySequence counter caller =>
    exact .committed ⟨source, keySequence, counter, caller⟩ rfl
  | commitFrameCounter source counter =>
    exact .committed ⟨source, s.activeSequence, counter, .conservative⟩ rfl
  | restoreReplayCounter replay =>
    simp only [SecurityOp.step, restoreReplayCounter]
    cases hk : s.keyBySeq replay.keySequence with
    | none => exact .same
    | some key =>
      dsimp only
      split
      · exact .same
      · rename_i hfp
        exact .committed ⟨replay.source, replay.keySequence, replay.counter, .conservative⟩
          (by simp only [SecurityOp.commitCall, hk, if_neg hfp])

end

/-! ## The invariant -/

/-- Serial-number order modulo 256: less than half the circle ahead. -/
def SerialNewer (candidate active : UInt8) : Prop :=
  ∃ d, 0 < d ∧ d < 128 ∧ candidate.toNat = (active.toNat + d) % 256

theorem keySequenceIsNewer_iff (candidate active : UInt8) :
    keySequenceIsNewer candidate active = true ↔ SerialNewer candidate active := by
  have hc := candidate.toNat_lt
  have ha := active.toNat_lt
  have hsub : (candidate - active).toNat = (256 - active.toNat + candidate.toNat) % 256 :=
    UInt8.toNat_sub candidate active
  have hne : candidate - active ≠ 0 ↔ (candidate - active).toNat ≠ 0 := by
    rw [Ne, ← UInt8.toNat_inj]
    rfl
  simp only [keySequenceIsNewer, Bool.and_eq_true, bne_iff_ne, decide_eq_true_eq, UInt8.lt_iff_toNat_lt, hne, hsub]
  constructor
  · rintro ⟨hpos, hlt⟩
    refine ⟨(256 - active.toNat + candidate.toNat) % 256, by omega, hlt, by omega⟩
  · rintro ⟨d, hpos, hlt, heq⟩
    have : (256 - active.toNat + candidate.toNat) % 256 = d := by omega
    rw [this]
    exact ⟨by omega, hlt⟩

/-- The invariant of the two key slots and the staged sequence number. -/
structure SlotsWellFormed (keys0 keys1 : Option NetworkKeyEntry) (staged : Option UInt8) : Prop where
  distinct : ∀ a b, keys0 = some a → keys1 = some b → a.seqNumber ≠ b.seqNumber
  first : ∀ a, keys0 = some a → a.active = true
  second : ∀ b, keys1 = some b → b.active = false
  empty : keys0 = none → keys1 = none
  staged : ∀ seqNumber, staged = some seqNumber →
    ∃ a b, keys0 = some a ∧ keys1 = some b ∧ b.seqNumber = seqNumber ∧ SerialNewer seqNumber a.seqNumber

/-- The invariant of the table of floors. -/
structure FloorsWellFormed (router : Bool) (table : List FrameCounterEntry) : Prop where
  nodup : (table.map (·.domain)).Nodup
  capacity : table.length ≤ MAX_FRAME_COUNTER_ENTRIES router

structure WellFormed (router : Bool) (s : NwkSecurity) : Prop where
  slots : SlotsWellFormed s.keys0 s.keys1 s.stagedKeySequence
  floors : FloorsWellFormed router s.frameCounterTable

theorem new_wellFormed (router : Bool) : WellFormed router NwkSecurity.new :=
  ⟨⟨nofun, nofun, nofun, fun _ => rfl, nofun⟩, ⟨List.nodup_nil, Nat.zero_le _⟩⟩

variable {s s' : NwkSecurity}

namespace FloorsWellFormed

variable {router : Bool} {table table' : List FrameCounterEntry}

/-- Dropping floors, or changing a floor without changing its domain, keeps the table well formed. -/
theorem of_sublist (h : FloorsWellFormed router table)
    (hsub : (table'.map (·.domain)).Sublist (table.map (·.domain))) : FloorsWellFormed router table' := by
  refine ⟨h.nodup.sublist hsub, ?_⟩
  have hlen := hsub.length_le
  rw [List.length_map, List.length_map] at hlen
  exact hlen.trans h.capacity

theorem filter (h : FloorsWellFormed router table) (p : FrameCounterEntry → Bool) :
    FloorsWellFormed router (table.filter p) :=
  h.of_sublist (List.filter_sublist.map _)

theorem commit {call : CommitCall} {ok : Bool} (he : CommitEffect router s call s' ok)
    (h : FloorsWellFormed router s.frameCounterTable) : FloorsWellFormed router s'.frameCounterTable := by
  have hset : ∀ i, s.Unknown call → FloorsWellFormed router (s.frameCounterTable.set i call.entry) := by
    intro i hnew
    exact ⟨Table.nodup_set_new h.nodup hnew, by rw [List.length_set]; exact h.capacity⟩
  cases he with
  | known hi hfor hdom hcounter =>
    refine h.of_sublist ?_
    rw [Table.map_set_same hi hdom]
  | refused hnew => exact h
  | appended hnew hopen hroom =>
    refine ⟨Table.nodup_append_new h.nodup hnew, ?_⟩
    rw [List.length_append]
    exact hroom
  | reclaimed hrouter hnew hi hprev hne => exact hset _ hnew
  | evicted hrouter hnew hi hopen hvictim => exact hset _ hnew
  | replaced hrouter hnew hvictim hi =>
    refine ⟨Table.nodup_append_new (Table.nodup_eraseIdx h.nodup) ?_, ?_⟩
    · intro e he
      exact hnew e (List.mem_of_mem_eraseIdx he)
    · rw [List.length_append, List.length_eraseIdx_of_lt hi, List.length_singleton, Nat.sub_add_cancel (by omega)]
      exact h.capacity

end FloorsWellFormed

variable {router : Bool}

theorem CommitEffect.keys {call : CommitCall} {ok : Bool} (h : CommitEffect router s call s' ok) :
    s'.keys0 = s.keys0 ∧ s'.keys1 = s.keys1 ∧ s'.stagedKeySequence = s.stagedKeySequence := by
  cases h <;> exact ⟨rfl, rfl, rfl⟩

/-- The key an identical delivery finds in slot 1. -/
theorem secondaryIs_iff {key : AesKey} :
    s.secondaryIs key seqNumber = true ↔ ∃ b, s.keys1 = some b ∧ b.seqNumber = seqNumber ∧ b.key = key := by
  simp [secondaryIs, Option.any_eq_true]

variable {b : NetworkKeyEntry}

namespace SlotsWellFormed

variable {s : NwkSecurity}

theorem swapped (h : SlotsWellFormed s.keys0 s.keys1 s.stagedKeySequence) (h1 : s.keys1 = some b) :
    SlotsWellFormed s.swapKeys.keys0 s.swapKeys.keys1 s.swapKeys.stagedKeySequence := by
  simp only [swapKeys, unsealPreviousKey, h1, Option.map_some]
  refine ⟨?_, ?_, ?_, nofun, nofun⟩
  · intro x y hx hy
    obtain ⟨a, ha, rfl⟩ := Option.map_eq_some_iff.mp hy
    cases hx
    exact (h.distinct a b ha h1).symm
  · intro x hx
    cases hx
    rfl
  · intro y hy
    obtain ⟨a, ha, rfl⟩ := Option.map_eq_some_iff.mp hy
    rfl

/-- A new key in slot 0 over what was active. -/
theorem installed (s : NwkSecurity) (key : AesKey) (seqNumber : UInt8) :
    SlotsWellFormed (s.installNetworkKey key seqNumber).keys0 (s.installNetworkKey key seqNumber).keys1
      (s.installNetworkKey key seqNumber).stagedKeySequence := by
  simp only [installNetworkKey, retainFrameCountersForInstalledKeys, unsealPreviousKey, clearFrameCountersForKey]
  refine ⟨?_, ?_, ?_, nofun, nofun⟩
  · intro x y hx hy
    cases hx
    obtain ⟨-, hne⟩ := Option.filter_eq_some_iff.mp hy
    exact (bne_iff_ne.mp hne).symm
  · intro x hx
    cases hx
    rfl
  · intro y hy
    obtain ⟨hy, -⟩ := Option.filter_eq_some_iff.mp hy
    obtain ⟨a, ha, rfl⟩ := Option.map_eq_some_iff.mp hy
    rfl

theorem secondary (h : SlotsWellFormed s.keys0 s.keys1 s.stagedKeySequence) {key : AesKey} {seqNumber : UInt8}
    {stagedKey : Option UInt8} {a : NetworkKeyEntry} (h0 : s.keys0 = some a) (hne : a.seqNumber ≠ seqNumber)
    (hstaged : stagedKey = none ∨ (stagedKey = some seqNumber ∧ keySequenceIsNewer seqNumber a.seqNumber = true)) :
    SlotsWellFormed s.keys0 (some ⟨key, seqNumber, false⟩) stagedKey := by
  refine ⟨?_, h.first, ?_, ?_, ?_⟩
  · intro x y hx hy
    cases hy
    rw [h0] at hx
    cases hx
    exact hne
  · intro y hy
    cases hy
    rfl
  · intro hnone
    rw [h0] at hnone
    cases hnone
  · intro q hq
    rcases hstaged with rfl | ⟨rfl, hnewer⟩
    · cases hq
    · cases hq
      exact ⟨a, _, h0, rfl, rfl, (keySequenceIsNewer_iff _ _).mp hnewer⟩

/-- A staged key is in slot 1. -/
theorem keys1_of_staged (h : SlotsWellFormed s.keys0 s.keys1 s.stagedKeySequence)
    (hst : s.stagedKeySequence = some seqNumber) : ∃ b, s.keys1 = some b ∧ b.seqNumber = seqNumber := by
  obtain ⟨-, b, -, h1, hseq, -⟩ := h.staged _ hst
  exact ⟨b, h1, hseq⟩

/-- The flags are where activation puts them. -/
theorem flags_eq (h : SlotsWellFormed s.keys0 s.keys1 s.stagedKeySequence) :
    s.keys0.map (·.setActive true) = s.keys0 ∧ s.keys1.map (·.setActive false) = s.keys1 := by
  constructor
  · cases h0 : s.keys0 with
    | none => rfl
    | some a =>
      obtain ⟨key, seqNumber, active⟩ := a
      cases h.first _ h0
      rfl
  · cases h1 : s.keys1 with
    | none => rfl
    | some b =>
      obtain ⟨key, seqNumber, active⟩ := b
      cases h.second _ h1
      rfl

end SlotsWellFormed

/-- **A step keeps the invariant.** -/
theorem WellFormed.change (h : WellFormed router s) (hc : Change router op s s') : WellFormed router s' := by
  cases hc with
  | same => exact h
  | cleared =>
    exact ⟨⟨nofun, nofun, nofun, fun _ => rfl, nofun⟩, ⟨List.nodup_nil, Nat.zero_le _⟩⟩
  | @rekeyed a key h0 =>
    have hslots : SlotsWellFormed (some { a with key := key, active := true }) s.keys1 none := by
      refine ⟨?_, ?_, h.slots.second, nofun, nofun⟩
      · intro x y hx hy
        cases hx
        exact h.slots.distinct a y h0 hy
      · intro x hx
        cases hx
        rfl
    unfold replaceActiveKey
    dsimp only
    split
    · exact ⟨hslots, h.floors.filter _⟩
    · exact ⟨hslots, h.floors⟩
  | swapped hwhy =>
    have h1 : ∃ b, s.keys1 = some b := by
      rcases hwhy with ⟨key, seqNumber, -, hsec⟩ | ⟨seqNumber, hst⟩
      · obtain ⟨b, h1, -⟩ := secondaryIs_iff.mp hsec
        exact ⟨b, h1⟩
      · obtain ⟨b, h1, -⟩ := h.slots.keys1_of_staged hst
        exact ⟨b, h1⟩
    obtain ⟨b, h1⟩ := h1
    exact ⟨h.slots.swapped h1, h.floors⟩
  | @installed key seqNumber h0 h1 =>
    exact ⟨SlotsWellFormed.installed s key seqNumber, (h.floors.filter _).filter _⟩
  | @staged key seqNumber a hop h0 h1 hnewer =>
    obtain ⟨b, hb, hseq, -⟩ := secondaryIs_iff.mp h1
    refine ⟨⟨h.slots.distinct, h.slots.first, h.slots.second, h.slots.empty, ?_⟩, h.floors⟩
    intro q hq
    cases hq
    exact ⟨a, b, h0, hb, hseq, (keySequenceIsNewer_iff _ _).mp hnewer⟩
  | secondary h0 hne hstaged h1 hop =>
    exact ⟨h.slots.secondary h0 hne hstaged, (h.floors.filter _).filter _⟩
  | flagged =>
    obtain ⟨h0, h1⟩ := h.slots.flags_eq
    rw [h0, h1]
    exact h
  | retired hstaged =>
    refine ⟨⟨nofun, h.slots.first, nofun, fun _ => rfl, ?_⟩, h.floors.filter _⟩
    intro q hq
    have hq : s.stagedKeySequence = some q := hq
    rw [hstaged] at hq
    cases hq
  | forgotten hop => exact ⟨h.slots, h.floors.filter _⟩
  | timeout secs => exact ⟨h.slots, h.floors⟩
  | aged elapsedSecs =>
    refine ⟨h.slots, h.floors.of_sublist ?_⟩
    rw [ageReplayFloors, List.map_map]
    exact List.Sublist.refl _
  | committed call hcall =>
    have he := commit_effect h.floors.capacity call
    obtain ⟨h0, h1, hst⟩ := he.keys
    refine ⟨?_, h.floors.commit he⟩
    rw [h0, h1, hst]
    exact h.slots

theorem WellFormed.step (h : WellFormed router s) (op : SecurityOp) : WellFormed router (op.step router s) :=
  h.change (step_change h.slots.empty op)

/-- Slot 1 holds a key that is kept after a switch, not one that waits for it. -/
def NwkSecurity.Retained (s : NwkSecurity) (b : NetworkKeyEntry) : Prop :=
  s.keys1 = some b ∧ s.stagedKeySequence ≠ some b.seqNumber

instance (s : NwkSecurity) (b : NetworkKeyEntry) : Decidable (s.Retained b) :=
  inferInstanceAs (Decidable (_ ∧ _))

/-- Activation moves no key while slot 1 holds a retained key. -/
theorem activateNetworkKey_retained (h : WellFormed router s) (hb : s.Retained b) (seqNumber : UInt8) :
    (s.activateNetworkKey seqNumber).1 = s ∧
      (seqNumber = b.seqNumber → (s.activateNetworkKey seqNumber).2 = false) := by
  have hfirst : seqNumber = b.seqNumber → s.keys0.any (·.seqNumber == seqNumber) = false := by
    rintro rfl
    cases h0 : s.keys0 with
    | none => rfl
    | some a => simpa using h.slots.distinct a b h0 hb.1
  have hst : s.stagedKeySequence ≠ some seqNumber := by
    intro hst
    obtain ⟨b', h1, hseq⟩ := h.slots.keys1_of_staged hst
    rw [hb.1] at h1
    cases h1
    exact hb.2 (by rw [hst, hseq])
  unfold activateNetworkKey
  by_cases hany : s.keys0.any (·.seqNumber == seqNumber) = true
  · rw [if_pos hany]
    obtain ⟨h0, h1⟩ := h.slots.flags_eq
    rw [h0, h1]
    refine ⟨rfl, fun heq => ?_⟩
    rw [hfirst heq] at hany
    cases hany
  · rw [if_neg hany, if_pos (Or.inl hst)]
    exact ⟨rfl, fun _ => rfl⟩

theorem activateReceivedKey_retained (h : WellFormed router s) (hb : s.Retained b) (seqNumber : UInt8) :
    (s.activateReceivedKey seqNumber).1 = s ∧
      (seqNumber = b.seqNumber → (s.activateReceivedKey seqNumber).2 = false) := by
  unfold activateReceivedKey
  split
  · exact activateNetworkKey_retained h hb seqNumber
  · exact ⟨rfl, fun _ => rfl⟩

/-- The context after a list of operations. -/
def NwkSecurity.reached (router : Bool) (ops : List SecurityOp) : NwkSecurity :=
  Run.run (SecurityOp.step router) NwkSecurity.new ops

theorem reached_wellFormed (router : Bool) (ops : List SecurityOp) :
    WellFormed router (NwkSecurity.reached router ops) :=
  Run.run_invariant (fun _ op hs => hs.step op) (new_wellFormed router) ops

/-- **The key slots and the table of floors are well formed after any operations**, and no activation
    makes a retained previous key active. -/
theorem key_slots_well_formed (router : Bool) (ops : List SecurityOp) :
    WellFormed router (reached router ops) ∧
    ∀ b, (reached router ops).Retained b → ∀ seqNumber,
      ((reached router ops).activateNetworkKey seqNumber).1 = reached router ops ∧
      ((reached router ops).activateReceivedKey seqNumber).1 = reached router ops ∧
      (seqNumber = b.seqNumber →
        ((reached router ops).activateNetworkKey seqNumber).2 = false ∧
        ((reached router ops).activateReceivedKey seqNumber).2 = false) := by
  have h := reached_wellFormed router ops
  refine ⟨h, fun b hb seqNumber => ?_⟩
  have hswitch := activateNetworkKey_retained h hb seqNumber
  have hreceived := activateReceivedKey_retained h hb seqNumber
  exact ⟨hswitch.1, hreceived.1, fun heq => ⟨hswitch.2 heq, hreceived.2 heq⟩⟩

/-- After a second key is set, the first is retained, and Switch-Key does not bring it back. -/
theorem switched_key_retained :
    ((reached true [.setNetworkKey (.replicate 16 0) 1, .setNetworkKey (.replicate 16 1) 2]).activateNetworkKey 1).2 =
      false :=
  (((key_slots_well_formed true [.setNetworkKey (.replicate 16 0) 1, .setNetworkKey (.replicate 16 1) 2]).2
    ⟨.replicate 16 0, 1, false⟩ (by decide) 1).2.2 rfl).1

end Zigbee.Nwk
