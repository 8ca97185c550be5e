import Zigbee.Nwk.ReplaySafety

/-!
# Admission and commit agree

The check before MIC verification and the commit after it read the same table.

* `commit_of_fresh` — what the check admits, the commit records.
* `keeps_protected`, `keeps_parent` — the floors that no commit gives up.
* `SecurityOp.redelivers` — the step that restores, as the previous key, the very key that slot 1 holds:
  it drops that key's floors and lifts its seal.
* `replay_admission_agrees` — all of it in every reachable context; a reclaimed source stays out while
  the previous key is retained and no step redelivers it.
-/

namespace Zigbee.Nwk

open NwkSecurity Run Rotation

/-- Some floor of the domain is at least as high. -/
def NwkSecurity.Covers (s : NwkSecurity) (e : FrameCounterEntry) : Prop :=
  ∃ e' ∈ s.frameCounterTable, e'.domain = e.domain ∧ e.counter ≤ e'.counter

/-- The floor's key is the active one or a staged one. -/
def NwkSecurity.InUse (s : NwkSecurity) (e : FrameCounterEntry) : Prop :=
  s.activeKey.map (·.seqNumber) = some e.keySequence ∨ s.stagedKeySequence = some e.keySequence

/-- The commit of another key gives up the floor of a source under the retained previous key. -/
structure Reclaims (s : NwkSecurity) (call : CommitCall) (s' : NwkSecurity) (previous : NetworkKeyEntry)
    (source : IeeeAddress) : Prop where
  retained : s.Retained previous
  other : call.keySequence ≠ previous.seqNumber
  held : ∃ e ∈ s.frameCounterTable, e.domain = (source, previous.seqNumber)
  gone : ∀ e ∈ s'.frameCounterTable, e.domain ≠ (source, previous.seqNumber)

/-- The step restores the key that slot 1 holds already. -/
def SecurityOp.redelivers (s : NwkSecurity) : SecurityOp → Bool
  | .restorePreviousNetworkKey key seqNumber => s.secondaryIs key seqNumber
  | _ => false

section

variable {router : Bool} {s s' : NwkSecurity} {call : CommitCall}

/-! ## What is admitted is recorded -/

theorem find?_none_of_unknown (h : s.Unknown call) :
    s.frameCounterTable.find? (·.isFor call.source call.keySequence) = none := by
  rw [List.find?_eq_none]
  intro e he hfor
  exact h e he ((e.isFor_iff _ _).mp hfor)

/-- A full router table from which the commit cannot take a floor offers the check nothing either. -/
theorem checkFrameCounterReserving_full (hnew : s.Unknown call)
    (hfull : ¬ s.frameCounterTable.length < MAX_FRAME_COUNTER_ENTRIES true) {reclaimFrom : Option UInt8}
    (hr : s.reclaimableKeySequence call.keySequence = some reclaimFrom) (hprev : s.previousVictim reclaimFrom = none)
    (hstale : s.staleVictim call.caller.protect = none) :
    s.checkFrameCounterReserving call.source call.keySequence call.counter call.caller.reserved call.caller.protect =
      .tableFull := by
  have hfree : MAX_FRAME_COUNTER_ENTRIES true - s.frameCounterTable.length = 0 := by omega
  have hnone : ∀ e ∈ s.frameCounterTable,
      (s.replayStaleSecs ≤ e.silentSecs && !call.caller.protect e.source) = false := by
    intro e he
    obtain ⟨i, hi⟩ := List.mem_iff_getElem?.mp he
    have hempty := maxByKey_eq_none.mp (Option.map_eq_none_iff.mp hstale)
    have := List.filter_eq_nil_iff.mp hempty (e, i) (List.mem_zipIdx_iff_getElem?.mpr hi)
    rwa [Bool.not_eq_true] at this
  have hcount : (s.frameCounterTable.filter fun e => some e.keySequence != reclaimFrom &&
      s.replayStaleSecs ≤ e.silentSecs && !call.caller.protect e.source) = [] := by
    refine List.filter_eq_nil_iff.mpr fun e he h => ?_
    rw [Bool.and_assoc, hnone e he, Bool.and_false] at h
    cases h
  cases reclaimFrom with
  | none =>
    simp only [checkFrameCounterReserving, find?_none_of_unknown hnew, hr, hfree, hcount, List.take_nil,
      List.length_nil, Nat.add_zero, Nat.not_lt_zero, if_false]
  | some previous =>
    have hreclaimable : s.frameCounterTable.countP (·.keySequence == previous) = 0 := by
      refine List.countP_eq_zero.mpr fun e he hkey => ?_
      rw [List.findIdx?_eq_none_iff.mp hprev e he] at hkey
      cases hkey
    simp only [checkFrameCounterReserving, find?_none_of_unknown hnew, hr, hreclaimable, hfree, hcount, List.take_nil,
      List.length_nil, Nat.add_zero, Nat.not_lt_zero, if_false]

/-- **What the check admits, the commit records.** -/
theorem commit_of_fresh (hcap : s.frameCounterTable.length ≤ MAX_FRAME_COUNTER_ENTRIES router)
    (hfresh : s.admission router call.source call.keySequence call.counter call.caller = .fresh) :
    (s.commitCall router call).2 = true := by
  cases router with
  | true =>
    simp only [commitCall, commit, if_true, commitFrameCounterForKeyProtecting]
    cases hidx : s.frameCounterTable.findIdx? (·.isFor call.source call.keySequence) with
    | some i => rfl
    | none =>
      have hnew := unknown_of_findIdx? hidx
      simp only [admission, if_true] at hfresh
      dsimp only
      cases hr : s.reclaimableKeySequence call.keySequence with
      | none => simp [checkFrameCounterReserving, find?_none_of_unknown hnew, hr] at hfresh
      | some reclaimFrom =>
        dsimp only
        by_cases hroom : s.frameCounterTable.length < MAX_FRAME_COUNTER_ENTRIES true
        · rw [if_pos hroom]
        · rw [if_neg hroom]
          cases hprev : s.previousVictim reclaimFrom with
          | some i => rfl
          | none =>
            cases hstale : s.staleVictim call.caller.protect with
            | some i => rfl
            | none =>
              rw [checkFrameCounterReserving_full hnew hroom hr hprev hstale] at hfresh
              cases hfresh
  | false =>
    simp only [commitCall, commit, Bool.false_eq_true, if_false, commitFrameCounterForKeyWithParent]
    cases hidx : s.frameCounterTable.findIdx? (·.isFor call.source call.keySequence) with
    | some i => rfl
    | none =>
      have hfind := find?_none_of_unknown (unknown_of_findIdx? hidx)
      have hadmits : s.leafAdmitsNewDomain call.source call.keySequence call.caller.parent = true := by
        by_contra h
        simp [admission, replayAdmission, hfind, h] at hfresh
      simp only [hadmits, Bool.not_true, Bool.false_eq_true, if_false]
      by_cases hroom : s.frameCounterTable.length < MAX_FRAME_COUNTER_ENTRIES false
      · simp only [if_pos hroom]
      · obtain ⟨i, hvictim, hi⟩ := parentVictim_of_full hroom hadmits
        have hlen : (s.frameCounterTable.eraseIdx i).length < MAX_FRAME_COUNTER_ENTRIES false := by
          rw [List.length_eraseIdx_of_lt hi]
          omega
        simp only [if_neg hroom, hvictim, if_pos hlen]

/-- The admitted counter is the one that is recorded. -/
theorem recorded_of_fresh (hw : WellFormed router s)
    (hfresh : s.admission router call.source call.keySequence call.counter call.caller = .fresh) :
    ∃ e ∈ (s.commitCall router call).1.frameCounterTable,
      e.domain = (call.source, call.keySequence) ∧ e.counter = call.counter := by
  have he := commit_effect hw.floors.capacity call
  rw [commit_of_fresh hw.floors.capacity hfresh] at he
  generalize (s.commitCall router call).1 = s' at he ⊢
  cases he with
  | @known i e e' hi hfor hdom hcounter =>
    rw [admission_of_floor hw (List.mem_of_getElem? hi) hfor] at hfresh
    have hlt : e.counter < call.counter := by
      by_contra h
      rw [if_neg h] at hfresh
      cases hfresh
    refine ⟨e', List.mem_set (List.getElem?_eq_some_iff.mp hi).1 _, by rw [hdom, hfor], ?_⟩
    rw [hcounter]
    exact if_pos (UInt32.le_of_lt hlt)
  | appended hnew hopen hroom => exact ⟨call.entry, List.mem_append_right _ List.mem_cons_self, rfl, rfl⟩
  | reclaimed hrouter hnew hi hprev hne =>
    exact ⟨call.entry, List.mem_set (List.getElem?_eq_some_iff.mp hi).1 _, rfl, rfl⟩
  | evicted hrouter hnew hi hopen hvictim => exact ⟨call.entry, List.mem_set hi _, rfl, rfl⟩
  | replaced hrouter hnew hvictim hi => exact ⟨call.entry, List.mem_append_right _ List.mem_cons_self, rfl, rfl⟩

/-! ## What a commit gives up -/

/-- The rules by which a commit may give up a floor. -/
inductive Lost (router : Bool) (s : NwkSecurity) (call : CommitCall) (s' : NwkSecurity) (e : FrameCounterEntry) :
    Prop
  | reclaimed (hrouter : router = true) (hnew : s.Unknown call) (hprev : s.previousSequence = some e.keySequence)
      (hsealed : s'.previousKeyReplaySealed = true)
  | stale (hrouter : router = true) (hnew : s.Unknown call) (hopen : call.caller.protect e.source = false)
      (hother : s.previousSequence = some e.keySequence → call.keySequence = e.keySequence)
  | replaced (hrouter : router = false) (hnew : s.Unknown call) (hparent : call.caller.parent = some call.source)
      (hother : e.source ≠ call.source)

/-- A stale floor is not protected, and goes only when no floor of the previous key can. -/
theorem stale_of_victim {i : Nat} {e : FrameCounterEntry} (h : s.victim true call = some i)
    (hi : s.frameCounterTable[i]? = some e) :
    call.caller.protect e.source = false ∧
      (s.previousSequence = some e.keySequence → call.keySequence = e.keySequence) := by
  unfold victim at h
  split at h
  · cases h
  rw [if_pos rfl] at h
  cases hr : s.reclaimableKeySequence call.keySequence with
  | none =>
    rw [hr] at h
    cases h
  | some reclaimFrom =>
    rw [hr] at h
    dsimp only at h
    split at h
    · cases h
    rename_i hnone
    obtain ⟨p, hp, rfl⟩ := Option.map_eq_some_iff.mp h
    obtain ⟨hmem, hcond⟩ := List.mem_filter.mp (maxByKey_mem hp)
    have hpe : p.1 = e := Option.some.inj ((List.mem_zipIdx_iff_getElem?.mp hmem).symm.trans hi)
    rw [hpe] at hcond
    refine ⟨by simpa using (Bool.and_eq_true_iff.mp hcond).2, fun hprev => ?_⟩
    by_contra hne
    -- another key's commit would have taken this floor by the first rule
    have hreclaim : reclaimFrom = some e.keySequence := by
      simp only [reclaimableKeySequence, hprev, Option.some.injEq, Ne.symm hne, if_false] at hr
      exact hr.symm
    rw [hreclaim, previousVictim, Option.bind_some, Option.not_isSome_iff_eq_none] at hnone
    have := List.findIdx?_eq_none_iff.mp hnone e (List.mem_of_getElem? hi)
    rw [beq_self_eq_true] at this
    cases this

theorem parent_of_victim {i : Nat} {e : FrameCounterEntry} (h : s.victim false call = some i)
    (hi : s.frameCounterTable[i]? = some e) :
    call.caller.parent = some call.source ∧ e.source ≠ call.source := by
  unfold victim at h
  split at h
  · cases h
  rename_i hcond
  rw [Bool.or_eq_true, not_or, decide_eq_true_eq] at hcond
  rw [if_neg Bool.false_ne_true] at h
  split at h
  · rename_i hadmits
    obtain ⟨e', hi', hne⟩ := Table.getElem?_of_findIdx? h
    obtain rfl : e' = e := Option.some.inj (hi'.symm.trans hi)
    refine ⟨?_, bne_iff_ne.mp hne⟩
    have hfree : MAX_FRAME_COUNTER_ENTRIES false - s.frameCounterTable.length = 0 := by omega
    unfold leafAdmitsNewDomain at hadmits
    rw [hfree] at hadmits
    cases hparent : call.caller.parent with
    | none => simp [hparent] at hadmits
    | some parent =>
      by_cases heq : parent = call.source
      · rw [heq]
      · simp [hparent, heq] at hadmits
  · cases h

/-- **A commit keeps every floor or gives it up by one of the rules.** -/
theorem CommitEffect.covers {ok : Bool} (he : CommitEffect router s call s' ok) {x : FrameCounterEntry}
    (hx : x ∈ s.frameCounterTable) : s'.Covers x ∨ Lost router s call s' x := by
  have hself : x ∈ s'.frameCounterTable → s'.Covers x := fun h => ⟨x, h, rfl, UInt32.le_refl _⟩
  cases he with
  | @known i e e' hi hfor hdom hcounter =>
    refine Or.inl ?_
    rcases Table.mem_set_of_mem e' hx with hx' | hx'
    · obtain rfl : e = x := Option.some.inj (hi.symm.trans hx')
      exact ⟨e', List.mem_set (List.getElem?_eq_some_iff.mp hi).1 _, hdom, hcounter ▸ (le_max_counter _ _).1⟩
    · exact hself hx'
  | refused hnew => exact Or.inl (hself hx)
  | appended hnew hopen hroom => exact Or.inl (hself (List.mem_append_left _ hx))
  | @reclaimed i e hrouter hnew hi hprev hne =>
    rcases Table.mem_set_of_mem call.entry hx with hx' | hx'
    · obtain rfl : e = x := Option.some.inj (hi.symm.trans hx')
      exact Or.inr (.reclaimed hrouter hnew hprev rfl)
    · exact Or.inl (hself hx')
  | evicted hrouter hnew hi hopen hvictim =>
    rcases Table.mem_set_of_mem call.entry hx with hx' | hx'
    · rw [hrouter] at hvictim
      obtain ⟨hstale, hother⟩ := stale_of_victim hvictim hx'
      exact Or.inr (.stale hrouter hnew hstale hother)
    · exact Or.inl (hself hx')
  | replaced hrouter hnew hvictim hi =>
    rcases Table.mem_eraseIdx_of_mem hx with hx' | hx'
    · rw [hrouter] at hvictim
      obtain ⟨hparent, hother⟩ := parent_of_victim hvictim hx'
      exact Or.inr (.replaced hrouter hnew hparent hother)
    · exact Or.inl (hself (List.mem_append_left _ hx'))

/-- A router never gives up a protected source's floor under a key in use. -/
theorem keeps_protected (hw : WellFormed true s) {ok : Bool} (he : CommitEffect true s call s' ok)
    {x : FrameCounterEntry} (hx : x ∈ s.frameCounterTable) (hprotect : call.caller.protect x.source = true)
    (huse : s.InUse x) : s'.Covers x := by
  rcases he.covers hx with h | hlost
  · exact h
  cases hlost with
  | reclaimed hrouter hnew hprev hsealed =>
    exfalso
    rcases huse with hactive | hstaged
    · obtain ⟨a, ha, hseq⟩ := Option.map_eq_some_iff.mp hactive
      exact previous_not_first hw hprev a (Option.filter_eq_some_iff.mp ha).1 hseq
    · rw [previous_not_staged hw hprev] at hstaged
      cases hstaged
  | stale hrouter hnew hopen hother =>
    rw [hprotect] at hopen
    cases hopen
  | replaced hrouter => cases hrouter

/-- An end device never gives up a floor of its parent. -/
theorem keeps_parent {ok : Bool} (he : CommitEffect false s call s' ok) {x : FrameCounterEntry}
    (hx : x ∈ s.frameCounterTable) (hparent : call.caller.parent = some x.source) : s'.Covers x := by
  rcases he.covers hx with h | hlost
  · exact h
  cases hlost with
  | reclaimed hrouter => cases hrouter
  | stale hrouter => cases hrouter
  | replaced hrouter hnew hparent' hother =>
    rw [hparent] at hparent'
    exact absurd (Option.some.inj hparent') hother

/-! ## What is reclaimed stays out -/

/-- The previous key is retained and sealed, and the source has no floor under it. -/
structure ShutOut (s : NwkSecurity) (previous : NetworkKeyEntry) (source : IeeeAddress) : Prop where
  retained : s.Retained previous
  sealed : s.previousKeyReplaySealed = true
  gone : ∀ e ∈ s.frameCounterTable, e.domain ≠ (source, previous.seqNumber)

namespace ShutOut

variable {previous : NetworkKeyEntry} {source : IeeeAddress}

theorem of_reclaims (hw : WellFormed true s) (h : Reclaims s call (s.commitCall true call).1 previous source) :
    ShutOut (s.commitCall true call).1 previous source := by
  have he := commit_effect hw.floors.capacity call
  obtain ⟨-, h1, hst⟩ := he.keys
  refine ⟨⟨by rw [h1]; exact h.retained.1, by rw [hst]; exact h.retained.2⟩, ?_, h.gone⟩
  obtain ⟨x, hx, hdom⟩ := h.held
  have hseq : x.keySequence = previous.seqNumber := congrArg Prod.snd hdom
  have hprev : s.previousSequence = some x.keySequence := previousSequence_eq_some.mpr ⟨previous, h.retained, hseq.symm⟩
  rcases he.covers hx with ⟨e, hmem, hdom', -⟩ | hlost
  · exact absurd (hdom'.trans hdom) (h.gone e hmem)
  · cases hlost with
    | reclaimed hrouter hnew hprev hsealed => exact hsealed
    | stale hrouter hnew hopen hother => exact absurd ((hother hprev).trans hseq) h.other
    | replaced hrouter => cases hrouter

/-- **A step keeps the source out** while the key is retained. -/
theorem change (hw : WellFormed true s) (h : ShutOut s previous source) {op : SecurityOp} (hc : Change true op s s')
    (hretained : s'.Retained previous) (hredeliver : op.redelivers s = false) : ShutOut s' previous source := by
  have hkey := h.retained.1
  cases hc with
  | same => exact h
  | cleared => cases hretained.1
  | @rekeyed a key h0 =>
    refine ⟨hretained, ?_, fun e he => ?_⟩
    · unfold replaceActiveKey
      dsimp only
      split
      · exact h.sealed
      · exact h.sealed
    · refine h.gone e ?_
      unfold replaceActiveKey at he
      dsimp only at he
      split at he
      · exact (List.mem_filter.mp he).1
      · exact he
  | swapped hwhy =>
    -- slot 1 held another sequence number than slot 0
    obtain ⟨a, ha, hset⟩ := Option.map_eq_some_iff.mp hretained.1
    exact absurd (by rw [← hset]; rfl) (hw.slots.distinct a previous ha hkey)
  | @installed key seqNumber h0 h1 =>
    obtain ⟨hset, -⟩ := Option.filter_eq_some_iff.mp hretained.1
    obtain ⟨a, ha, hset⟩ := Option.map_eq_some_iff.mp hset
    exact absurd (by rw [← hset]; rfl) (hw.slots.distinct a previous ha hkey)
  | @staged key seqNumber a hop h0 h1 hnewer =>
    obtain ⟨b, hb, hseq, -⟩ := secondaryIs_iff.mp h1
    rw [hkey] at hb
    cases hb
    exact absurd (congrArg some hseq.symm) hretained.2
  | @secondary key seqNumber stagedKey a h0 hne hstaged h1 =>
    have hset : (⟨key, seqNumber, false⟩ : NetworkKeyEntry) = previous := Option.some.inj hretained.1
    have hsec : s.secondaryIs key seqNumber = true := secondaryIs_iff.mpr ⟨previous, hkey, by rw [← hset], by rw [← hset]⟩
    rw [h1 hsec, SecurityOp.redelivers, hsec] at hredeliver
    cases hredeliver
  | flagged =>
    obtain ⟨h0, h1⟩ := hw.slots.flags_eq
    rw [h0, h1]
    exact h
  | retired hstaged => cases hretained.1
  | forgotten hop => exact ⟨hretained, h.sealed, fun e he => h.gone e (List.mem_filter.mp he).1⟩
  | timeout secs => exact ⟨hretained, h.sealed, h.gone⟩
  | aged elapsedSecs =>
    refine ⟨hretained, h.sealed, fun x hx => ?_⟩
    obtain ⟨e, he, rfl⟩ := List.mem_map.mp hx
    exact h.gone e he
  | committed call hcall =>
    have hprev := previousSequence_eq_some.mpr ⟨previous, h.retained, rfl⟩
    obtain ⟨hsealed, hgone⟩ := (commit_effect hw.floors.capacity call).stays_shut hprev h.sealed h.gone
    exact ⟨hretained, hsealed, hgone⟩

theorem not_fresh (h : ShutOut s previous source) (counter : UInt32) (caller : Caller) :
    s.admission true source previous.seqNumber counter caller ≠ .fresh := by
  rw [admission_shut (previousSequence_eq_some.mpr ⟨previous, h.retained, rfl⟩) h.sealed h.gone]
  nofun

end ShutOut

end

/-! ## Every reachable context -/

/-- The agreement of the check before a commit, the commit and the checks after it. -/
structure ReplayAgreement (router : Bool) (s : NwkSecurity) (call : CommitCall) (s' : NwkSecurity) (ok : Bool) : Prop where
  /-- What is admitted is recorded, and its replay is refused. -/
  admitted : s.admission router call.source call.keySequence call.counter call.caller = .fresh →
    ok = true ∧
    (∃ e ∈ s'.frameCounterTable, e.domain = (call.source, call.keySequence) ∧ e.counter = call.counter) ∧
    ∀ caller, s'.admission router call.source call.keySequence call.counter caller = .replay
  /-- A known floor is never lowered. -/
  known : ∀ e ∈ s.frameCounterTable, e.domain = (call.source, call.keySequence) → s'.Covers e
  /-- A router keeps a protected source's floor under a key in use. -/
  keepsProtected : router = true → ∀ e ∈ s.frameCounterTable, call.caller.protect e.source = true → s.InUse e → s'.Covers e
  /-- An end device keeps the floors of its parent. -/
  keepsParent : router = false → ∀ e ∈ s.frameCounterTable, call.caller.parent = some e.source → s'.Covers e
  /-- A reclaimed source stays out while the previous key is retained and not delivered once more. -/
  reclaimed : router = true → ∀ previous source, Reclaims s call s' previous source → ∀ after : List SecurityOp,
    Along (SecurityOp.step router) (fun s op => (op.step router s).Retained previous) s' after →
    Along (SecurityOp.step router) (fun s op => op.redelivers s = false) s' after →
    ∀ counter caller,
      (run (SecurityOp.step router) s' after).admission router source previous.seqNumber counter caller ≠ .fresh

/-- **The check and the commit agree in every reachable context**, of both builds. -/
theorem replay_admission_agrees (router : Bool) (ops : List SecurityOp) (call : CommitCall) :
    ReplayAgreement router (reached router ops) call ((reached router ops).commitCall router call).1
      ((reached router ops).commitCall router call).2 := by
  have hw := reached_wellFormed router ops
  generalize reached router ops = s at hw ⊢
  have he := commit_effect hw.floors.capacity call
  have hw' : WellFormed router (s.commitCall router call).1 := by
    obtain ⟨h0, h1, hst⟩ := he.keys
    exact ⟨by rw [h0, h1, hst]; exact hw.slots, hw.floors.commit he⟩
  refine ⟨fun hfresh => ?_, fun x hx hdom => ?_, ?_, ?_, ?_⟩
  · obtain ⟨e, hmem, hdom, hcounter⟩ := recorded_of_fresh hw hfresh
    refine ⟨commit_of_fresh hw.floors.capacity hfresh, ⟨e, hmem, hdom, hcounter⟩, fun caller => ?_⟩
    rw [admission_of_floor hw' hmem hdom, if_neg (hcounter ▸ UInt32.lt_irrefl _)]
  · rcases he.covers hx with h | hlost
    · exact h
    · cases hlost with
      | reclaimed hrouter hnew => exact absurd hdom (hnew x hx)
      | stale hrouter hnew => exact absurd hdom (hnew x hx)
      | replaced hrouter hnew => exact absurd hdom (hnew x hx)
  · rintro rfl x hx hprotect huse
    exact keeps_protected hw he hx hprotect huse
  · rintro rfl x hx hparent
    exact keeps_parent he hx hparent
  · rintro rfl previous source hreclaims after hretained hredeliver counter caller
    have hinv : ∀ s (op : SecurityOp), (WellFormed true s ∧ ShutOut s previous source) →
        ((op.step true s).Retained previous ∧ op.redelivers s = false) →
        WellFormed true (op.step true s) ∧ ShutOut (op.step true s) previous source := by
      rintro s op ⟨hws, h⟩ ⟨hretained, hredeliver⟩
      exact ⟨hws.step op, h.change hws (step_change hws.slots.empty op) hretained hredeliver⟩
    have hrun := run_induct hinv ⟨hw', .of_reclaims hw hreclaims⟩ (along_and.mpr ⟨hretained, hredeliver⟩)
    exact hrun.2.not_fresh counter caller

namespace Rotation

/-- The first key, after the network moved to the second. -/
def previous : NetworkKeyEntry := ⟨first, 1, false⟩

/-- The table is one floor short of full when the last device of the network is heard. -/
def crowded : List SecurityOp :=
  [.setNetworkKey first 1, .commit (device 0) 1 100 .conservative, .setNetworkKey second 2] ++
    (List.range 63).map fun n => .commit (device (n + 1)) 2 1 .conservative

def last : CommitCall := ⟨device 64, 2, 1, .conservative⟩

/-- The previous key is restored, and a neighbour leaves. -/
def restored : List SecurityOp :=
  [.restorePreviousNetworkKey first 1, .clearFrameCountersForSource (device 64)]

/-- The commit of the last device takes the floor of device 0. -/
theorem reclaims : Reclaims (reached true crowded) last ((reached true crowded).commitCall true last).1 previous
    (device 0) :=
  ⟨by decide +kernel, by decide, by decide +kernel, by decide +kernel⟩

end Rotation

/-- Device 0 stays out of the table when its neighbours' floors age. -/
theorem reclaimed_source_refused :
    (run (SecurityOp.step true) ((reached true Rotation.crowded).commitCall true last).1
      [.ageReplayFloors 3600]).admission true (device 0) 1 100 .conservative ≠ .fresh :=
  (replay_admission_agrees true Rotation.crowded last).reclaimed rfl previous (device 0)
    reclaims [.ageReplayFloors 3600] (by decide +kernel) (by decide +kernel) 100 .conservative

/-- **Restoring the key that slot 1 retains admits a reclaimed source once more**, at the counter its floor
    had when it was reclaimed. -/
theorem reclaimed_source_readmitted :
    Reclaims (reached true Rotation.crowded) last ((reached true Rotation.crowded).commitCall true last).1
      previous (device 0) ∧
    Along (SecurityOp.step true) (fun s op => (op.step true s).Retained previous)
      ((reached true Rotation.crowded).commitCall true last).1 restored ∧
    (run (SecurityOp.step true) ((reached true Rotation.crowded).commitCall true last).1
      restored).admission true (device 0) 1 100 .conservative = .fresh :=
  ⟨reclaims, by decide +kernel, by decide +kernel⟩

end Zigbee.Nwk
