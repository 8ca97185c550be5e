import Zigbee.Nwk.PanIdUpdate

/-!
# Failed changes of the PAN identifier

The manager prepares the switch to a new PAN identifier before it knows that its Network Update will be
sent, and takes the preparation back when it is not.

* `reportConflict` — `report_pan_id_conflict`, with its result.
* `Prepared` — the state in which `send_pan_id_update` finds a prepared switch.
* `reportConflict_failed` — what a failed report leaves: the update identifier is the one that was there,
  but it counts as known.
* `failed_update_traceless` — a failed call leaves no trace exactly when it had an update identifier to go
  back to, and a queued update that is sent advances the identifier by one.
-/

namespace Zigbee.Nwk

open Bytes

namespace PanIdConflictReport

def serialize (r : PanIdConflictReport) : Buf :=
  ((UInt8.ofNat r.panIds.length &&& NWK_REPORT_COUNT_MASK) ||| (NWK_REPORT_PAN_ID_CONFLICT <<< NWK_REPORT_ID_SHIFT)) ::
    (r.epid.toList ++ r.panIds.flatMap le16)

theorem options_fields : ∀ n ≤ MAX_PAN_ID_CONFLICT_REPORT,
    (((UInt8.ofNat n &&& NWK_REPORT_COUNT_MASK) ||| (NWK_REPORT_PAN_ID_CONFLICT <<< NWK_REPORT_ID_SHIFT)) &&&
      NWK_REPORT_COUNT_MASK).toNat = n ∧
    ((UInt8.ofNat n &&& NWK_REPORT_COUNT_MASK) ||| (NWK_REPORT_PAN_ID_CONFLICT <<< NWK_REPORT_ID_SHIFT)) >>>
      NWK_REPORT_ID_SHIFT = NWK_REPORT_PAN_ID_CONFLICT := by
  decide

theorem parse_serialize (r : PanIdConflictReport) (h : r.panIds.length ≤ MAX_PAN_ID_CONFLICT_REPORT) :
    parse r.serialize = some r := by
  obtain ⟨hcount, hkind⟩ := options_fields r.panIds.length h
  have hlen : r.serialize.length = 9 + 2 * r.panIds.length := by
    simp only [serialize, List.length_cons, List.length_append, Vector.length_toList, length_flatMap_le16]
    omega
  have hsplit : r.serialize = [u8At r.serialize 0] ++ (r.epid.toList ++ r.panIds.flatMap le16) := rfl
  have hids : (List.range r.panIds.length).map (fun i => u16At r.serialize (9 + 2 * i)) = r.panIds := by
    refine List.ext_getElem (by simp) fun i hi hi' => ?_
    rw [List.getElem_map, List.getElem_range, hsplit, u16At_append_right (by rw [List.length_singleton]; omega),
      u16At_append_right (by rw [List.length_singleton, Vector.length_toList]; omega)]
    simp only [List.length_singleton, Vector.length_toList]
    rw [show 9 + 2 * i - 1 - 8 = i * 2 by omega]
    exact u16At_flatMap_le16 r.panIds i hi'
  have hcount : (u8At r.serialize 0 &&& NWK_REPORT_COUNT_MASK).toNat = r.panIds.length := hcount
  have hkind : u8At r.serialize 0 >>> NWK_REPORT_ID_SHIFT = NWK_REPORT_PAN_ID_CONFLICT := hkind
  unfold parse
  rw [hcount, hkind]
  dsimp only
  rw [if_neg (by omega), if_neg (not_not.mpr rfl), if_neg (by omega), hids, List.take_of_length_le h]
  refine congrArg (fun epid => some (⟨epid, r.panIds⟩ : PanIdConflictReport)) ?_
  rw [hsplit, arrayAt_append_right (by simp)]
  exact arrayAt_toList r.epid _

end PanIdConflictReport

namespace PanIdState

variable (s : PanIdState)

/-- `report_pan_id_conflict`; the second value: it returned `Ok`. -/
def reportConflict (observed : List PanId) (clock : UInt32 → UInt32) (sent : Bool) (nowUs : UInt32) : PanIdState × Bool :=
  if !s.canRoute then (s, false)
  else if s.networkAddress = s.nwkManagerAddr then
    match s.handleNetworkReport (PanIdConflictReport.serialize ⟨s.extendedPanId, observed.take MAX_PAN_ID_CONFLICT_REPORT⟩)
      clock nowUs with
    | none => (s, false)
    | some (update, s') => s'.sendPanIdUpdate update sent nowUs
  else (s, sent)

/-- `send_pan_id_update` finds the switch that `handle_network_report` has prepared. -/
def Prepared (update : PanIdUpdate) : Prop :=
  s.queuedBroadcast update = false ∧ s.nwkUpdateId = some update.updateId ∧
    s.pendingPanIdUpdate.map (·.newPanId) = some update.newPanId

/-- The identifier that a report of the manager's own would move to. -/
def replacement (observed : List PanId) (clock : UInt32 → UInt32) : Option PanId :=
  if s.canRoute ∧ s.pendingPanIdUpdate = none then
    s.selectReplacementPanId (observed.take MAX_PAN_ID_CONFLICT_REPORT) clock
  else none

/-- The broadcast of the move to this identifier is queued already. -/
def Queued (newPanId : PanId) : Prop :=
  ∃ pending, s.pendingPanIdBroadcast = some pending ∧ pending.epid = s.extendedPanId ∧ pending.newPanId = newPanId

variable {s} {observed : List PanId} {clock : UInt32 → UInt32} {nowUs : UInt32} {update : PanIdUpdate}

/-- A report of the manager's own prepares the switch to the replacement, if there is one. -/
theorem handleNetworkReport_own (hmanager : s.networkAddress = s.nwkManagerAddr) :
    s.handleNetworkReport (PanIdConflictReport.serialize ⟨s.extendedPanId, observed.take MAX_PAN_ID_CONFLICT_REPORT⟩)
      clock nowUs =
    (s.replacement observed clock).map fun newPanId =>
      (⟨s.extendedPanId, s.nwkUpdateId.getD s.updateId + 1, newPanId⟩,
        (s.setNwkUpdateId (s.nwkUpdateId.getD s.updateId + 1)).armPanIdUpdate newPanId nowUs) := by
  unfold handleNetworkReport replacement
  rw [PanIdConflictReport.parse_serialize _ (List.length_take_le _ _)]
  cases hroute : s.canRoute with
  | false => simp
  | true =>
    cases hpending : s.pendingPanIdUpdate with
    | some pending => simp
    | none =>
      simp only [Bool.not_true, Bool.false_eq_true, if_false, ne_eq, not_true_eq_false, hmanager, Option.isSome_none,
        or_self, and_self, if_true]
      split
      · rename_i hselect
        rw [hselect]
        rfl
      · rename_i newPanId hselect
        rw [hselect]
        rfl

theorem getD_nwkUpdateId : s.nwkUpdateId.getD s.updateId = s.updateId := by
  unfold nwkUpdateId
  split <;> rfl

/-! ## A failed send -/

theorem queuedBroadcast_iff :
    s.queuedBroadcast update = true ↔
      ∃ pending, s.pendingPanIdBroadcast = some pending ∧ pending.epid = update.epid ∧ pending.newPanId = update.newPanId := by
  unfold queuedBroadcast
  rw [Option.any_eq_true]
  simp only [Bool.and_eq_true, beq_iff_eq]

/-- A failed send takes a prepared switch back, and nothing else. -/
theorem sendPanIdUpdate_failed {sent : Bool} (h : (s.sendPanIdUpdate update sent nowUs).2 = false) :
    (s.Prepared update ∧ (s.sendPanIdUpdate update sent nowUs).1 =
      { s.setNwkUpdateId (update.updateId - 1) with pendingPanIdUpdate := none }) ∨
    (¬ s.Prepared update ∧ (s.sendPanIdUpdate update sent nowUs).1 = s) := by
  have hstate : (s.sendPanIdUpdate update sent nowUs).1 = s.undoPrepared update (s.commandUpdateId update) := by
    unfold sendPanIdUpdate at h ⊢
    dsimp only at h ⊢
    split at h
    · cases h
    · rename_i hfail
      rw [if_neg hfail]
  rw [hstate]
  unfold undoPrepared commandUpdateId Prepared
  cases hqueued : s.queuedBroadcast update with
  | true => simp
  | false =>
    simp only [Bool.false_and, Bool.false_eq_true, if_false, Bool.not_false, Bool.true_and, true_and, Bool.and_eq_true,
      beq_iff_eq, Option.any_eq_true, Option.map_eq_some_iff]
    split
    · rename_i hprepared
      exact Or.inl ⟨hprepared, rfl⟩
    · rename_i hprepared
      exact Or.inr ⟨hprepared, rfl⟩

/-- The poll's send finds no prepared switch: the broadcast it sends is the queued one. -/
theorem not_prepared_of_queued (h : s.pendingPanIdBroadcast = some update) : ¬ s.Prepared update := by
  rintro ⟨hqueued, -, -⟩
  rw [queuedBroadcast_iff.mpr ⟨update, h, rfl, rfl⟩] at hqueued
  cases hqueued

theorem sendPanIdUpdate_traceless_iff {sent : Bool} (h : (s.sendPanIdUpdate update sent nowUs).2 = false) :
    (s.sendPanIdUpdate update sent nowUs).1 = s ↔ ¬ s.Prepared update := by
  rcases sendPanIdUpdate_failed h with ⟨hprepared, hstate⟩ | ⟨hprepared, hstate⟩
  · refine iff_of_false (fun hsame => ?_) (not_not.mpr hprepared)
    rw [hstate] at hsame
    have hpending := hprepared.2.2
    rw [← hsame] at hpending
    cases hpending
  · exact iff_of_true hstate hprepared

/-- The manager's own report goes back to the identifier that was there, but marks it as known. -/
theorem reportConflict_failed (hmanager : s.networkAddress = s.nwkManagerAddr) {sent : Bool}
    (h : (s.reportConflict observed clock sent nowUs).2 = false) :
    (s.replacement observed clock = none ∧ (s.reportConflict observed clock sent nowUs).1 = s) ∨
    ∃ newPanId, s.replacement observed clock = some newPanId ∧
      ((¬ s.Queued newPanId ∧ (s.reportConflict observed clock sent nowUs).1 = { s with updateIdValid := true }) ∨
        (s.Queued newPanId ∧ (s.reportConflict observed clock sent nowUs).1 =
          (s.setNwkUpdateId (s.updateId + 1)).armPanIdUpdate newPanId nowUs)) := by
  cases hroute : s.canRoute with
  | false =>
    refine Or.inl ⟨by simp [replacement, hroute], ?_⟩
    simp [reportConflict, hroute]
  | true =>
    have hstep : s.reportConflict observed clock sent nowUs =
        (s.replacement observed clock).elim (s, false) fun newPanId =>
          ((s.setNwkUpdateId (s.updateId + 1)).armPanIdUpdate newPanId nowUs).sendPanIdUpdate
            ⟨s.extendedPanId, s.updateId + 1, newPanId⟩ sent nowUs := by
      unfold reportConflict
      rw [hroute, Bool.not_true, if_neg Bool.false_ne_true, if_pos hmanager, handleNetworkReport_own hmanager,
        getD_nwkUpdateId]
      cases s.replacement observed clock with
      | none => rfl
      | some newPanId => rfl
    rw [hstep] at h ⊢
    cases hreplacement : s.replacement observed clock with
    | none => exact Or.inl ⟨rfl, rfl⟩
    | some newPanId =>
      rw [hreplacement, Option.elim_some] at h
      rw [Option.elim_some]
      refine Or.inr ⟨newPanId, rfl, ?_⟩
      have hpending : s.pendingPanIdUpdate = none := by
        unfold replacement at hreplacement
        split at hreplacement
        · rename_i hidle
          exact hidle.2
        · cases hreplacement
      rcases sendPanIdUpdate_failed h with ⟨hprepared, hstate⟩ | ⟨hprepared, hstate⟩
      · refine Or.inl ⟨fun hqueued => ?_, ?_⟩
        · have hset : ((s.setNwkUpdateId (s.updateId + 1)).armPanIdUpdate newPanId nowUs).queuedBroadcast
              ⟨s.extendedPanId, s.updateId + 1, newPanId⟩ = true := queuedBroadcast_iff.mpr hqueued
          rw [hprepared.1] at hset
          cases hset
        · rw [hstate, UInt8.add_sub_cancel, ← hpending]
          rfl
      · refine Or.inr ⟨?_, hstate⟩
        by_contra hfree
        refine hprepared ⟨?_, rfl, rfl⟩
        rw [Bool.eq_false_iff]
        exact fun hqueued => hfree (queuedBroadcast_iff.mp hqueued)

theorem reportConflict_traceless_iff (hmanager : s.networkAddress = s.nwkManagerAddr) {sent : Bool}
    (h : (s.reportConflict observed clock sent nowUs).2 = false) :
    (s.reportConflict observed clock sent nowUs).1 = s ↔
      ∀ newPanId, s.replacement observed clock = some newPanId → s.updateIdValid = true ∧ ¬ s.Queued newPanId := by
  rcases reportConflict_failed hmanager h with ⟨hnone, hstate⟩ | ⟨newPanId, hsome, hstate⟩
  · refine iff_of_true hstate fun newPanId hsome => ?_
    rw [hnone] at hsome
    cases hsome
  · rw [hsome]
    rcases hstate with ⟨hfree, hstate⟩ | ⟨hqueued, hstate⟩
    · rw [hstate]
      constructor
      · intro hsame q hq
        obtain rfl := Option.some.inj hq
        exact ⟨congrArg PanIdState.updateIdValid hsame.symm, hfree⟩
      · intro hcond
        rw [← (hcond newPanId rfl).1]
    · refine iff_of_false (fun hsame => ?_) fun hcond => (hcond newPanId rfl).2 hqueued
      have hidle : s.pendingPanIdUpdate = none := by
        unfold replacement at hsome
        split at hsome
        · rename_i hidle
          exact hidle.2
        · cases hsome
      rw [hstate] at hsame
      rw [← hsame] at hidle
      cases hidle

/-! ## A queued update that is sent -/

/-- What an accepted report queues: everything else is as it was. -/
theorem queuePanIdUpdateFromReport_acts {payload : Buf} (h : s.actsOnReport payload clock = true) (nowUs : UInt32) :
    ∃ newPanId, s.queuePanIdUpdateFromReport payload clock nowUs =
      { (s.restoreNwkUpdateId s.nwkUpdateId).armPanIdUpdate newPanId nowUs with
        pendingPanIdBroadcast := some ⟨s.extendedPanId, s.updateId + 1, newPanId⟩ } := by
  unfold actsOnReport at h
  simp only [Bool.and_eq_true, Option.isNone_iff_eq_none, Option.any_eq_true, beq_iff_eq] at h
  obtain ⟨⟨⟨⟨hbroadcast, hroute⟩, hpending⟩, hmanager⟩, report, hparse, hepid, hselect⟩ := h
  obtain ⟨newPanId, hselect⟩ := Option.isSome_iff_exists.mp hselect
  refine ⟨newPanId, ?_⟩
  unfold queuePanIdUpdateFromReport handleNetworkReport
  simp only [hbroadcast, hroute, hparse, hepid, hmanager, hpending, hselect, getD_nwkUpdateId, Option.isSome_none,
    Bool.not_true, Bool.false_eq_true, if_false, ne_eq, not_true_eq_false, or_self]
  cases s.nwkUpdateId with
  | none => rfl
  | some updateId => rfl

/-- Polls whose send fails leave what is queued. -/
theorem run_sendPending_failed (times : List UInt32) : Run.run (fun s now => sendPending s false now) s times = s := by
  refine Run.run_invariant (I := fun s' => s' = s) (fun s' now hs => ?_) rfl times
  subst hs
  unfold sendPending
  cases hqueued : s'.pendingPanIdBroadcast with
  | none => rfl
  | some update =>
    have hfail : (s'.sendPanIdUpdate update false now).2 = false := by simp [sendPanIdUpdate]
    dsimp only
    rw [hfail, if_neg Bool.false_ne_true]
    exact (sendPanIdUpdate_traceless_iff hfail).mpr (not_prepared_of_queued hqueued)

/-- The queued update is sent: the identifier is one further, and the switch is armed. -/
theorem sendPending_queued {payload : Buf} (h : s.actsOnReport payload clock = true) (sentUs : UInt32) :
    ((s.queuePanIdUpdateFromReport payload clock nowUs).sendPending true sentUs).nwkUpdateId = some (s.updateId + 1) ∧
    ((s.queuePanIdUpdateFromReport payload clock nowUs).sendPending true sentUs).panId = s.panId ∧
    ((s.queuePanIdUpdateFromReport payload clock nowUs).sendPending true sentUs).pendingPanIdBroadcast = none := by
  have hroute : s.canRoute = true := by
    unfold actsOnReport at h
    simp only [Bool.and_eq_true] at h
    exact h.1.1.1.2
  obtain ⟨newPanId, hqueue⟩ := queuePanIdUpdateFromReport_acts h nowUs
  rw [hqueue]
  unfold canRoute at hroute
  unfold nwkUpdateId
  cases hvalid : s.updateIdValid with
  | false => simp [sendPending, sendPanIdUpdate, commandUpdateId, undoPrepared, queuedBroadcast, restoreNwkUpdateId,
      clearNwkUpdateId, setNwkUpdateId, armPanIdUpdate, nwkUpdateId, canRoute, hroute]
  | true => simp [sendPending, sendPanIdUpdate, commandUpdateId, undoPrepared, queuedBroadcast, restoreNwkUpdateId,
      setNwkUpdateId, armPanIdUpdate, nwkUpdateId, canRoute, hroute]

/-- **A failed change of the PAN identifier leaves no trace** exactly when the manager knew its update
    identifier and had not queued the same move: otherwise the identifier that it goes back to counts as
    known.  A failed send on its own takes back a prepared switch only, so the poll's leaves everything; and
    a queued update that is sent, after any failed polls, is one further than the identifier it was queued
    at. -/
theorem failed_update_traceless (s : PanIdState) (nowUs : UInt32) :
    (∀ observed clock sent, s.networkAddress = s.nwkManagerAddr → (s.reportConflict observed clock sent nowUs).2 = false →
      ((s.reportConflict observed clock sent nowUs).1 = s ↔
        ∀ newPanId, s.replacement observed clock = some newPanId → s.updateIdValid = true ∧ ¬ s.Queued newPanId)) ∧
    (∀ update sent, (s.sendPanIdUpdate update sent nowUs).2 = false →
      ((s.sendPanIdUpdate update sent nowUs).1 = s ↔ ¬ s.Prepared update)) ∧
    (∀ update, s.pendingPanIdBroadcast = some update → ¬ s.Prepared update) ∧
    (∀ payload clock (times : List UInt32) sentUs, s.actsOnReport payload clock = true →
      ((Run.run (fun s now => sendPending s false now) (s.queuePanIdUpdateFromReport payload clock nowUs)
        times).sendPending true sentUs).nwkUpdateId = some (s.updateId + 1)) := by
  refine ⟨fun observed clock sent hmanager hfail => reportConflict_traceless_iff hmanager hfail,
    fun update sent hfail => sendPanIdUpdate_traceless_iff hfail, fun update => not_prepared_of_queued, ?_⟩
  intro payload clock times sentUs hacts
  rw [run_sendPending_failed]
  exact (sendPending_queued hacts sentUs).1

/-- A coordinator that manages its network. -/
def managing (updateId : UInt8) (updateIdValid : Bool) : PanIdState :=
  ⟨0x1A62, Vector.replicate 8 7, 0, 0, updateId, updateIdValid, true, true, none, none⟩

/-- A failed report with the identifier about to wrap. -/
theorem failed_report_keeps_known :
    ((managing 0xFF true).reportConflict [0x1A62, 0x2B73] (fun _ => 5) false 9).1 = managing 0xFF true :=
  ((failed_update_traceless (managing 0xFF true) 9).1 [0x1A62, 0x2B73] (fun _ => 5) false rfl (by decide +kernel)).mpr
    fun _ _ => ⟨rfl, fun ⟨_, hqueued, _⟩ => by cases hqueued⟩

/-- **A failed report makes an unknown update identifier known.** -/
theorem failed_report_marks_unknown :
    (managing 0 false).nwkUpdateId = none ∧
    ((managing 0 false).reportConflict [0x1A62, 0x2B73] (fun _ => 5) false 9).2 = false ∧
    ((managing 0 false).reportConflict [0x1A62, 0x2B73] (fun _ => 5) false 9).1.nwkUpdateId = some 0 := by
  decide +kernel

end PanIdState

end Zigbee.Nwk
