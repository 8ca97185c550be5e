import Zigbee.Nwk.PanIdUpdate
import Zigbee.Runtime.Commissioning

/-!
# The pending PAN identifier in the stored record

* `pendingPanId_validate_iff` — the rules of the stored record are the rules of the restore.
* `pending_pan_id_storable` — what a command arms passes both exactly when the command is proper, and in a
  run of proper steps everything that is armed does.
-/

namespace Zigbee.Runtime

open Zigbee.Nwk Bytes

/-- The record of a commissioned device that agrees with the layer. -/
structure RecordOf (s : PanIdState) (r : PersistentSecurityState) : Prop where
  valid : r.validate = .ok ()
  commissioned : r.commissioned = true
  panId : r.panId = s.panId
  updateIdValid : r.updateIdValid = s.updateIdValid

/-- The switch to `p` as the checkpoint stores it. -/
def PersistentSecurityState.withPendingPanId (r : PersistentSecurityState) (p : PanId) (broadcastPending : Bool) :
    PersistentSecurityState :=
  { r with pendingPanId := some p, pendingPanIdBroadcast := broadcastPending }

variable {s : PanIdState} {r : PersistentSecurityState} {p : PanId}

theorem nwkUpdateId_isSome : s.nwkUpdateId.isSome = s.updateIdValid := by
  unfold PanIdState.nwkUpdateId
  cases s.updateIdValid with
  | false => rfl
  | true => rfl

theorem pendingPanId_validate_iff (hr : RecordOf s r) (broadcastPending : Bool) :
    (r.withPendingPanId p broadcastPending).validate = .ok () ↔ s.PendingRules p := by
  rw [PersistentSecurityState.validate_ok_iff]
  have hvalid := PersistentSecurityState.validate_ok_iff.mp hr.valid
  constructor
  · intro h
    obtain ⟨-, hknown, hzero, hones, hcurrent⟩ := h.pendingPanId p rfl
    refine ⟨?_, hzero, hones, hr.panId ▸ hcurrent⟩
    rw [nwkUpdateId_isSome, ← hr.updateIdValid]
    exact hknown
  · intro h
    have hknown : r.updateIdValid = true := by
      rw [hr.updateIdValid, ← nwkUpdateId_isSome]
      exact h.known
    exact
      { network := hvalid.network
        coordinator := hvalid.coordinator
        distributed := hvalid.distributed
        centralized := hvalid.centralized
        legacy := hvalid.legacy
        secondaryKey := hvalid.secondaryKey
        noSecondaryKey := hvalid.noSecondaryKey
        forwarding := hvalid.forwarding
        tclk := hvalid.tclk
        rejoin := hvalid.rejoin
        endDeviceTimeout := hvalid.endDeviceTimeout
        updateId := hvalid.updateId
        pendingPanId := fun q hq => by
          obtain rfl := Option.some.inj hq
          exact ⟨hr.commissioned, hknown, h.ne_zero, h.ne_ones, hr.panId.symm ▸ h.ne_current⟩
        noPendingPanId := fun hnone => by cases hnone
        announce := hvalid.announce
        provisional := hvalid.provisional }

/-- The identifier can be restored after a restart and stored in every record that agrees with the layer. -/
def PendingAccepted (s : PanIdState) (p : PanId) : Prop :=
  ∀ broadcastPending,
    (∀ nowUs, (s.rebooted.restorePendingPanIdUpdate p broadcastPending nowUs).isSome = true) ∧
      ∀ r, RecordOf s r → (r.withPendingPanId p broadcastPending).validate = .ok ()

theorem pendingAccepted_iff : PendingAccepted s p ↔ s.PendingRules p := by
  have hreboot : s.rebooted.PendingRules p ↔ s.PendingRules p :=
    ⟨fun h => h.keep rfl id, fun h => h.keep rfl id⟩
  constructor
  · intro h
    exact hreboot.mp ((PanIdState.restorePendingPanIdUpdate_iff false 0).mp ((h false).1 0))
  · intro h broadcastPending
    refine ⟨fun nowUs => ?_, fun r hr => (pendingPanId_validate_iff hr broadcastPending).mpr h⟩
    exact (PanIdState.restorePendingPanIdUpdate_iff broadcastPending nowUs).mpr (hreboot.mpr h)

/-- **What a command arms can be restored and stored exactly when the command is proper**, and in a run of
    proper steps so can everything that is armed in the state it reaches. -/
theorem pending_pan_id_storable (s : PanIdState) :
    (∀ command nowUs,
      (∀ pending, (s.receive command nowUs).pendingPanIdUpdate = some pending → s.pendingPanIdUpdate ≠ some pending →
        PendingAccepted (s.receive command nowUs) pending.newPanId) ↔ s.Proper command) ∧
      ∀ events, s.pendingPanIdUpdate = none → s.pendingPanIdBroadcast = none →
        Run.Along PanIdState.step PanIdState.StepProper s events →
          ∀ pending, (Run.run PanIdState.step s events).pendingPanIdUpdate = some pending →
            PendingAccepted (Run.run PanIdState.step s events) pending.newPanId := by
  constructor
  · intro command nowUs
    simp only [pendingAccepted_iff]
    exact PanIdState.receive_storable_iff s command nowUs
  · intro events hpending hbroadcast hproper pending harmed
    have hrun := (PanIdState.storable_of_idle hpending hbroadcast).run hproper
    exact pendingAccepted_iff.mpr (hrun.armed pending harmed)

/-- A router as it is created. -/
def newRouter : PanIdState where
  panId := 0xFFFF
  extendedPanId := zeroAddress
  networkAddress := 0xFFFF
  nwkManagerAddr := 0
  updateId := 0
  updateIdValid := false
  isRouter := true
  joined := false
  pendingPanIdUpdate := none
  pendingPanIdBroadcast := none

/-- The router joins PAN 0x1A62, and the manager moves the network to `p`. -/
def movedTo (p : PanId) : List PanIdState.Event :=
  [.adopt 0x1A62 onesAddress 0x1234 7, .receive (.networkUpdate 0 (PanIdUpdate.serialize ⟨onesAddress, 8, p⟩)) 0]

/-- The identifier 0x2B73 waits, and can be restored and stored. -/
theorem moved_to_usable_pan :
    (Run.run PanIdState.step newRouter (movedTo 0x2B73)).pendingPanIdUpdate = some ⟨0x2B73, 9000000⟩ ∧
      PendingAccepted (Run.run PanIdState.step newRouter (movedTo 0x2B73)) 0x2B73 := by
  have harmed : (Run.run PanIdState.step newRouter (movedTo 0x2B73)).pendingPanIdUpdate = some ⟨0x2B73, 9000000⟩ := by
    decide
  refine ⟨harmed, (pending_pan_id_storable newRouter).2 (movedTo 0x2B73) rfl rfl ?_ _ harmed⟩
  refine ⟨⟨fun pending h => (by cases h), fun update h => (by cases h)⟩, ?_, trivial⟩
  intro update hparse _
  rw [PanIdUpdate.parse_serialize] at hparse
  obtain rfl := Option.some.inj hparse
  decide

/-- An update to 0xFFFF is armed, and then neither restored nor stored. -/
theorem reserved_pan_id_armed :
    ¬ ∀ events pending, (Run.run PanIdState.step newRouter events).pendingPanIdUpdate = some pending →
      PendingAccepted (Run.run PanIdState.step newRouter events) pending.newPanId := by
  intro h
  have haccepted := h (movedTo 0xFFFF) ⟨0xFFFF, 9000000⟩ (by decide)
  exact (pendingAccepted_iff.mp haccepted).ne_ones rfl

end Zigbee.Runtime
