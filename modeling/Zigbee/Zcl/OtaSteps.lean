import Zigbee.Zcl.OtaCluster

/-!
# What one command can do to an OTA transfer

* `OtaCluster.device` — what a client never changes.
* `CommandStep`, `dispatch_step` — every outcome of a command of the server.
* `TimerStep`, `tick_step` — every outcome of the timer.
-/

namespace Zigbee.Zcl

open Bytes

variable (c : OtaCluster)

namespace OtaCluster

/-- What identifies the client; no command changes it. -/
def device (c : OtaCluster) : UInt16 × UInt16 × UInt32 × UInt8 × Option UInt16 :=
  (c.manufacturerCode, c.imageType, c.currentVersion, c.blockSize, c.hardwareVersion)

/-- What a command of the server can do. -/
inductive CommandStep (c : OtaCluster) : OtaAction → OtaCluster → Prop
  | ignored (random : Option UInt8) : CommandStep c .none { c with notifyRandom := random }
  | query (random : Option UInt8) : c.state = .idle ∨ c.state = .failed →
      CommandStep c (startQuery c).1 { c with notifyRandom := random, state := .querySent }
  | noImage : c.state = .querySent → CommandStep c .none { c with state := .idle }
  | offer (version size : UInt32) : c.state = .querySent → c.currentVersion < version → size ≠ 0 →
      CommandStep c (.sendBlockRequest (buildBlockRequest { c with targetVersion := version } 0))
        { c with targetVersion := version, targetSize := size, state := .downloading 0 size }
  | block (offset : Nat) (total : UInt32) (data : Buf) : c.downloadPosition = some (offset, total) → 0 < data.length →
      offset + data.length ≤ c.targetSize.toNat →
        CommandStep c (.writeBlock offset data) { c with state := .downloading (offset + data.length) c.targetSize }
  | again (offset : Nat) (total : UInt32) : c.downloadPosition = some (offset, total) →
      CommandStep c (.sendBlockRequest (c.buildBlockRequest offset)) { c with state := .downloading offset total }
  | wait (offset : Nat) (total delay : UInt32) : c.downloadPosition = some (offset, total) →
      CommandStep c (.wait delay) { c with state := .waitForData delay 0 offset total }
  | failed (status : UInt8) : c.downloadPosition.isSome = true → status ≠ 0 →
      CommandStep c (c.failWith status).1 (c.failWith status).2
  | deferred : c.state = .waitingActivate ∨ c.state = .waitingUpgradeCommand →
      CommandStep c .none { c with state := .waitingUpgradeCommand }
  | activate : c.state = .waitingActivate ∨ c.state = .waitingUpgradeCommand →
      CommandStep c .activateImage { c with state := .done }
  | countDown (delay : UInt32) : c.state = .waitingActivate ∨ c.state = .waitingUpgradeCommand →
      CommandStep c (.wait delay) { c with state := .waitingUpgrade delay 0 }

theorem handleImageNotify_step (payload : Buf) :
    CommandStep c (c.handleImageNotify payload).1 (c.handleImageNotify payload).2 := by
  unfold handleImageNotify
  split
  · exact .ignored c.notifyRandom
  split
  · exact .ignored c.notifyRandom
  split
  · exact .ignored c.notifyRandom
  have hidle : c.state = .idle ∨ c.state = .failed := by
    by_contra h
    rename_i hstate _ _
    exact hstate (not_or.mp h)
  split
  · split
    · exact .ignored none
    · exact .query none hidle
  · exact .query c.notifyRandom hidle

theorem handleQueryResponse_step (payload : Buf) :
    CommandStep c (c.handleQueryResponse payload).1 (c.handleQueryResponse payload).2 := by
  unfold handleQueryResponse
  by_cases hstate : c.state ≠ .querySent
  · rw [if_pos hstate]
    exact .ignored c.notifyRandom
  rw [if_neg hstate]
  rw [not_not] at hstate
  split
  · exact .noImage hstate
  · exact .noImage hstate
  · split
    · exact .noImage hstate
    · rename_i version size _ hok
      obtain ⟨-, -, hversion, hsize⟩ := not_or.mp hok |>.imp_right not_or.mp |>.imp_right (And.imp_right not_or.mp)
      exact .offer version size hstate (by simpa using hversion) hsize

theorem failWith_step {c : OtaCluster} {offset : Nat} {total : UInt32} (h : c.downloadPosition = some (offset, total))
    {status : UInt8} (hstatus : status ≠ 0) : CommandStep c (c.failWith status).1 (c.failWith status).2 :=
  .failed status (by rw [h]; rfl) hstatus

theorem acceptBlock_step {c : OtaCluster} {offset : Nat} {total : UInt32} (h : c.downloadPosition = some (offset, total))
    (block : ImageBlockResponse) : CommandStep c (c.acceptBlock offset block).1 (c.acceptBlock offset block).2 := by
  unfold acceptBlock
  split
  · exact .ignored c.notifyRandom
  rename_i hsame
  obtain ⟨-, -, -, hoffset⟩ := not_or.mp hsame |>.imp_right not_or.mp |>.imp_right (And.imp_right not_or.mp)
  rw [not_not] at hoffset
  split
  · exact failWith_step h (by decide)
  split
  · exact failWith_step h (by decide)
  rename_i hsize
  obtain ⟨hempty, hfits⟩ := not_or.mp hsize
  split
  · exact failWith_step h (by decide)
  rename_i hwhole
  have hlen : block.data.length = block.dataSize.toNat := not_not.mp (not_or.mp hwhole).2
  have hpos : block.dataSize.toNat ≠ 0 := fun h0 => hempty (UInt8.toNat_inj.mp h0)
  rw [hoffset, ← hlen]
  exact .block offset total block.data h (by omega) (by omega)

theorem acceptWait_step {c : OtaCluster} {offset : Nat} {total : UInt32} (h : c.downloadPosition = some (offset, total))
    (wait : ImageBlockWaitForData) : CommandStep c (c.acceptWait offset total wait).1 (c.acceptWait offset total wait).2 := by
  unfold acceptWait
  dsimp only
  split <;> split
  · exact .again offset total h
  · exact .wait offset total _ h
  · exact .again offset total h
  · exact .wait offset total _ h

theorem handleBlockResponse_step (payload : Buf) :
    CommandStep c (c.handleBlockResponse payload).1 (c.handleBlockResponse payload).2 := by
  unfold handleBlockResponse
  cases hposition : c.downloadPosition with
  | none => exact .ignored c.notifyRandom
  | some position =>
    obtain ⟨offset, total⟩ := position
    dsimp only
    split
    · split
      · exact failWith_step hposition (by decide)
      · exact .ignored c.notifyRandom
    · exact acceptBlock_step hposition _
    · exact acceptWait_step hposition _
    · exact failWith_step hposition (by decide)

theorem handleEndResponse_step (payload : Buf) :
    CommandStep c (c.handleEndResponse payload).1 (c.handleEndResponse payload).2 := by
  unfold handleEndResponse
  by_cases hstate : c.state ≠ .waitingActivate ∧ c.state ≠ .waitingUpgradeCommand
  · rw [if_pos hstate]
    exact .ignored c.notifyRandom
  rw [if_neg hstate]
  rw [not_and_or, not_not, not_not] at hstate
  split
  · exact .ignored c.notifyRandom
  split
  · exact .ignored c.notifyRandom
  split
  · exact .deferred hstate
  split
  · exact .activate hstate
  · exact .countDown _ hstate

/-- **Every outcome of a command of the server.** -/
theorem dispatch_step (cmdId : UInt8) (payload : Buf) :
    CommandStep c (c.dispatch cmdId payload).1 (c.dispatch cmdId payload).2 := by
  unfold dispatch
  split
  · exact handleImageNotify_step c payload
  split
  · exact handleQueryResponse_step c payload
  split
  · exact handleBlockResponse_step c payload
  split
  · exact handleEndResponse_step c payload
  · exact .ignored c.notifyRandom

theorem CommandStep.device {c c' : OtaCluster} {action : OtaAction} (h : CommandStep c action c') : c'.device = c.device := by
  cases h <;> rfl

/-- What the timer can do. -/
inductive TimerStep (c : OtaCluster) : OtaAction → OtaCluster → Prop
  | idle : TimerStep c .none c
  | waiting (delay elapsed elapsed' : UInt32) (offset : Nat) (total : UInt32) : c.state = .waitForData delay elapsed offset total →
      TimerStep c .none { c with state := .waitForData delay elapsed' offset total }
  | resumed (delay elapsed : UInt32) (offset : Nat) (total : UInt32) : c.state = .waitForData delay elapsed offset total →
      TimerStep c (.sendBlockRequest (c.buildBlockRequest offset)) { c with state := .downloading offset total }
  | counting (delay elapsed elapsed' : UInt32) : c.state = .waitingUpgrade delay elapsed →
      TimerStep c .none { c with state := .waitingUpgrade delay elapsed' }
  | activate (delay elapsed : UInt32) : c.state = .waitingUpgrade delay elapsed →
      TimerStep c .activateImage { c with state := .done }

/-- **Every outcome of the timer.** -/
theorem tick_step (elapsedSecs : UInt16) : TimerStep c (c.tick elapsedSecs).1 (c.tick elapsedSecs).2 := by
  unfold tick
  split
  · rename_i delay elapsed offset total hstate
    split
    · exact .resumed delay elapsed offset total hstate
    · exact .waiting delay elapsed _ offset total hstate
  · rename_i delay elapsed hstate
    split
    · exact .activate delay elapsed hstate
    · exact .counting delay elapsed _ hstate
  · exact .idle

end OtaCluster

end Zigbee.Zcl
