import Zigbee.Runtime.OtaParser

/-!
# The OTA manager

`OtaManager` of `zigbee-runtime/src/ota.rs`: the cluster, the firmware writer and the parser of the file,
with the retry of the outstanding block request, suspended downloads and the application's consent.

* `OtaManager.processAction` — what the manager does with an action of the cluster.
* `OtaManager.handleIncoming`, `OtaManager.tick`, … — its operations.
* `Op`, `OtaManager.step` — one operation; `none` is a panic.
* `DownloadEvent`, `run` — a run from the start, and what happens to downloads in it.
-/

namespace Zigbee.Runtime.Ota

open Bytes Checked Machine Zigbee.Zcl

/-- `OTA_RESPONSE_TIMEOUT_SECS` -/
def OTA_RESPONSE_TIMEOUT_SECS : UInt32 := 120

/-- `OTA_BLOCK_RETRY_INTERVAL_SECS` -/
def OTA_BLOCK_RETRY_INTERVAL_SECS : UInt32 := 2

/-- `OTA_BLOCK_RETRY_MAX_INTERVAL_SECS` -/
def OTA_BLOCK_RETRY_MAX_INTERVAL_SECS : UInt32 := 5

/-- `OTA_STATUS_ABORT` -/
def OTA_STATUS_ABORT : UInt8 := 0x95

/-- `OTA_END_REQUEST_MAX_RETRIES` -/
def OTA_END_REQUEST_MAX_RETRIES : UInt8 := 3

inductive StackEvent where
  | otaImageAvailable (version size : UInt32)
  | otaProgress (percent : UInt8)
  | otaDelayedActivation (delaySecs : UInt32)
  | otaComplete
  | otaFailed
  deriving DecidableEq

structure OtaConfig where
  manufacturerCode : UInt16
  imageType : UInt16
  currentVersion : UInt32
  endpoint : UInt8
  blockSize : UInt8
  autoAccept : Bool
  hardwareVersion : Option UInt16
  deriving DecidableEq

structure PendingOtaFrame where
  zclData : Buf
  endpoint : UInt8
  clusterId : UInt16
  deriving DecidableEq

structure BlockRetry where
  request : ImageBlockRequest
  zclSeq : UInt8
  elapsedSecs : UInt32
  retriesSent : UInt8
  deriving DecidableEq

structure OtaManager where
  cluster : OtaCluster
  writer : List WriterEvent
  config : OtaConfig
  pendingFrame : Option PendingOtaFrame
  zclSeq : UInt8
  downloadCtx : OtaDownloadCtx
  offeredImage : Option OtaImageOffer
  acceptedImage : Option OtaImageOffer
  endRequestRetries : UInt8
  responseWaitSecs : UInt32
  blockRetry : Option BlockRetry
  activationPending : Bool
  suspended : Bool

/-- An event for the application, and the manager behind it. -/
abbrev Answer := Option StackEvent × OtaManager

namespace OtaManager

/-- `OtaManager::new`, over a writer with these calls behind it. -/
def new (writer : List WriterEvent) (config : OtaConfig) : OtaManager where
  cluster :=
    let cluster := (OtaCluster.new config.manufacturerCode config.imageType config.currentVersion).setBlockSize config.blockSize
    match config.hardwareVersion with
    | some hw => cluster.setHardwareVersion hw
    | none => cluster
  writer := writer
  config := config
  pendingFrame := none
  zclSeq := 0
  downloadCtx := .new
  offeredImage := none
  acceptedImage := none
  endRequestRetries := 0
  responseWaitSecs := 0
  blockRetry := none
  activationPending := false
  suspended := false

def nextSeq (m : OtaManager) : UInt8 × OtaManager := (m.zclSeq, { m with zclSeq := m.zclSeq + 1 })

/-! ### Outgoing frames -/

/-- `queue_frame`: a cluster-specific frame from the client, always shorter than the buffer. -/
def queueFrame (m : OtaManager) (seq cmd : UInt8) (payload : Buf) : OtaManager :=
  { m with pendingFrame := some ⟨[0x01, seq, cmd] ++ payload, m.config.endpoint, 0x0019⟩ }

def buildAndQueueRequest (m : OtaManager) (req : QueryNextImageRequest) : OtaManager :=
  let (seq, m) := m.nextSeq
  m.queueFrame seq 0x01 req.serialize

def buildAndQueueBlockRequest (m : OtaManager) (req : ImageBlockRequest) (zclSeq : UInt8) : OtaManager :=
  m.queueFrame zclSeq 0x03 req.serialize

def buildAndQueueEndRequest (m : OtaManager) (req : UpgradeEndRequest) : OtaManager :=
  let (seq, m) := m.nextSeq
  m.queueFrame seq 0x06 req.serialize

section

variable (W : FirmwareWriter)

/-- A call of the writer. -/
def callWriter (m : OtaManager) (call : WriterCall) : Except FirmwareError Unit × OtaManager :=
  (W.answer m.writer call, { m with writer := m.writer ++ [⟨call, W.answer m.writer call⟩] })

/-! ### Sessions -/

/-- `reset_session` -/
def resetSession (m : OtaManager) : OtaManager :=
  { m with
    cluster := m.cluster.abort
    pendingFrame := none
    downloadCtx := if m.suspended = true then m.downloadCtx else .new
    offeredImage := none
    acceptedImage := none
    endRequestRetries := 0
    responseWaitSecs := 0
    blockRetry := none
    activationPending := false }

def abort (m : OtaManager) : OtaManager := resetSession { (m.callWriter W .abort).2 with suspended := false }

def endSession (m : OtaManager) : OtaManager := if m.suspended = true then m.resetSession else m.abort W

def canSuspend (m : OtaManager) : Bool :=
  (match m.cluster.state with
    | .downloading .. | .waitForData .. => true
    | _ => false) && m.downloadCtx.slotErased && m.downloadCtx.offer.isSome && decide (0 < m.downloadCtx.fileOffset)

def suspend (m : OtaManager) : OtaManager := resetSession { m with suspended := true }

def discardSuspended (m : OtaManager) : OtaManager :=
  { (m.callWriter W .abort).2 with suspended := false, downloadCtx := .new }

/-! ### Actions of the cluster -/

/-- The actions that lead to no other action. -/
def leafAction (m : OtaManager) : OtaAction → Answer
  | .sendQuery req =>
    (none, buildAndQueueRequest
      { m with downloadCtx := if m.suspended = true then m.downloadCtx else .new, blockRetry := none } req)
  | .sendEndRequest req =>
    (if req.status ≠ 0 then some .otaFailed else none,
      buildAndQueueEndRequest { m with blockRetry := none, acceptedImage := none, endRequestRetries := 0 } req)
  | .activateImage =>
    (some .otaComplete, { m with blockRetry := none, acceptedImage := none, activationPending := true })
  | .wait secs => (some (.otaDelayedActivation secs), m)
  | .sendBlockRequest _ | .writeBlock .. | .none => (none, m)

/-- `mark_failed`, and what follows from it. -/
def fail (m : OtaManager) : Answer :=
  let (action, cluster) := m.cluster.markFailed
  leafAction { m with cluster := cluster } action

/-- The offer that a first block request is about. -/
def requestedOffer (m : OtaManager) (req : ImageBlockRequest) : OtaImageOffer :=
  ⟨req.manufacturerCode, req.imageType, req.fileVersion, m.cluster.state.downloadTotal⟩

/-- Continue a suspended download of the same image, and drop one of another. -/
def resumeOrDiscard (m : OtaManager) (offer : OtaImageOffer) (req : ImageBlockRequest) : ImageBlockRequest × OtaManager :=
  if m.suspended = true then
    if m.downloadCtx.offer = some offer then
      match m.cluster.resumeDownload m.downloadCtx.fileOffset with
      | (.sendBlockRequest resumed, cluster) => (resumed, { m with cluster := cluster, suspended := false })
      | (_, cluster) => (req, discardSuspended W { m with cluster := cluster })
    else (req, m.discardSuspended W)
  else (req, m)

/-- Erase the slot, unless it is erased. -/
def prepareSlot (m : OtaManager) (offer : OtaImageOffer) : Except FirmwareError Unit × OtaManager :=
  if m.downloadCtx.slotErased = true then (.ok (), m)
  else
    match m.callWriter W .eraseSlot with
    | (.ok (), m) => (.ok (), { m with downloadCtx := { m.downloadCtx with slotErased := true, offer := some offer } })
    | (.error e, m) => (.error e, m)

/-- Queue the request and keep the copy for its retries. -/
def requestBlock (m : OtaManager) (req : ImageBlockRequest) (announce : Bool) : Answer :=
  let (zclSeq, m) := m.nextSeq
  let m := buildAndQueueBlockRequest { m with blockRetry := some ⟨req, zclSeq, 0, 0⟩ } req zclSeq
  (if announce = true then some (.otaImageAvailable m.cluster.targetVersion m.cluster.state.downloadTotal) else none, m)

/-- `OtaAction::SendBlockRequest(req)` -/
def sendBlockRequestAction (m : OtaManager) (req : ImageBlockRequest) : Answer :=
  let announce := decide (req.fileOffset = 0) && m.config.autoAccept
  if req.fileOffset = 0 ∧ (m.downloadCtx.slotErased = false ∨ m.suspended = true) then
    let offer := m.requestedOffer req
    if m.config.autoAccept = false ∧ m.acceptedImage ≠ some offer then
      (some (.otaImageAvailable offer.fileVersion offer.imageSize),
        { m with acceptedImage := none, offeredImage := some offer, cluster := m.cluster.abort })
    else
      let (req, m) := m.resumeOrDiscard W offer req
      match m.prepareSlot W offer with
      | (.ok (), m) => m.requestBlock req announce
      | (.error _, m) => m.fail
  else m.requestBlock req announce

/-- The actions other than a write. -/
def followUpAction (m : OtaManager) : OtaAction → Answer
  | .sendBlockRequest req => m.sendBlockRequestAction W req
  | action => m.leafAction action

/-- `self.writer.verify`, of a complete payload. -/
def verifyImage (m : OtaManager) : Except FirmwareError Unit × OtaManager :=
  if m.downloadCtx.payloadComplete = true then m.callWriter W (.verify m.downloadCtx.firmwareSize) else (.error .verifyFailed, m)

/-- The answer of a follow-up action if it has one. -/
def orProgress (answer : Answer) (percent : UInt8) : Answer :=
  match answer with
  | (some status, m) => (some status, m)
  | (none, m) => (some (.otaProgress percent), m)

/-- A block is written: ask for the next one, or finish the download. -/
def blockWritten (m : OtaManager) : Answer :=
  let progress := m.cluster.progressPercent
  if m.cluster.isDownloadComplete = true then
    match verifyImage W { m with cluster := m.cluster.markDownloadComplete } with
    | (.ok (), m) =>
      let (action, cluster) := m.cluster.markVerified
      orProgress (leafAction { m with cluster := cluster } action) progress
    | (.error _, m) => m.fail
  else orProgress (m.followUpAction W m.cluster.nextBlockRequest) progress

/-- `process_action`; `none` is a panic. -/
def processAction (m : OtaManager) : OtaAction → Option Answer
  | .writeBlock offset data =>
    match writeOtaBlock W m.cluster offset data ⟨m.downloadCtx, m.writer⟩ with
    | (.ok (), staging) => some (blockWritten W { m with downloadCtx := staging.ctx, writer := staging.writer })
    | (.error _, staging) =>
      some (some .otaFailed, (fail { m with downloadCtx := staging.ctx, writer := staging.writer }).2)
    | (.trap, _) => none
  | action => some (m.followUpAction W action)

/-! ### Operations -/

def startQuery (m : OtaManager) : Option Answer :=
  let (action, cluster) := m.cluster.startQuery
  processAction W { m with responseWaitSecs := 0, blockRetry := none, activationPending := false, cluster := cluster } action

def acceptOta (m : OtaManager) : Option Answer :=
  match m.offeredImage with
  | none => some (none, m)
  | some offer =>
    let (action, cluster) := m.cluster.startQuery
    processAction W
      { m with
        offeredImage := none
        acceptedImage := some offer
        responseWaitSecs := 0
        blockRetry := none
        activationPending := false
        cluster := cluster } action

/-- A refusal of a block that answers no outstanding request. -/
def staleRefusal (m : OtaManager) (cmdId : UInt8) (payload : Buf) (zclSeq : Option UInt8) : Bool :=
  decide (cmdId = 0x05) && payload[0]?.any (fun status => decide (status ≠ 0x00)) && zclSeq.isSome &&
    decide (m.blockRetry.map (·.zclSeq) ≠ zclSeq)

/-- The server ends a transfer that can be resumed. -/
def abortedByServer (m : OtaManager) (cmdId : UInt8) (payload : Buf) : Bool :=
  decide (cmdId = 0x05) && decide (payload[0]? = some OTA_STATUS_ABORT) && m.canSuspend

/-- `handle_incoming_with_sequence`, less the server's address, which goes into an attribute. -/
def handleIncoming (m : OtaManager) (cmdId : UInt8) (payload : Buf) (zclSeq : Option UInt8) : Option Answer :=
  if m.staleRefusal cmdId payload zclSeq = true then some (none, m)
  else if m.abortedByServer cmdId payload = true then some (some .otaFailed, m.suspend)
  else
    let (outcome, cluster) := m.cluster.processServerCommand cmdId payload
    if outcome.accepted = true then
      processAction W { m with cluster := cluster, responseWaitSecs := 0, pendingFrame := none, blockRetry := none }
        outcome.action
    else processAction W { m with cluster := cluster } outcome.action

def endResponseTimeout (m : OtaManager) : Answer :=
  if m.endRequestRetries < OTA_END_REQUEST_MAX_RETRIES then
    let m := { m with responseWaitSecs := 0, endRequestRetries := m.endRequestRetries + 1 }
    match m.cluster.markVerified with
    | (.sendEndRequest req, cluster) => (none, buildAndQueueEndRequest { m with cluster := cluster } req)
    | (_, cluster) => (none, { m with cluster := cluster })
  else (some .otaFailed, resetSession { m with responseWaitSecs := 0 })

/-- A response of the server is outstanding. -/
def awaitsResponse (m : OtaManager) : Bool :=
  match m.cluster.state with
  | .querySent | .downloading .. | .verifying | .waitingActivate => true
  | _ => false

/-- The retry of the outstanding request after `elapsedSecs` more seconds. -/
def retryOutstanding (m : OtaManager) (elapsedSecs : UInt16) : OtaManager :=
  match m.pendingFrame, m.cluster.state, m.blockRetry with
  | none, .downloading .., some retry =>
    let elapsed := OtaCluster.saturatingAdd retry.elapsedSecs elapsedSecs.toUInt32
    if min (OTA_BLOCK_RETRY_INTERVAL_SECS + retry.retriesSent.toUInt32) OTA_BLOCK_RETRY_MAX_INTERVAL_SECS ≤ elapsed then
      buildAndQueueBlockRequest
        { m with blockRetry := some { retry with
            elapsedSecs := 0
            retriesSent := UInt8.ofNat (min (retry.retriesSent.toNat + 1) 255) } }
        retry.request retry.zclSeq
    else { m with blockRetry := some { retry with elapsedSecs := elapsed } }
  | _, _, _ => m

/-- The timer of the cluster, and the retries. -/
def tickCluster (m : OtaManager) (elapsedSecs : UInt16) : Option Answer :=
  let (action, cluster) := m.cluster.tick elapsedSecs
  if action ≠ .none then processAction W { m with cluster := cluster } action
  else some (none, retryOutstanding { m with cluster := cluster } elapsedSecs)

/-- A response is awaited, for as long as the manager has counted. -/
def tickAwaiting (m : OtaManager) (elapsedSecs : UInt16) : Option Answer :=
  if OTA_RESPONSE_TIMEOUT_SECS ≤ m.responseWaitSecs then
    if m.cluster.state = .waitingActivate then some m.endResponseTimeout
    else if m.canSuspend = true then some (some .otaFailed, m.suspend)
    else some (some .otaFailed, m.endSession W)
  else m.tickCluster W elapsedSecs

def tick (m : OtaManager) (elapsedSecs : UInt16) : Option Answer :=
  if m.awaitsResponse = true then
    tickAwaiting W
      { m with responseWaitSecs := OtaCluster.saturatingAdd m.responseWaitSecs elapsedSecs.toUInt32 } elapsedSecs
  else tickCluster W { m with responseWaitSecs := 0 } elapsedSecs

def takePendingFrame (m : OtaManager) : OtaManager := { m with pendingFrame := none }

def requeuePendingFrame (m : OtaManager) (frame : PendingOtaFrame) : OtaManager :=
  match m.pendingFrame with
  | some _ => m
  | none => { m with pendingFrame := some frame }

def activate (m : OtaManager) : OtaManager :=
  if m.activationPending = true then (callWriter W { m with activationPending := false } .activate).2 else m

end

end OtaManager

/-! ## Runs -/

/-- An operation of the manager. -/
inductive Op where
  | startQuery
  | acceptOta
  | incoming (cmdId : UInt8) (payload : Buf) (zclSeq : Option UInt8)
  | tick (elapsedSecs : UInt16)
  | takePendingFrame
  | requeuePendingFrame (frame : PendingOtaFrame)
  | activate
  | abort
  | endSession
  | setNotifyRandom (random : UInt8)

/-- What matters of an operation to downloads. -/
inductive DownloadEvent where
  /-- The slot is erased for the image of the offer. -/
  | started (offer : OtaImageOffer)
  /-- A `WriteBlock` action of the cluster. -/
  | wrote (offset : Nat) (data : Buf)
  /-- The application accepts the offer. -/
  | accepted (offer : OtaImageOffer)
  /-- The writer is told to activate. -/
  | activated
  deriving DecidableEq

namespace OtaManager

variable (W : FirmwareWriter)

/-- One operation; `none` is a panic. -/
def step (m : OtaManager) : Op → Option OtaManager
  | .startQuery => (m.startQuery W).map (·.2)
  | .acceptOta => (m.acceptOta W).map (·.2)
  | .incoming cmdId payload zclSeq => (m.handleIncoming W cmdId payload zclSeq).map (·.2)
  | .tick elapsedSecs => (m.tick W elapsedSecs).map (·.2)
  | .takePendingFrame => some m.takePendingFrame
  | .requeuePendingFrame frame => some (m.requeuePendingFrame frame)
  | .activate => some (m.activate W)
  | .abort => some (m.abort W)
  | .endSession => some (m.endSession W)
  | .setNotifyRandom random => some { m with cluster := m.cluster.setNotifyRandom random }

/-- The block of an action. -/
def written : OtaAction → List DownloadEvent
  | .writeBlock offset data => [.wrote offset data]
  | _ => []

/-- The block that the cluster tells the manager to write. -/
def writes (m : OtaManager) : Op → List DownloadEvent
  | .incoming cmdId payload zclSeq =>
    if m.staleRefusal cmdId payload zclSeq = true ∨ m.abortedByServer cmdId payload = true then []
    else written (m.cluster.processServerCommand cmdId payload).1.action
  | _ => []

/-- The offer that the application accepts. -/
def consents (m : OtaManager) : Op → List DownloadEvent
  | .acceptOta => m.offeredImage.toList.map .accepted
  | _ => []

def activations (m : OtaManager) : Op → List DownloadEvent
  | .activate => if m.activationPending = true then [.activated] else []
  | _ => []

def erases : WriterEvent → Bool
  | ⟨.eraseSlot, .ok ()⟩ => true
  | _ => false

/-- The download that an erase between the two states is for. -/
def starts (m m' : OtaManager) : List DownloadEvent :=
  if (m'.writer.drop m.writer.length).any erases = true then m'.downloadCtx.offer.toList.map .started else []

/-- The events of an operation that leads from `m` to `m'`. -/
def events (m m' : OtaManager) (op : Op) : List DownloadEvent :=
  m.writes op ++ m.consents op ++ m.activations op ++ m.starts m'

/-- A run, and its events; `none` is a panic. -/
def run (m : OtaManager) : List Op → Option (OtaManager × List DownloadEvent)
  | [] => some (m, [])
  | op :: ops => do
    let m' ← m.step W op
    let (last, es) ← run m' ops
    pure (last, m.events m' op ++ es)

end OtaManager

end Zigbee.Runtime.Ota
