import Zigbee.Zcl.OtaImage

/-!
# The client side of the OTA Upgrade cluster

`zigbee-zcl/src/clusters/ota.rs`: the commands of the server, the state of a transfer, and what the
runtime is told to do. The attribute store is left out: it is written here and read nowhere.

* `OtaState`, `OtaAction`, `OtaCluster` — the state machine and its answers.
* `QueryNextImageResponse.parse`, `ParsedBlockResponse.parse`, `UpgradeEndResponse.parse` — the commands.
* `OtaCluster.processServerCommand`, `OtaCluster.tick` — its steps.
-/

namespace Zigbee.Zcl

open Bytes

/-! ## States and actions -/

inductive OtaState where
  | idle
  | querySent
  | downloading (offset : Nat) (totalSize : UInt32)
  | verifying
  | waitingActivate
  | waitingUpgradeCommand
  | waitForData (delaySecs elapsed : UInt32) (downloadOffset : Nat) (downloadTotal : UInt32)
  | waitingUpgrade (delaySecs elapsed : UInt32)
  | done
  | failed
  deriving DecidableEq

def OtaState.downloadTotal : OtaState → UInt32
  | .downloading _ totalSize => totalSize
  | _ => 0

structure QueryNextImageRequest where
  fieldControl : UInt8
  manufacturerCode : UInt16
  imageType : UInt16
  currentFileVersion : UInt32
  hardwareVersion : Option UInt16
  deriving DecidableEq

structure ImageBlockRequest where
  fieldControl : UInt8
  manufacturerCode : UInt16
  imageType : UInt16
  fileVersion : UInt32
  fileOffset : Nat
  maxDataSize : UInt8
  deriving DecidableEq

structure UpgradeEndRequest where
  status : UInt8
  manufacturerCode : UInt16
  imageType : UInt16
  fileVersion : UInt32
  deriving DecidableEq

inductive OtaAction where
  | sendQuery (req : QueryNextImageRequest)
  | sendBlockRequest (req : ImageBlockRequest)
  | writeBlock (offset : Nat) (data : Buf)
  | sendEndRequest (req : UpgradeEndRequest)
  | activateImage
  | wait (secs : UInt32)
  | none
  deriving DecidableEq

structure OtaCommandOutcome where
  action : OtaAction
  accepted : Bool
  deriving DecidableEq

/-! ## Serialized requests -/

/-- `serialize`, into a buffer that holds it. -/
def QueryNextImageRequest.serialize (r : QueryNextImageRequest) : Buf :=
  [r.fieldControl] ++ le16 r.manufacturerCode ++ le16 r.imageType ++ le32 r.currentFileVersion ++
    (match r.hardwareVersion with
    | some hw => le16 hw
    | none => [])

def ImageBlockRequest.serialize (r : ImageBlockRequest) : Buf :=
  [r.fieldControl] ++ le16 r.manufacturerCode ++ le16 r.imageType ++ le32 r.fileVersion ++
    le32 (UInt32.ofNat r.fileOffset) ++ [r.maxDataSize]

def UpgradeEndRequest.serialize (r : UpgradeEndRequest) : Buf :=
  [r.status] ++ le16 r.manufacturerCode ++ le16 r.imageType ++ le32 r.fileVersion

/-! ## Parsed commands -/

/-- What a response without an image, or one with an image, carries. -/
inductive QueryNextImageResponse where
  | unavailable (status : UInt8)
  | image (manufacturerCode imageType : UInt16) (fileVersion imageSize : UInt32)
  deriving DecidableEq

def QueryNextImageResponse.parse (data : Buf) : Option QueryNextImageResponse :=
  if data = [] then none
  else if u8At data 0 ≠ 0x00 then some (.unavailable (u8At data 0))
  else if data.length < 13 then none
  else some (.image (u16At data 1) (u16At data 3) (u32At data 5) (u32At data 9))

structure ImageBlockResponse where
  manufacturerCode : UInt16
  imageType : UInt16
  fileVersion : UInt32
  fileOffset : Nat
  dataSize : UInt8
  data : Buf
  deriving DecidableEq

structure ImageBlockWaitForData where
  currentTime : UInt32
  requestTime : UInt32
  minimumBlockPeriod : UInt16
  deriving DecidableEq

inductive ParsedBlockResponse where
  | success (block : ImageBlockResponse)
  | waitForData (wait : ImageBlockWaitForData)
  | error (status : UInt8)
  deriving DecidableEq

def ParsedBlockResponse.parse (data : Buf) : Option ParsedBlockResponse :=
  if data = [] then none
  else if u8At data 0 = 0x00 then
    if data.length < 14 then none
    else if data.length < 14 + (u8At data 13).toNat then none
    -- The block goes into a buffer of 64 bytes.
    else if 64 < (u8At data 13).toNat then none
    else
      some (.success
        { manufacturerCode := u16At data 1
          imageType := u16At data 3
          fileVersion := u32At data 5
          fileOffset := (u32At data 9).toNat
          dataSize := u8At data 13
          data := slice data 14 (14 + (u8At data 13).toNat) })
  else if u8At data 0 = 0x97 then
    if data.length < 11 then none
    else some (.waitForData ⟨u32At data 1, u32At data 5, u16At data 9⟩)
  else some (.error (u8At data 0))

structure UpgradeEndResponse where
  manufacturerCode : UInt16
  imageType : UInt16
  fileVersion : UInt32
  currentTime : UInt32
  upgradeTime : UInt32
  deriving DecidableEq

def UpgradeEndResponse.parse (data : Buf) : Option UpgradeEndResponse :=
  if data.length < 16 then none
  else some ⟨u16At data 0, u16At data 2, u32At data 4, u32At data 8, u32At data 12⟩

/-! ## The cluster -/

structure OtaCluster where
  state : OtaState
  manufacturerCode : UInt16
  imageType : UInt16
  currentVersion : UInt32
  targetVersion : UInt32
  targetSize : UInt32
  blockSize : UInt8
  hardwareVersion : Option UInt16
  notifyRandom : Option UInt8
  deriving DecidableEq

/-- `DEFAULT_BLOCK_SIZE` -/
def DEFAULT_BLOCK_SIZE : UInt8 := 48

/-- `ZclStatus::InvalidImage` -/
def INVALID_IMAGE : UInt8 := 0x96

/-- `ZclStatus::Abort` -/
def ABORT : UInt8 := 0x95

namespace OtaCluster

def new (manufacturerCode imageType : UInt16) (currentVersion : UInt32) : OtaCluster where
  state := .idle
  manufacturerCode := manufacturerCode
  imageType := imageType
  currentVersion := currentVersion
  targetVersion := 0
  targetSize := 0
  blockSize := DEFAULT_BLOCK_SIZE
  hardwareVersion := none
  notifyRandom := none

def setBlockSize (c : OtaCluster) (size : UInt8) : OtaCluster := { c with blockSize := min size 64 }

def setHardwareVersion (c : OtaCluster) (hwVersion : UInt16) : OtaCluster := { c with hardwareVersion := some hwVersion }

def setNotifyRandom (c : OtaCluster) (random : UInt8) : OtaCluster := { c with notifyRandom := some random }

def startQuery (c : OtaCluster) : OtaAction × OtaCluster :=
  (.sendQuery
    { fieldControl := if c.hardwareVersion.isSome then 0x01 else 0x00
      manufacturerCode := c.manufacturerCode
      imageType := c.imageType
      currentFileVersion := c.currentVersion
      hardwareVersion := c.hardwareVersion },
    { c with state := .querySent })

def progressPercent (c : OtaCluster) : UInt8 :=
  match c.state with
  | .downloading offset totalSize =>
    if 0 < totalSize then UInt8.ofNat (offset * 100 / totalSize.toNat) else 0
  | .verifying | .waitingActivate | .waitingUpgradeCommand | .waitingUpgrade .. | .done => 100
  | _ => 0

def abort (c : OtaCluster) : OtaCluster := { c with state := .idle }

def markDownloadComplete (c : OtaCluster) : OtaCluster := { c with state := .verifying }

/-- The request that reports `status`. -/
def endRequest (c : OtaCluster) (status : UInt8) : UpgradeEndRequest :=
  ⟨status, c.manufacturerCode, c.imageType, c.targetVersion⟩

def markVerified (c : OtaCluster) : OtaAction × OtaCluster :=
  (.sendEndRequest (c.endRequest 0x00), { c with state := .waitingActivate })

def failWith (c : OtaCluster) (status : UInt8) : OtaAction × OtaCluster :=
  (.sendEndRequest (c.endRequest status), { c with state := .failed })

def markFailed (c : OtaCluster) : OtaAction × OtaCluster := c.failWith INVALID_IMAGE

def validateImageHeader (c : OtaCluster) (header : OtaImageHeader) : Bool :=
  let hwOk : Bool :=
    match c.hardwareVersion, header.minHardwareVersion, header.maxHardwareVersion with
    | some hw, some min, some max => decide (min ≤ hw ∧ hw ≤ max)
    | _, _, _ => true
  decide (header.manufacturerCode = c.manufacturerCode) && decide (header.imageType = c.imageType) &&
    decide (header.fileVersion = c.targetVersion) && decide (header.totalImageSize = c.targetSize) && hwOk

/-- `build_block_request` -/
def buildBlockRequest (c : OtaCluster) (offset : Nat) : ImageBlockRequest where
  fieldControl := 0x00
  manufacturerCode := c.manufacturerCode
  imageType := c.imageType
  fileVersion := c.targetVersion
  fileOffset := offset
  maxDataSize := c.blockSize

def nextBlockRequest (c : OtaCluster) : OtaAction :=
  match c.state with
  | .downloading offset totalSize => if totalSize.toNat ≤ offset then .none else .sendBlockRequest (c.buildBlockRequest offset)
  | _ => .none

def resumeDownload (c : OtaCluster) (offset : Nat) : OtaAction × OtaCluster :=
  match c.state with
  | .downloading 0 totalSize =>
    if 0 < offset ∧ offset < totalSize.toNat then
      (.sendBlockRequest (c.buildBlockRequest offset), { c with state := .downloading offset totalSize })
    else (.none, c)
  | _ => (.none, c)

def isDownloadComplete (c : OtaCluster) : Bool :=
  match c.state with
  | .downloading offset totalSize => decide (totalSize.toNat ≤ offset)
  | _ => false

/-! ### Commands of the server -/

/-- `NOTIFY_LEN` -/
def notifyLen (payloadType : UInt8) : Nat :=
  if payloadType = 0 then 0 else if payloadType = 1 then 4 else if payloadType = 2 then 6 else 10

/-- The QueryJitter of a notify. -/
def notifyJitter (payload : Buf) : UInt8 := if payload = [] then 100 else u8At payload 1

def notifyMalformed (payload : Buf) : Prop :=
  3 < u8At payload 0 ∨ payload.length < notifyLen (u8At payload 0) ∨ ¬ (1 ≤ notifyJitter payload ∧ notifyJitter payload ≤ 100)

instance (payload : Buf) : Decidable (notifyMalformed payload) :=
  inferInstanceAs (Decidable (_ ∨ _ ∨ _))

/-- The notify names another manufacturer, another image type, or the running version. -/
def notifyForOthers (c : OtaCluster) (payload : Buf) : Prop :=
  (1 ≤ u8At payload 0 ∧ u16At payload 2 ≠ 0xFFFF ∧ u16At payload 2 ≠ c.manufacturerCode) ∨
    (2 ≤ u8At payload 0 ∧ u16At payload 4 ≠ 0xFFFF ∧ u16At payload 4 ≠ c.imageType) ∨
    (3 ≤ u8At payload 0 ∧ u32At payload 6 ≠ 0xFFFFFFFF ∧ u32At payload 6 = c.currentVersion)

instance (c : OtaCluster) (payload : Buf) : Decidable (notifyForOthers c payload) :=
  inferInstanceAs (Decidable (_ ∨ _ ∨ _))

def handleImageNotify (c : OtaCluster) (payload : Buf) : OtaAction × OtaCluster :=
  if c.state ≠ .idle ∧ c.state ≠ .failed then (.none, c)
  else if notifyMalformed payload then (.none, c)
  else if notifyForOthers c payload then (.none, c)
  else
    match c.notifyRandom with
    | some random =>
      if notifyJitter payload < random then (.none, { c with notifyRandom := none })
      else startQuery { c with notifyRandom := none }
    | none => startQuery c

def handleQueryResponse (c : OtaCluster) (payload : Buf) : OtaAction × OtaCluster :=
  if c.state ≠ .querySent then (.none, c)
  else
    match QueryNextImageResponse.parse payload with
    | none => (.none, { c with state := .idle })
    | some (.unavailable _) => (.none, { c with state := .idle })
    | some (.image manufacturerCode imageType version size) =>
      if manufacturerCode ≠ c.manufacturerCode ∨ imageType ≠ c.imageType ∨ version ≤ c.currentVersion ∨ size = 0 then
        (.none, { c with state := .idle })
      else
        let c := { c with targetVersion := version, targetSize := size, state := .downloading 0 size }
        (.sendBlockRequest (c.buildBlockRequest 0), c)

/-- The offset that a download or a wait continues at, and its size. -/
def downloadPosition (c : OtaCluster) : Option (Nat × UInt32) :=
  match c.state with
  | .downloading offset totalSize => some (offset, totalSize)
  | .waitForData _ _ downloadOffset downloadTotal => some (downloadOffset, downloadTotal)
  | _ => none

/-- `ParsedBlockResponse::Success(block)` -/
def acceptBlock (c : OtaCluster) (expectedOffset : Nat) (block : ImageBlockResponse) : OtaAction × OtaCluster :=
  if block.manufacturerCode ≠ c.manufacturerCode ∨ block.imageType ≠ c.imageType ∨ block.fileVersion ≠ c.targetVersion ∨
      block.fileOffset ≠ expectedOffset then (.none, c)
  else if 2 ^ 32 ≤ block.fileOffset + block.dataSize.toNat then c.markFailed
  else if block.dataSize = 0 ∨ c.targetSize.toNat < block.fileOffset + block.dataSize.toNat then c.markFailed
  else if c.blockSize < block.dataSize ∨ block.data.length ≠ block.dataSize.toNat then c.failWith ABORT
  else
    (.writeBlock block.fileOffset block.data,
      { c with state := .downloading (block.fileOffset + block.dataSize.toNat) c.targetSize })

/-- `ParsedBlockResponse::WaitForData(wait)` -/
def acceptWait (c : OtaCluster) (offset : Nat) (total : UInt32) (wait : ImageBlockWaitForData) : OtaAction × OtaCluster :=
  let delay := if wait.currentTime ≤ wait.requestTime then wait.requestTime - wait.currentTime else 0
  if delay = 0 then (.sendBlockRequest (c.buildBlockRequest offset), { c with state := .downloading offset total })
  else (.wait delay, { c with state := .waitForData delay 0 offset total })

def handleBlockResponse (c : OtaCluster) (payload : Buf) : OtaAction × OtaCluster :=
  match c.downloadPosition with
  | none => (.none, c)
  | some (offset, total) =>
    match ParsedBlockResponse.parse payload with
    | none =>
      if payload[0]? = some 0 ∧ payload[13]?.any (fun n => decide (c.blockSize < n)) = true then c.failWith ABORT
      else (.none, c)
    | some (.success block) => c.acceptBlock offset block
    | some (.waitForData wait) => c.acceptWait offset total wait
    | some (.error _) => c.markFailed

def handleEndResponse (c : OtaCluster) (payload : Buf) : OtaAction × OtaCluster :=
  if c.state ≠ .waitingActivate ∧ c.state ≠ .waitingUpgradeCommand then (.none, c)
  else
    match UpgradeEndResponse.parse payload with
    | none => (.none, c)
    | some resp =>
      if resp.manufacturerCode ≠ c.manufacturerCode ∨ resp.imageType ≠ c.imageType ∨ resp.fileVersion ≠ c.targetVersion then
        (.none, c)
      else if resp.upgradeTime = 0xFFFFFFFF then (.none, { c with state := .waitingUpgradeCommand })
      else if resp.upgradeTime = 0 ∨ resp.upgradeTime ≤ resp.currentTime then (.activateImage, { c with state := .done })
      else
        (.wait (resp.upgradeTime - resp.currentTime),
          { c with state := .waitingUpgrade (resp.upgradeTime - resp.currentTime) 0 })

def dispatch (c : OtaCluster) (cmdId : UInt8) (payload : Buf) : OtaAction × OtaCluster :=
  if cmdId = 0x00 then c.handleImageNotify payload
  else if cmdId = 0x02 then c.handleQueryResponse payload
  else if cmdId = 0x05 then c.handleBlockResponse payload
  else if cmdId = 0x07 then c.handleEndResponse payload
  else (.none, c)

/-- `process_server_command_with_outcome` -/
def processServerCommand (c : OtaCluster) (cmdId : UInt8) (payload : Buf) : OtaCommandOutcome × OtaCluster :=
  let (action, c') := c.dispatch cmdId payload
  (⟨action, decide (action ≠ .none ∨ c'.state ≠ c.state)⟩, c')

/-- `u32::saturating_add` -/
def saturatingAdd (a b : UInt32) : UInt32 := UInt32.ofNat (min (a.toNat + b.toNat) (2 ^ 32 - 1))

/-- `OtaCluster::tick`; the addition of a wait for data wraps as in a release build. -/
def tick (c : OtaCluster) (elapsedSecs : UInt16) : OtaAction × OtaCluster :=
  match c.state with
  | .waitForData delaySecs elapsed downloadOffset downloadTotal =>
    if delaySecs ≤ elapsed + elapsedSecs.toUInt32 then
      (.sendBlockRequest (c.buildBlockRequest downloadOffset),
        { c with state := .downloading downloadOffset downloadTotal })
    else
      (.none, { c with state := .waitForData delaySecs (elapsed + elapsedSecs.toUInt32) downloadOffset downloadTotal })
  | .waitingUpgrade delaySecs elapsed =>
    if delaySecs ≤ saturatingAdd elapsed elapsedSecs.toUInt32 then (.activateImage, { c with state := .done })
    else (.none, { c with state := .waitingUpgrade delaySecs (saturatingAdd elapsed elapsedSecs.toUInt32) })
  | _ => (.none, c)

end OtaCluster

end Zigbee.Zcl
