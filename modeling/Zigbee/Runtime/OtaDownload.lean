import Zigbee.Runtime.OtaManager
import Zigbee.Zcl.OtaSteps

/-!
# Downloads of the OTA manager

What holds of the manager's offsets, its retry copy and the firmware slot in every run: commands of the
server with any payload, timers, suspended and resumed downloads, and a writer that may fail at any call.

* `Covers` — the blocks of each download follow each other without a gap.
* `Staged`, `Verified`, `Inv` — what is in the slot, and the invariant.
* `step_spec`, `run_spec` — every operation keeps it, and none panics.
* `download_never_stalls`, `activation_is_safe` — the results.
-/

namespace Zigbee.Runtime.Ota

open Bytes Checked Machine Zigbee.Zcl OtaCluster

/-! ## Traces -/

/-- The blocks of every download in the trace start at 0 and follow each other, inside the offered size; the
last download and its bytes so far. -/
inductive Covers : List DownloadEvent → Option (OtaImageOffer × Buf) → Prop
  | nil : Covers [] none
  | started {es : List DownloadEvent} {p : Option (OtaImageOffer × Buf)} (offer : OtaImageOffer) :
      Covers es p → Covers (es ++ [.started offer]) (some (offer, []))
  | wrote {es : List DownloadEvent} {offer : OtaImageOffer} {file data : Buf} :
      Covers es (some (offer, file)) → 0 < data.length → file.length + data.length ≤ offer.imageSize.toNat →
        Covers (es ++ [.wrote file.length data]) (some (offer, file ++ data))
  | accepted {es : List DownloadEvent} {p : Option (OtaImageOffer × Buf)} (offer : OtaImageOffer) :
      Covers es p → Covers (es ++ [.accepted offer]) p
  | activated {es : List DownloadEvent} {p : Option (OtaImageOffer × Buf)} : Covers es p → Covers (es ++ [.activated]) p

/-! ## The invariant -/

/-- The part of the manager that its downloads depend on. -/
structure View where
  config : OtaConfig
  cluster : OtaCluster
  writer : List WriterEvent
  ctx : OtaDownloadCtx
  acceptedImage : Option OtaImageOffer
  blockRetry : Option BlockRetry
  activationPending : Bool
  suspended : Bool

def OtaManager.view (m : OtaManager) : View where
  config := m.config
  cluster := m.cluster
  writer := m.writer
  ctx := m.downloadCtx
  acceptedImage := m.acceptedImage
  blockRetry := m.blockRetry
  activationPending := m.activationPending
  suspended := m.suspended

/-- The cluster of a device that downloads the offer. -/
def offerCluster (config : OtaConfig) (offer : OtaImageOffer) : OtaCluster :=
  { (OtaManager.new [] config).cluster with targetVersion := offer.fileVersion, targetSize := offer.imageSize }

/-- The cluster's target is the offer. -/
structure Current (cluster : OtaCluster) (offer : OtaImageOffer) : Prop where
  version : cluster.targetVersion = offer.fileVersion
  size : cluster.targetSize = offer.imageSize

/-- An offer that this device may install: its own kind of image, newer than what runs, and accepted by the
application where that is asked for. -/
structure Admissible (config : OtaConfig) (es : List DownloadEvent) (offer : OtaImageOffer) : Prop where
  manufacturer : offer.manufacturerCode = config.manufacturerCode
  imageType : offer.imageType = config.imageType
  newer : config.currentVersion < offer.fileVersion
  consented : config.autoAccept = false → .accepted offer ∈ es

/-- The slot was erased for the offer, and holds what belongs to the first bytes of its file. -/
structure Staged (W : FirmwareWriter) (config : OtaConfig) (ctx : OtaDownloadCtx) (writer : List WriterEvent)
    (es : List DownloadEvent) (offer : OtaImageOffer) (file : Buf) : Prop where
  tracks : ∃ earlier, Tracks W (offerCluster config offer) offer (earlier ++ [⟨.eraseSlot, .ok ()⟩]) file file.length
    ⟨ctx, writer⟩
  covers : Covers es (some (offer, file))
  part : file.length < offer.imageSize.toNat
  admissible : Admissible config es offer

/-- The slot holds the whole payload of the offered file, verified after its last write. -/
structure Verified (W : FirmwareWriter) (config : OtaConfig) (writer : List WriterEvent) (es : List DownloadEvent)
    (offer : OtaImageOffer) (file payload : Buf) : Prop where
  calls : ∃ earlier log, writer =
      earlier ++ [⟨.eraseSlot, .ok ()⟩] ++ log ++ [⟨.verify payload.length, .ok ()⟩] ∧ AcceptedWrites 0 log payload
  covers : Covers es (some (offer, file))
  whole : file.length = offer.imageSize.toNat
  reading : referenceParse (offerCluster config offer) offer.imageSize W.slotSize file = .payload payload payload.length
  header : HeaderAccepted (offerCluster config offer) file
  admissible : Admissible config es offer

/-- What the state of the cluster promises. -/
def PhaseOk (W : FirmwareWriter) (config : OtaConfig) (v : View) (es : List DownloadEvent) : OtaState → Prop
  | .downloading offset totalSize => v.suspended = false ∧
      (∃ offer file, Staged W config v.ctx v.writer es offer file ∧ Current v.cluster offer ∧ file.length = offset ∧
        offer.imageSize = totalSize) ∧
      ∃ retry, v.blockRetry = some retry ∧ retry.request = v.cluster.buildBlockRequest offset
  | .waitForData _ _ offset totalSize => v.suspended = false ∧
      ∃ offer file, Staged W config v.ctx v.writer es offer file ∧ Current v.cluster offer ∧ file.length = offset ∧
        offer.imageSize = totalSize
  | .querySent => v.suspended = true ∨ v.ctx = .new
  | .waitingActivate | .waitingUpgradeCommand | .waitingUpgrade .. =>
    ∃ offer file payload, Verified W config v.writer es offer file payload
  | .done => v.activationPending = true → ∃ offer file payload, Verified W config v.writer es offer file payload
  | .idle | .verifying | .failed => True

/-- The invariant of runs. -/
structure Inv (W : FirmwareWriter) (config : OtaConfig) (v : View) (es : List DownloadEvent) : Prop where
  sameConfig : v.config = config
  device : v.cluster.device = (OtaManager.new [] config).cluster.device
  covers : ∃ p, Covers es p
  consent : ∀ offer, v.acceptedImage = some offer → .accepted offer ∈ es
  pending : v.activationPending = true → v.cluster.state = .done
  suspended : v.suspended = true → (v.cluster.state = .idle ∨ v.cluster.state = .querySent) ∧
    ∃ offer file, Staged W config v.ctx v.writer es offer file ∧ 0 < file.length
  phase : PhaseOk W config v es v.cluster.state

variable {c cluster : OtaCluster} {offset : Nat} {log log' history : List WriterEvent} {m' q : OtaManager} {s : Staging} {total : UInt32}
   {retry : Option BlockRetry} {data : Buf}

open OtaManager

section

variable {W : FirmwareWriter} {config : OtaConfig} {m : OtaManager} {v : View} {es : List DownloadEvent}
  {offer : OtaImageOffer} {file : Buf}

/-! ## The parser under the manager's cluster -/

theorem acceptHeader_congr {c' : OtaCluster} (h : c.validateImageHeader = c'.validateImageHeader) :
    acceptHeader c = acceptHeader c' := by
  funext n buf
  unfold acceptHeader
  rw [h]

theorem writeOtaBlock_congr {c' : OtaCluster} (h : c.validateImageHeader = c'.validateImageHeader) :
    writeOtaBlock W c = writeOtaBlock W c' := by
  have hheader : consumeHeader c = consumeHeader c' := by
    funext data
    unfold consumeHeader
    rw [acceptHeader_congr h]
  have hconsume : consume W c = consume W c' := by
    funext offer rest phase
    cases phase with
    | header => exact congrFun hheader rest
    | subElement => rfl
    | payload => rfl
    | trailer => rfl
  have hpass : parsePass W c = parsePass W c' := by
    funext offer rest
    unfold parsePass
    rw [hconsume]
  funext offset data
  unfold writeOtaBlock
  rw [hpass]

/-- The device's own cluster checks a header like the cluster of the offer. -/
theorem validate_eq (hdevice : c.device = (OtaManager.new [] config).cluster.device) (hcurrent : Current c offer) :
    c.validateImageHeader = (offerCluster config offer).validateImageHeader := by
  simp only [device, Prod.mk.injEq] at hdevice
  obtain ⟨hmanufacturer, htype, -, -, hhardware⟩ := hdevice
  funext header
  unfold validateImageHeader
  rw [hmanufacturer, htype, hhardware, hcurrent.version, hcurrent.size]
  rfl

/-! ## Events -/

def NoErase (log : List WriterEvent) : Prop := ∀ e ∈ log, erases e = false

theorem AcceptedWrites.noErase {bytes : Buf} (h : AcceptedWrites offset log bytes) : NoErase log := by
  induction h with
  | nil => exact nofun
  | cons _ ih =>
    intro e he
    rcases List.mem_cons.mp he with rfl | he
    · rfl
    · exact ih e he

theorem NoErase.append (h : NoErase log) (h' : NoErase log') : NoErase (log ++ log') := by
  intro e he
  rcases List.mem_append.mp he with he | he
  · exact h e he
  · exact h' e he

theorem noErase_single {call : WriterCall} {result : Except FirmwareError Unit} (h : call ≠ .eraseSlot) :
    NoErase [⟨call, result⟩] := by
  intro e he
  rw [List.mem_singleton.mp he]
  cases call with
  | eraseSlot => exact absurd rfl h
  | _ => rfl

/-- Both logs go on from the same calls, and the later one without an erase. -/
def NoEraseSince (log log' : List WriterEvent) : Prop :=
  ∃ history old new, log = history ++ old ∧ log' = history ++ new ∧ NoErase new

theorem starts_eq_nil {m : OtaManager} (h : NoEraseSince m.writer m'.writer) : m.starts m' = [] := by
  obtain ⟨history, old, new, hold, hnew, hlog⟩ := h
  unfold starts
  rw [hold, hnew, List.length_append, ← List.drop_drop, List.drop_left, if_neg]
  intro hany
  obtain ⟨e, he, herase⟩ := List.any_eq_true.mp hany
  rw [hlog e (List.mem_of_mem_drop he)] at herase
  cases herase

theorem NoEraseSince.refl (log : List WriterEvent) : NoEraseSince log log :=
  ⟨log, [], [], (List.append_nil _).symm, (List.append_nil _).symm, nofun⟩

theorem NoEraseSince.of_eq (h : log' = log) : NoEraseSince log log' := by
  rw [h]
  exact .refl log

theorem noEraseSince_append (log : List WriterEvent) {new : List WriterEvent} (h : NoErase new) :
    NoEraseSince log (log ++ new) :=
  ⟨log, [], new, (List.append_nil _).symm, rfl, h⟩

theorem NoEraseSince.append {new : List WriterEvent} (h : NoEraseSince log log') (hnew : NoErase new) :
    NoEraseSince log (log' ++ new) := by
  obtain ⟨history, old, new', hold, hlog', hnoErase⟩ := h
  exact ⟨history, old, new' ++ new, hold, by rw [hlog', List.append_assoc], hnoErase.append hnew⟩

/-- The calls behind the erase of a download write its payload. -/
theorem tracks_writer {pos : Nat} (h : Tracks W cluster offer history file pos s) : ∃ log, s.writer = history ++ log ∧ NoErase log := by
  have hinv := h.phase
  cases hphase : s.ctx.phase <;> rw [hphase] at hinv
  case header =>
    obtain ⟨-, -, -, hclean⟩ := hinv
    exact ⟨[], by rw [List.append_nil]; exact hclean, nofun⟩
  case subElement =>
    obtain ⟨-, -, -, -, hclean⟩ := hinv
    exact ⟨[], by rw [List.append_nil]; exact hclean, nofun⟩
  case payload =>
    obtain ⟨_, -, -, -, -, -, -, log, hlog, hwrites⟩ := hinv
    exact ⟨log, hlog, hwrites.noErase⟩
  case trailer =>
    obtain ⟨_, -, -, -, -, log, hlog, hwrites⟩ := hinv
    exact ⟨log, hlog, hwrites.noErase⟩

theorem agrees_writer {reading : Reading} {out : Outcome FirmwareError Unit} (h : Agrees history reading out s) :
    ∃ log, s.writer = history ++ log ∧ NoErase log := by
  cases h with
  | rejected hlog => exact ⟨[], by rw [List.append_nil]; exact hlog, nofun⟩
  | incomplete hlog _ => exact ⟨[], by rw [List.append_nil]; exact hlog, nofun⟩
  | payload hlog hwrites _ => exact ⟨_, hlog, hwrites.noErase⟩
  | refused hlog hwrites _ =>
    exact ⟨_, hlog.trans (List.append_assoc _ _ _), hwrites.noErase.append (noErase_single fun h => by cases h)⟩

/-! ## Parts of the invariant -/

theorem Inv.notPending (h : Inv W config v es) (hstate : v.cluster.state ≠ .done) : v.activationPending = false := by
  cases hp : v.activationPending with
  | false => rfl
  | true => exact absurd (h.pending hp) hstate

theorem Admissible.mono (h : Admissible config es offer) (e : DownloadEvent) : Admissible config (es ++ [e]) offer :=
  ⟨h.manufacturer, h.imageType, h.newer, fun hauto => List.mem_append_left _ (h.consented hauto)⟩

theorem Staged.accepted {ctx : OtaDownloadCtx} {writer : List WriterEvent} (h : Staged W config ctx writer es offer file)
    (offer' : OtaImageOffer) : Staged W config ctx writer (es ++ [.accepted offer']) offer file :=
  ⟨h.tracks, .accepted offer' h.covers, h.part, h.admissible.mono _⟩

/-- A transfer that goes on: its file, and the offset and size that the cluster has. -/
theorem Inv.position (h : Inv W config v es) (hposition : v.cluster.downloadPosition = some (offset, total)) : v.suspended = false ∧
      ∃ offer file, Staged W config v.ctx v.writer es offer file ∧ Current v.cluster offer ∧ file.length = offset ∧
        offer.imageSize = total := by
  have hphase := h.phase
  unfold downloadPosition at hposition
  cases hstate : v.cluster.state <;> rw [hstate] at hposition hphase <;> cases hposition
  · exact ⟨hphase.1, hphase.2.1⟩
  · exact ⟨hphase.1, hphase.2⟩

/-- A change to a manager that is not inside a transfer afterwards, or whose transfer is shown to be kept. -/
theorem Inv.move (h : Inv W config v es) {v' : View} (hconfig : v'.config = v.config)
    (hdevice : v'.cluster.device = v.cluster.device)
    (haccepted : v'.acceptedImage = v.acceptedImage ∨ v'.acceptedImage = none)
    (hpending : v'.activationPending = true → v'.cluster.state = .done)
    (hsuspended : v'.suspended = true → v.suspended = true ∧ v'.ctx = v.ctx ∧ v'.writer = v.writer ∧
      (v'.cluster.state = .idle ∨ v'.cluster.state = .querySent))
    (hphase : PhaseOk W config v' es v'.cluster.state) : Inv W config v' es := by
  refine ⟨hconfig.trans h.sameConfig, hdevice.trans h.device, h.covers, ?_, hpending, ?_, hphase⟩
  · intro offer hoffer
    rcases haccepted with hsame | hnone
    · exact h.consent offer (hsame ▸ hoffer)
    · rw [hnone] at hoffer
      cases hoffer
  · intro hs
    obtain ⟨hs', hctx, hwriter, hstate⟩ := hsuspended hs
    rw [hctx, hwriter]
    exact ⟨hstate, (h.suspended hs').2⟩

/-! ## Sessions -/

theorem resetSession_inv (h : Inv W config m.view es) : Inv W config m.resetSession.view es := by
  refine h.move rfl rfl (.inr rfl) nofun (fun hs => ?_) trivial
  have hs' : m.suspended = true := hs
  refine ⟨hs, ?_, rfl, .inl rfl⟩
  show (if m.suspended = true then m.downloadCtx else OtaDownloadCtx.new) = m.downloadCtx
  rw [if_pos hs']

theorem abort_inv (h : Inv W config m.view es) : Inv W config (m.abort W).view es :=
  h.move rfl rfl (.inr rfl) nofun nofun trivial

theorem endSession_inv (h : Inv W config m.view es) : Inv W config (m.endSession W).view es := by
  unfold endSession
  split
  · exact resetSession_inv h
  · exact abort_inv h

theorem endSession_writer (m : OtaManager) : NoEraseSince m.writer (m.endSession W).writer := by
  unfold endSession
  split
  · exact .refl _
  · exact noEraseSince_append _ (noErase_single nofun)

/-- A download that can be suspended has staged bytes. -/
theorem suspend_inv (h : Inv W config m.view es) (hcan : m.canSuspend = true) : Inv W config m.suspend.view es := by
  unfold canSuspend at hcan
  rw [Bool.and_eq_true, Bool.and_eq_true, Bool.and_eq_true] at hcan
  obtain ⟨⟨⟨hstate, -⟩, -⟩, hoffset⟩ := hcan
  have hpos : 0 < m.downloadCtx.fileOffset := of_decide_eq_true hoffset
  have hposition : ∃ offset total, m.cluster.downloadPosition = some (offset, total) := by
    unfold downloadPosition
    cases hcase : m.cluster.state <;> rw [hcase] at hstate <;> first | exact ⟨_, _, rfl⟩ | cases hstate
  obtain ⟨offset, total, hposition⟩ := hposition
  obtain ⟨-, offer, file, hstaged, -, -, -⟩ := h.position hposition
  refine ⟨h.sameConfig, h.device, h.covers, nofun, nofun, fun _ => ⟨.inl rfl, offer, file, hstaged, ?_⟩, trivial⟩
  obtain ⟨earlier, htracks⟩ := hstaged.tracks
  have hlen : m.downloadCtx.fileOffset = file.length := htracks.offset
  omega

/-! ## Actions without a write -/

theorem sendQuery_inv (h : Inv W config v es) (m : OtaManager) (hconfig : m.config = v.config)
    (hdevice : m.cluster.device = v.cluster.device) (haccepted : m.acceptedImage = v.acceptedImage)
    (hctx : m.downloadCtx = v.ctx) (hwriter : m.writer = v.writer) (hsuspended : m.suspended = v.suspended)
    (hstate : m.cluster.state = .querySent) (hpending : m.activationPending = false) (req : QueryNextImageRequest) :
    Inv W config (m.leafAction (.sendQuery req)).2.view es := by
  refine h.move hconfig hdevice (.inl haccepted) (fun hp => ?_) (fun hs => ?_) ?_
  · rw [show (m.leafAction (.sendQuery req)).2.view.activationPending = m.activationPending from rfl, hpending] at hp
    cases hp
  · have hs' : m.suspended = true := hs
    refine ⟨hsuspended.symm.trans hs', ?_, hwriter, .inr hstate⟩
    show (if m.suspended = true then m.downloadCtx else OtaDownloadCtx.new) = v.ctx
    rw [if_pos hs', hctx]
  · show PhaseOk W config _ es m.cluster.state
    rw [hstate]
    show m.suspended = true ∨ (if m.suspended = true then m.downloadCtx else OtaDownloadCtx.new) = .new
    by_cases hs : m.suspended = true
    · exact .inl hs
    · rw [if_neg hs]
      exact .inr rfl

theorem fail_inv (h : Inv W config v es) (m : OtaManager) (hconfig : m.config = v.config)
    (hdevice : m.cluster.device = v.cluster.device) (hpending : m.activationPending = false)
    (hsuspended : m.suspended = false) {es' : List DownloadEvent} (hcovers : ∃ p, Covers es' p) :
    Inv W config m.fail.2.view es' := by
  refine ⟨hconfig.trans h.sameConfig, hdevice.trans h.device, hcovers, nofun, fun hp => ?_, fun hs => ?_, trivial⟩
  · rw [show m.fail.2.view.activationPending = m.activationPending from rfl, hpending] at hp
    cases hp
  · rw [show m.fail.2.view.suspended = m.suspended from rfl, hsuspended] at hs
    cases hs

theorem requestBlock_view (m : OtaManager) (req : ImageBlockRequest) (announce : Bool) :
    (m.requestBlock req announce).2.view = { m.view with blockRetry := some ⟨req, m.zclSeq, 0, 0⟩ } := rfl

theorem requestBlock_writer (m : OtaManager) (req : ImageBlockRequest) (announce : Bool) :
    (m.requestBlock req announce).2.writer = m.writer := rfl

/-- The first request of a running download asks for no consent and erases nothing. -/
theorem sendBlockRequest_running {m : OtaManager} (herased : m.downloadCtx.slotErased = true) (hsuspended : m.suspended = false)
    (req : ImageBlockRequest) :
    m.sendBlockRequestAction W req = m.requestBlock req (decide (req.fileOffset = 0) && m.config.autoAccept) := by
  unfold sendBlockRequestAction
  exact if_neg (by rw [herased, hsuspended]; simp)

/-- A download goes on with a request for the byte behind its file. -/
theorem downloading_inv (v₁ : View) (h : Inv W config v es) (hconfig : v₁.config = v.config)
    (hdevice : v₁.cluster.device = v.cluster.device) (hconsent : v₁.acceptedImage = v.acceptedImage)
    (hpending : v₁.activationPending = false) (hsuspended : v₁.suspended = false) {es' : List DownloadEvent}
    (hes : ∀ e ∈ es, e ∈ es') (hstaged : Staged W config v₁.ctx v₁.writer es' offer file) (hcurrent : Current v₁.cluster offer)
    (hstate : v₁.cluster.state = .downloading file.length offer.imageSize) {retry : BlockRetry}
    (hretry : v₁.blockRetry = some retry) (hrequest : retry.request = v₁.cluster.buildBlockRequest file.length) :
    Inv W config v₁ es' := by
  refine ⟨hconfig.trans h.sameConfig, hdevice.trans h.device, ⟨_, hstaged.covers⟩, fun offer hoffer => ?_, fun hp => ?_,
    fun hs => ?_, ?_⟩
  · exact hes _ (h.consent offer (hconsent ▸ hoffer))
  · rw [hpending] at hp
    cases hp
  · rw [hsuspended] at hs
    cases hs
  · rw [hstate]
    exact ⟨hsuspended, ⟨offer, file, hstaged, hcurrent, rfl, rfl⟩, retry, hretry, hrequest⟩

theorem state_of_position (h : c.downloadPosition = some (offset, total)) : c.state ≠ .done := by
  intro hstate
  unfold downloadPosition at h
  rw [hstate] at h
  cases h

theorem again_inv (h : Inv W config m.view es) (hposition : m.cluster.downloadPosition = some (offset, total))
    (hm₁ : q.view = { m.view with cluster := { m.cluster with state := .downloading offset total }, blockRetry := retry }) :
    Inv W config (q.sendBlockRequestAction W (m.cluster.buildBlockRequest offset)).2.view es ∧
      (q.sendBlockRequestAction W (m.cluster.buildBlockRequest offset)).2.writer = m.writer := by
  obtain ⟨hsuspended, offer, file, hstaged, hcurrent, rfl, rfl⟩ := h.position hposition
  obtain ⟨earlier, htracks⟩ := hstaged.tracks
  have hsuspended₁ : q.suspended = false := (congrArg View.suspended hm₁).trans hsuspended
  have herased₁ : q.downloadCtx.slotErased = true :=
    (congrArg OtaDownloadCtx.slotErased (congrArg View.ctx hm₁)).trans htracks.erased
  rw [sendBlockRequest_running herased₁ hsuspended₁, requestBlock_view, hm₁]
  refine ⟨?_, congrArg View.writer hm₁⟩
  exact downloading_inv
    { m.view with
      cluster := { m.cluster with state := .downloading file.length offer.imageSize }
      blockRetry := some ⟨m.cluster.buildBlockRequest file.length, q.zclSeq, 0, 0⟩ }
    h rfl rfl rfl (h.notPending (state_of_position hposition)) hsuspended (fun _ he => he) hstaged
    ⟨hcurrent.version, hcurrent.size⟩ rfl rfl rfl

/-! ## The first request of a download -/

/-- What the operation behind an offer owes. -/
def OfferDone (W : FirmwareWriter) (config : OtaConfig) (m m' : OtaManager) (es : List DownloadEvent) : Prop :=
  Inv W config m'.view (es ++ m.starts m')

theorem offerDone_of_writer (h : Inv W config m'.view es) (hwriter : NoEraseSince m.writer m'.writer) : OfferDone W config m m' es := by
  rw [OfferDone, starts_eq_nil hwriter, List.append_nil]
  exact h

/-- An erased slot, and the first request. -/
theorem fresh_download_inv (h : Inv W config m.view es) (hstate : m.cluster.state = .querySent)
    (hadmissible : Admissible config es offer) (hpositive : offer.imageSize ≠ 0) (q : OtaManager)
    (hconfig : q.config = m.config) (hdevice : q.cluster.device = m.cluster.device)
    (hconsent : q.acceptedImage = m.acceptedImage) (hpending : q.activationPending = m.activationPending)
    (hsuspended : q.suspended = false) (hcurrent : Current q.cluster offer)
    (hstate₁ : q.cluster.state = .downloading 0 offer.imageSize) (hctx : q.downloadCtx = .new)
    (hwriter : NoEraseSince m.writer q.writer) (hgrows : ∃ log, q.writer = m.writer ++ log) (announce : Bool) :
    OfferDone W config m
      (match q.prepareSlot W offer with
      | (.ok (), m) => m.requestBlock (q.cluster.buildBlockRequest 0) announce
      | (.error _, m) => m.fail).2 es := by
  have hnotPending : q.activationPending = false := by
    rw [hpending]
    exact h.notPending (by rw [show m.view.cluster.state = m.cluster.state from rfl, hstate]; nofun)
  unfold prepareSlot
  rw [hctx, if_neg (by decide)]
  unfold callWriter
  cases hanswer : W.answer q.writer .eraseSlot with
  | error e =>
    refine offerDone_of_writer (fail_inv h { q with writer := q.writer ++ [⟨.eraseSlot, .error e⟩] } hconfig hdevice
      hnotPending hsuspended h.covers) ?_
    refine hwriter.append fun e' he' => ?_
    rw [List.mem_singleton.mp he']
    rfl
  | ok u =>
    dsimp only
    obtain ⟨log, hlog⟩ := hgrows
    have hstarts : m.starts (({ q with
        writer := q.writer ++ [⟨.eraseSlot, .ok u⟩],
        downloadCtx := { q.downloadCtx with slotErased := true, offer := some offer } } : OtaManager).requestBlock
          (q.cluster.buildBlockRequest 0) announce).2 = [.started offer] := by
      unfold starts
      rw [requestBlock_writer]
      dsimp only
      rw [hlog, List.append_assoc, List.drop_left, if_pos]
      · rfl
      · rw [List.any_append]
        exact Bool.or_eq_true _ _ |>.mpr (.inr rfl)
    rw [hctx] at hstarts ⊢
    rw [OfferDone, hstarts, requestBlock_view]
    obtain ⟨p, hcovers⟩ := h.covers
    have hstaged : Staged W config (.started offer) (q.writer ++ [⟨.eraseSlot, .ok ()⟩]) (es ++ [.started offer]) offer [] :=
      ⟨⟨q.writer, tracks_started []⟩, .started offer hcovers,
        Nat.pos_of_ne_zero fun h0 => hpositive (UInt32.toNat_inj.mp h0), hadmissible.mono _⟩
    refine downloading_inv _ h hconfig hdevice hconsent hnotPending hsuspended
      (fun e he => List.mem_append_left _ he) hstaged hcurrent hstate₁ rfl ?_
    rfl

/-- An offer that the cluster lets through is admissible once the application's consent is there. -/
theorem admissible_of_offer (h : Inv W config v es) {version size : UInt32} (hversion : v.cluster.currentVersion < version)
    (hconsent : ¬ (v.config.autoAccept = false ∧
      v.acceptedImage ≠ some ⟨v.cluster.manufacturerCode, v.cluster.imageType, version, size⟩)) :
    Admissible config es ⟨v.cluster.manufacturerCode, v.cluster.imageType, version, size⟩ := by
  have hdevice := h.device
  simp only [device, Prod.mk.injEq] at hdevice
  obtain ⟨hmanufacturer, htype, hcurrent, -, -⟩ := hdevice
  have hnew : (OtaManager.new [] config).cluster.manufacturerCode = config.manufacturerCode ∧
      (OtaManager.new [] config).cluster.imageType = config.imageType ∧
      (OtaManager.new [] config).cluster.currentVersion = config.currentVersion := by
    unfold OtaManager.new
    cases config.hardwareVersion <;> exact ⟨rfl, rfl, rfl⟩
  refine ⟨hmanufacturer.trans hnew.1, htype.trans hnew.2.1, ?_, fun hauto => ?_⟩
  · rw [hcurrent, hnew.2.2] at hversion
    exact hversion
  · rw [not_and_not_right] at hconsent
    exact h.consent _ (hconsent (h.sameConfig ▸ hauto))

/-- The writer's log after a suspended download is dropped. -/
theorem discardSuspended_writer (m : OtaManager) :
    NoEraseSince m.writer (m.discardSuspended W).writer ∧ ∃ log, (m.discardSuspended W).writer = m.writer ++ log :=
  ⟨noEraseSince_append _ (noErase_single fun h => by cases h), _, rfl⟩

/-- Managers that differ in their clusters and their retries. -/
theorem fields_of_view {cluster : OtaCluster} (h : q.view = { m.view with cluster, blockRetry := retry }) :
    q.cluster = cluster ∧ q.config = m.config ∧ q.downloadCtx = m.downloadCtx ∧ q.writer = m.writer ∧
      q.acceptedImage = m.acceptedImage ∧ q.activationPending = m.activationPending ∧ q.suspended = m.suspended :=
  ⟨congrArg View.cluster h, congrArg View.config h, congrArg View.ctx h, congrArg View.writer h, congrArg View.acceptedImage h,
    congrArg View.activationPending h, congrArg View.suspended h⟩

theorem offer_inv (h : Inv W config m.view es) (hstate : m.cluster.state = .querySent) {version size : UInt32}
    (hversion : m.cluster.currentVersion < version) (hsize : size ≠ 0) (hm₁ : q.view = { m.view with
      cluster := { m.cluster with targetVersion := version, targetSize := size, state := .downloading 0 size }
      blockRetry := retry }) :
    OfferDone W config m
      (q.sendBlockRequestAction W (buildBlockRequest { m.cluster with targetVersion := version } 0)).2 es := by
  have hphase := h.phase
  rw [show m.view.cluster.state = m.cluster.state from rfl, hstate] at hphase
  obtain ⟨hcluster, hconfig, hctx, hwriter, haccepted, hpending, hsuspended⟩ := fields_of_view hm₁
  have hdevice : q.cluster.device = m.cluster.device := by
    rw [hcluster]
    rfl
  have hnotPending : m.activationPending = false :=
    h.notPending (by rw [show m.view.cluster.state = m.cluster.state from rfl, hstate]; nofun)
  have hoffer : q.requestedOffer (buildBlockRequest { m.cluster with targetVersion := version } 0) =
      ⟨m.cluster.manufacturerCode, m.cluster.imageType, version, size⟩ := by
    unfold requestedOffer
    rw [hcluster]
    rfl
  have hrequest : buildBlockRequest { m.cluster with targetVersion := version } 0 = q.cluster.buildBlockRequest 0 := by
    rw [hcluster]
    rfl
  have hstate₁ : q.cluster.state = .downloading 0 size := by rw [hcluster]
  have hcurrent : Current q.cluster ⟨m.cluster.manufacturerCode, m.cluster.imageType, version, size⟩ := by
    rw [hcluster]
    exact ⟨rfl, rfl⟩
  unfold sendBlockRequestAction
  rw [if_pos ⟨rfl, by
    rw [hctx, hsuspended]
    rcases hphase with hs | hnew
    · exact .inr hs
    · exact .inl (by rw [show m.downloadCtx = .new from hnew]; rfl)⟩, hoffer]
  dsimp only
  by_cases hconsent : q.config.autoAccept = false ∧
      q.acceptedImage ≠ some ⟨m.cluster.manufacturerCode, m.cluster.imageType, version, size⟩
  · rw [if_pos hconsent]
    refine offerDone_of_writer (h.move hconfig hdevice (.inr rfl) (fun hp => ?_) (fun hs => ?_) trivial) ?_
    · rw [show View.activationPending _ = q.activationPending from rfl, hpending, hnotPending] at hp
      cases hp
    · exact ⟨hsuspended.symm.trans hs, hctx, hwriter, .inl rfl⟩
    · exact hwriter ▸ .refl _
  rw [if_neg hconsent]
  rw [hconfig, haccepted] at hconsent
  have hadmissible := admissible_of_offer h hversion hconsent
  unfold resumeOrDiscard
  by_cases hs : q.suspended = true
  · rw [if_pos hs]
    obtain ⟨-, offer', file, hstaged, hpos⟩ := h.suspended (hsuspended.symm.trans hs)
    obtain ⟨earlier, htracks⟩ := hstaged.tracks
    by_cases hsame : q.downloadCtx.offer = some ⟨m.cluster.manufacturerCode, m.cluster.imageType, version, size⟩
    · -- The staged bytes belong to the offered image: the download goes on behind them.
      rw [if_pos hsame]
      rw [hctx, show m.downloadCtx.offer = some offer' from htracks.started, Option.some.injEq] at hsame
      subst hsame
      have hoffset : q.downloadCtx.fileOffset = file.length := by
        rw [hctx]
        exact htracks.offset
      have hresume : q.cluster.resumeDownload q.downloadCtx.fileOffset =
          (.sendBlockRequest (q.cluster.buildBlockRequest file.length),
            { q.cluster with state := .downloading file.length size }) := by
        unfold resumeDownload
        rw [hstate₁, hoffset]
        exact if_pos ⟨hpos, hstaged.part⟩
      rw [hresume]
      dsimp only
      unfold prepareSlot
      rw [if_pos (show q.downloadCtx.slotErased = true by rw [hctx]; exact htracks.erased)]
      refine offerDone_of_writer ?_ (by rw [requestBlock_writer, hwriter]; exact .refl _)
      rw [requestBlock_view]
      refine downloading_inv _ h hconfig hdevice haccepted (hpending.trans hnotPending) rfl (fun _ he => he)
        (?_ : Staged W config q.downloadCtx q.writer es _ file) ⟨hcurrent.version, hcurrent.size⟩ rfl rfl rfl
      rw [hctx, hwriter]
      exact hstaged
    · rw [if_neg hsame, hrequest]
      have hbuild : q.cluster.buildBlockRequest 0 = (q.discardSuspended W).cluster.buildBlockRequest 0 := rfl
      rw [hbuild]
      obtain ⟨hnoErase, hgrows⟩ := discardSuspended_writer (W := W) q
      rw [hwriter] at hnoErase hgrows
      exact fresh_download_inv h hstate hadmissible hsize (q.discardSuspended W) hconfig hdevice haccepted hpending rfl
        hcurrent hstate₁ rfl hnoErase hgrows _
  · rw [if_neg hs, hrequest]
    rw [Bool.not_eq_true] at hs
    have hnew : q.downloadCtx = .new := by
      rw [hctx]
      exact hphase.resolve_left (by rw [show m.view.suspended = m.suspended from rfl, ← hsuspended, hs]; nofun)
    exact fresh_download_inv h hstate hadmissible hsize q hconfig hdevice haccepted hpending hs hcurrent hstate₁ hnew
      (hwriter ▸ .refl _) ⟨[], by rw [hwriter, List.append_nil]⟩ _

/-! ## Blocks -/

theorem orProgress_snd (answer : Answer) (percent : UInt8) : (orProgress answer percent).2 = answer.2 := by
  unfold orProgress
  split <;> rfl

theorem ElementAt.headerAccepted {start : Nat} (h : ElementAt cluster offer file start) : HeaderAccepted cluster file := by
  induction h with
  | first hheader => exact hheader
  | next _ _ _ _ ih => exact ih

/-- A complete payload is the one that the reference parser finds. -/
theorem complete_payload (h : Tracks W cluster offer history file file.length s) (hcomplete : s.ctx.payloadComplete = true) :
    ∃ payload log, referenceParse cluster offer.imageSize W.slotSize file = .payload payload payload.length ∧
      s.ctx.firmwareSize = payload.length ∧ s.writer = history ++ log ∧ AcceptedWrites 0 log payload ∧
      HeaderAccepted cluster file := by
  have hsizes : s.ctx.firmwareWritten = s.ctx.firmwareSize := by
    unfold OtaDownloadCtx.payloadComplete at hcomplete
    rw [Bool.and_eq_true] at hcomplete
    exact of_decide_eq_true hcomplete.2
  have hinv := h.phase
  cases hphase : s.ctx.phase <;> rw [hphase] at hinv
  case header =>
    rw [OtaDownloadCtx.payloadComplete, hphase] at hcomplete
    cases hcomplete
  case subElement =>
    rw [OtaDownloadCtx.payloadComplete, hphase] at hcomplete
    cases hcomplete
  case payload =>
    obtain ⟨start, -, -, hfirmware, hlow, hhigh, hwritten, -⟩ := hinv
    rw [slice_length_of_le (Nat.le_refl _)] at hwritten
    omega
  case trailer =>
    obtain ⟨start, hupgrade, hfirmware, hlow, hwritten, log, hlog, hwrites⟩ := hinv
    refine ⟨_, log, ?_, hsizes ▸ hwritten, hlog, hwrites, hupgrade.element.headerAccepted⟩
    rw [hupgrade.reference, slice_length_of_le hlow, slice,
      show start + 6 + elementLength file start - (start + 6) = elementLength file start by omega]

/-- The next request, or the end of the download. -/
theorem blockWritten_inv (h : Inv W config v es) (hpos : 0 < data.length) (hstaged : Staged W config v.ctx v.writer es offer file)
    (hfits : file.length + data.length ≤ offer.imageSize.toNat) {m : OtaManager} (hconfig : m.config = v.config)
    (hdevice : m.cluster.device = v.cluster.device) (hconsent : m.acceptedImage = v.acceptedImage)
    (hpending : m.activationPending = false) (hsuspended : m.suspended = false) (hcurrent : Current m.cluster offer)
    (hstate : m.cluster.state = .downloading (file.length + data.length) offer.imageSize)
    (htracks : ∃ earlier, Tracks W (offerCluster config offer) offer (earlier ++ [⟨.eraseSlot, .ok ()⟩]) (file ++ data)
      (file ++ data).length ⟨m.downloadCtx, m.writer⟩) :
    Inv W config (m.blockWritten W).2.view (es ++ [.wrote file.length data]) ∧
      ∃ new, (m.blockWritten W).2.writer = m.writer ++ new ∧ NoErase new := by
  have hcovers : Covers (es ++ [.wrote file.length data]) (some (offer, file ++ data)) :=
    .wrote hstaged.covers hpos hfits
  have hadmissible : Admissible config (es ++ [.wrote file.length data]) offer := hstaged.admissible.mono _
  obtain ⟨earlier, htracks⟩ := htracks
  unfold blockWritten isDownloadComplete
  rw [hstate]
  dsimp only
  by_cases hwhole : offer.imageSize.toNat ≤ file.length + data.length
  · rw [if_pos (decide_eq_true hwhole)]
    have hlen : (file ++ data).length = offer.imageSize.toNat := by
      rw [List.length_append]
      omega
    unfold verifyImage
    dsimp only
    by_cases hcomplete : m.downloadCtx.payloadComplete = true
    · rw [if_pos hcomplete]
      obtain ⟨payload, log, hreading, hsize, hwriter, hwrites, hheader⟩ := complete_payload htracks hcomplete
      have hsize' : m.downloadCtx.firmwareSize = payload.length := hsize
      have hwriter' : m.writer = earlier ++ [⟨.eraseSlot, .ok ()⟩] ++ log := hwriter
      unfold callWriter
      dsimp only
      cases hanswer : W.answer m.writer (.verify m.downloadCtx.firmwareSize) with
      | error e =>
        dsimp only
        exact ⟨fail_inv h
          { m with
            cluster := m.cluster.markDownloadComplete
            writer := m.writer ++ [⟨.verify m.downloadCtx.firmwareSize, .error e⟩] }
          hconfig hdevice hpending hsuspended ⟨_, hcovers⟩, _, rfl, noErase_single fun h => by cases h⟩
      | ok u =>
        dsimp only
        rw [orProgress_snd]
        have hverified : Verified W config (m.writer ++ [⟨.verify m.downloadCtx.firmwareSize, .ok u⟩])
            (es ++ [.wrote file.length data]) offer (file ++ data) payload :=
          ⟨⟨earlier, log, by rw [hwriter', hsize'], hwrites⟩, hcovers, hlen, hreading, hheader, hadmissible⟩
        refine ⟨⟨hconfig.trans h.sameConfig, hdevice.trans h.device, ⟨_, hcovers⟩, nofun, fun hp => ?_, fun hs => ?_,
          ⟨offer, file ++ data, payload, hverified⟩⟩, _, rfl, noErase_single fun h => by cases h⟩
        · rw [show View.activationPending _ = m.activationPending from rfl, hpending] at hp
          cases hp
        · rw [show View.suspended _ = m.suspended from rfl, hsuspended] at hs
          cases hs
    · rw [if_neg hcomplete]
      dsimp only
      exact ⟨fail_inv h { m with cluster := m.cluster.markDownloadComplete } hconfig hdevice hpending hsuspended
        ⟨_, hcovers⟩, [], (List.append_nil _).symm, nofun⟩
  · rw [if_neg (by rw [decide_eq_true_iff]; exact hwhole), orProgress_snd]
    unfold nextBlockRequest
    rw [hstate]
    dsimp only
    rw [if_neg hwhole]
    unfold followUpAction
    dsimp only
    rw [sendBlockRequest_running htracks.erased hsuspended, requestBlock_view]
    have hstaged' : Staged W config m.downloadCtx m.writer (es ++ [.wrote file.length data]) offer (file ++ data) :=
      ⟨⟨earlier, htracks⟩, hcovers, by rw [List.length_append]; omega, hadmissible⟩
    refine ⟨downloading_inv _ h hconfig hdevice hconsent hpending hsuspended (fun _ he => List.mem_append_left _ he) hstaged'
      hcurrent ?_ rfl ?_, [], (List.append_nil _).symm, nofun⟩
    · rw [List.length_append]
      exact hstate
    · rw [List.length_append]
      rfl

theorem processAction_written {staging : Staging}
    (h : writeOtaBlock W m.cluster offset data ⟨m.downloadCtx, m.writer⟩ = (.ok (), staging)) :
    m.processAction W (.writeBlock offset data) =
      some (blockWritten W { m with downloadCtx := staging.ctx, writer := staging.writer }) := by
  unfold processAction
  dsimp only
  rw [h]

theorem processAction_refused {staging : Staging} {e : FirmwareError}
    (h : writeOtaBlock W m.cluster offset data ⟨m.downloadCtx, m.writer⟩ = (.error e, staging)) :
    m.processAction W (.writeBlock offset data) =
      some (some .otaFailed, (OtaManager.fail { m with downloadCtx := staging.ctx, writer := staging.writer }).2) := by
  unfold processAction
  dsimp only
  rw [h]

theorem block_inv (h : Inv W config m.view es) (hposition : m.cluster.downloadPosition = some (offset, total)) (hpos : 0 < data.length)
    (hfits : offset + data.length ≤ m.cluster.targetSize.toNat) (hm₁ : q.view = { m.view with
      cluster := { m.cluster with state := .downloading (offset + data.length) m.cluster.targetSize }
      blockRetry := retry }) :
    ∃ answer, q.processAction W (.writeBlock offset data) = some answer ∧
      Inv W config answer.2.view (es ++ [.wrote offset data]) ∧ NoEraseSince m.writer answer.2.writer := by
  obtain ⟨hsuspended, offer, file, hstaged, hcurrent, rfl, rfl⟩ := h.position hposition
  obtain ⟨earlier, htracks⟩ := hstaged.tracks
  have hsize : m.cluster.targetSize = offer.imageSize := hcurrent.size
  rw [hsize] at hfits
  obtain ⟨hcluster, hconfig, hctx, hwriter, haccepted, hpending₁, hsuspended₁⟩ := fields_of_view hm₁
  have hpending : q.activationPending = false := hpending₁.trans (h.notPending (state_of_position hposition))
  replace hsuspended₁ : q.suspended = false := hsuspended₁.trans hsuspended
  have hdevice : q.cluster.device = m.cluster.device := by
    rw [hcluster]
    rfl
  have hcurrent₁ : Current q.cluster offer := by
    rw [hcluster]
    exact ⟨hcurrent.version, hcurrent.size⟩
  have hvalidate := validate_eq (hdevice.trans h.device) hcurrent₁
  have hbound : (file ++ data).length < 2 ^ 32 := by
    have h32 := offer.imageSize.toNat_lt
    rw [List.length_append]
    omega
  have hdata : (file ++ data).drop file.length = data ++ [] := by rw [List.drop_left, List.append_nil]
  have hends := writeOtaBlock_spec (htracks.append data) hdata hbound
  obtain ⟨before, hbefore, -⟩ := tracks_writer htracks
  rw [show (⟨m.view.ctx, m.view.writer⟩ : Staging) = ⟨q.downloadCtx, q.writer⟩ by rw [hctx, hwriter]; rfl,
    ← writeOtaBlock_congr hvalidate] at hends
  unfold Ends at hends
  cases hrun : writeOtaBlock W q.cluster file.length data ⟨q.downloadCtx, q.writer⟩ with
  | mk out staging =>
    rw [hrun] at hends
    cases out with
    | trap => exact hends.elim
    | error e =>
      obtain ⟨log, hlog, hnoErase⟩ := agrees_writer hends
      have hcovers : Covers (es ++ [.wrote file.length data]) (some (offer, file ++ data)) :=
        .wrote hstaged.covers hpos hfits
      exact ⟨_, processAction_refused hrun,
        fail_inv h { q with downloadCtx := staging.ctx, writer := staging.writer } hconfig hdevice hpending hsuspended₁
          ⟨_, hcovers⟩,
        _, before, log, hbefore, hlog, hnoErase⟩
    | ok u =>
      rw [← List.length_append] at hends
      obtain ⟨log, hlog, hnoErase⟩ := tracks_writer hends
      obtain ⟨hinv, new, hnew, hnewNoErase⟩ := blockWritten_inv (W := W) h hpos hstaged hfits
        (m := { q with downloadCtx := staging.ctx, writer := staging.writer })
        hconfig hdevice haccepted hpending
        hsuspended₁ hcurrent₁ (by rw [hcluster, hsize]) ⟨earlier, hends⟩
      refine ⟨_, processAction_written hrun, hinv, ?_⟩
      rw [hnew]
      exact NoEraseSince.append ⟨_, before, log, hbefore, hlog, hnoErase⟩ hnewNoErase

/-! ## Commands and timers -/

theorem random_inv (h : Inv W config m.view es) {random : Option UInt8}
    (hm₁ : q.view = { m.view with cluster := { m.cluster with notifyRandom := random } }) : Inv W config q.view es := by
  rw [hm₁]
  refine ⟨h.sameConfig, h.device, h.covers, h.consent, h.pending, h.suspended, ?_⟩
  have hphase := h.phase
  show PhaseOk W config _ es m.view.cluster.state
  cases hstate : m.view.cluster.state <;> rw [hstate] at hphase
  case downloading =>
    obtain ⟨hs, ⟨offer, file, hstaged, hcurrent, hoffset, htotal⟩, hretry⟩ := hphase
    exact ⟨hs, ⟨offer, file, hstaged, ⟨hcurrent.version, hcurrent.size⟩, hoffset, htotal⟩, hretry⟩
  case waitForData =>
    obtain ⟨hs, offer, file, hstaged, hcurrent, hoffset, htotal⟩ := hphase
    exact ⟨hs, offer, file, hstaged, ⟨hcurrent.version, hcurrent.size⟩, hoffset, htotal⟩
  all_goals exact hphase

/-- A wait inside a transfer. -/
theorem waitForData_inv (h : Inv W config m.view es) (hposition : m.cluster.downloadPosition = some (offset, total))
    {delay elapsed : UInt32} (hm₁ : q.view = { m.view with
      cluster := { m.cluster with state := .waitForData delay elapsed offset total }, blockRetry := retry }) :
    Inv W config q.view es := by
  obtain ⟨hsuspended, offer, file, hstaged, hcurrent, hoffset, htotal⟩ := h.position hposition
  have hpending := h.notPending (state_of_position hposition)
  rw [hm₁]
  refine ⟨h.sameConfig, h.device, h.covers, h.consent, fun hp => ?_, fun hs => ?_, hsuspended, offer, file, hstaged,
    ⟨hcurrent.version, hcurrent.size⟩, hoffset, htotal⟩
  · rw [show View.activationPending _ = m.view.activationPending from rfl, hpending] at hp
    cases hp
  · rw [show View.suspended _ = m.view.suspended from rfl, hsuspended] at hs
    cases hs

/-- A verified image stays verified while its activation is awaited. -/
theorem awaiting_inv (h : Inv W config m.view es) (hverified : ∃ offer file payload, Verified W config m.writer es offer file payload)
    (hstate : m.cluster.state ≠ .idle) (hstate' : m.cluster.state ≠ .querySent) (hconfig : q.config = m.config)
    (hdevice : q.cluster.device = m.cluster.device) (hwriter : q.writer = m.writer)
    (haccepted : q.acceptedImage = m.acceptedImage ∨ q.acceptedImage = none) (hsuspended : q.suspended = m.suspended)
    (hpending : q.activationPending = true → q.cluster.state = .done)
    (hstate₁ : q.cluster.state = .waitingUpgradeCommand ∨ (∃ delay elapsed, q.cluster.state = .waitingUpgrade delay elapsed) ∨
      q.cluster.state = .done) : Inv W config q.view es := by
  refine h.move hconfig hdevice haccepted hpending (fun hs => ?_) ?_
  · rcases (h.suspended (hsuspended.symm.trans hs)).1 with hidle | hquery
    · exact absurd hidle hstate
    · exact absurd hquery hstate'
  · show PhaseOk W config _ es q.cluster.state
    have hverified₁ : ∃ offer file payload, Verified W config q.writer es offer file payload := hwriter ▸ hverified
    rcases hstate₁ with h₁ | ⟨delay, elapsed, h₁⟩ | h₁ <;> rw [h₁]
    · exact hverified₁
    · exact hverified₁
    · exact fun _ => hverified₁

theorem verified_of_waiting (h : Inv W config m.view es)
    (hstate : m.cluster.state = .waitingActivate ∨ m.cluster.state = .waitingUpgradeCommand) :
    (∃ offer file payload, Verified W config m.writer es offer file payload) ∧ m.cluster.state ≠ .idle ∧
      m.cluster.state ≠ .querySent ∧ m.cluster.state ≠ .done := by
  have hphase := h.phase
  rw [show m.view.cluster.state = m.cluster.state from rfl] at hphase
  rcases hstate with hstate | hstate <;> rw [hstate] at hphase ⊢ <;> exact ⟨hphase, nofun, nofun, nofun⟩

/-- **A command of the server keeps the invariant**, whatever the cluster makes of it. -/
theorem command_inv (h : Inv W config m.view es) {action : OtaAction} (hstep : m.cluster.CommandStep action cluster)
    (hm₁ : q.view = { m.view with cluster := cluster, blockRetry := retry })
    (hretry : action = .none → cluster.state = m.cluster.state → retry = m.blockRetry) :
    ∃ answer, q.processAction W action = some answer ∧
      Inv W config answer.2.view (es ++ (written action ++ m.starts answer.2)) := by
  obtain ⟨hcluster, hconfig, hctx, hwriter, haccepted, hpending, hsuspended⟩ := fields_of_view hm₁
  have hdevice : q.cluster.device = m.cluster.device := by rw [hcluster, hstep.device]
  have hquiet {m' : OtaManager} (hwriter' : m'.writer = m.writer) (hinv : Inv W config m'.view es) :
      Inv W config m'.view (es ++ ([] ++ m.starts m')) := by
    rw [starts_eq_nil (hwriter' ▸ .refl _), List.append_nil, List.append_nil]
    exact hinv
  have hnotPending (hstate : m.cluster.state ≠ .done) : q.activationPending ≠ true := fun hp =>
    absurd ((h.notPending hstate).symm.trans (hpending.symm.trans hp)) Bool.false_ne_true
  cases hstep with
  | ignored random =>
    rw [hretry rfl rfl] at hm₁
    exact ⟨_, rfl, hquiet hwriter (random_inv h hm₁)⟩
  | query random hidle =>
    have hnone := hnotPending fun hd => by rcases hidle with hi | hi <;> rw [hi] at hd <;> cases hd
    exact ⟨_, rfl, hquiet hwriter (sendQuery_inv h q hconfig hdevice haccepted hctx hwriter hsuspended
      (by rw [hcluster]) (Bool.not_eq_true _ ▸ hnone) _)⟩
  | noImage hquery =>
    refine ⟨_, rfl, hquiet hwriter (h.move hconfig hdevice (.inl haccepted) (fun hp => ?_) (fun hs => ?_) ?_)⟩
    · exact absurd hp (hnotPending (by rw [hquery]; nofun))
    · exact ⟨hsuspended.symm.trans hs, hctx, hwriter, .inl (congrArg OtaCluster.state hcluster)⟩
    · rw [show View.cluster _ = q.cluster from rfl, hcluster]
      trivial
  | offer version size hquery hversion hsize =>
    exact ⟨_, rfl, offer_inv h hquery hversion hsize hm₁⟩
  | block offset total data hposition hpos hfits =>
    obtain ⟨answer, hanswer, hinv, hnoErase⟩ := block_inv h hposition hpos hfits hm₁
    refine ⟨answer, hanswer, ?_⟩
    rw [starts_eq_nil hnoErase, List.append_nil]
    exact hinv
  | again offset total hposition =>
    obtain ⟨hinv, hwriter'⟩ := again_inv (W := W) h hposition hm₁
    exact ⟨_, rfl, hquiet hwriter' hinv⟩
  | wait offset total delay hposition =>
    exact ⟨_, rfl, hquiet hwriter (waitForData_inv h hposition hm₁)⟩
  | failed status hposition hstatus =>
    obtain ⟨⟨offset, total⟩, hposition⟩ := Option.isSome_iff_exists.mp hposition
    obtain ⟨hs, -⟩ := h.position hposition
    refine ⟨_, rfl, hquiet hwriter (h.move hconfig hdevice (.inr rfl) (fun hp => ?_) (fun hs' => ?_) ?_)⟩
    · exact absurd hp (hnotPending (state_of_position hposition))
    · rw [show View.suspended _ = q.suspended from rfl, hsuspended, show m.suspended = false from hs] at hs'
      cases hs'
    · rw [show View.cluster _ = q.cluster from rfl, hcluster]
      trivial
  | deferred hstate =>
    obtain ⟨hverified, hidle, hquery, hdone⟩ := verified_of_waiting h hstate
    exact ⟨_, rfl, hquiet hwriter (awaiting_inv h hverified hidle hquery hconfig hdevice hwriter (.inl haccepted) hsuspended
      (fun hp => absurd hp (hnotPending hdone)) (.inl (congrArg OtaCluster.state hcluster)))⟩
  | activate hstate =>
    obtain ⟨hverified, hidle, hquery, -⟩ := verified_of_waiting h hstate
    exact ⟨_, rfl, hquiet hwriter (awaiting_inv h hverified hidle hquery hconfig hdevice hwriter (.inr rfl) hsuspended
      (fun _ => congrArg OtaCluster.state hcluster) (.inr (.inr (congrArg OtaCluster.state hcluster))))⟩
  | countDown delay hstate =>
    obtain ⟨hverified, hidle, hquery, hdone⟩ := verified_of_waiting h hstate
    exact ⟨_, rfl, hquiet hwriter (awaiting_inv h hverified hidle hquery hconfig hdevice hwriter (.inl haccepted) hsuspended
      (fun hp => absurd hp (hnotPending hdone)) (.inr (.inl ⟨_, _, congrArg OtaCluster.state hcluster⟩)))⟩

theorem startQuery_inv (h : Inv W config m.view es) :
    ∃ answer, m.startQuery W = some answer ∧ Inv W config answer.2.view es ∧ answer.2.writer = m.writer :=
  ⟨_, rfl, sendQuery_inv h
    { m with responseWaitSecs := 0, blockRetry := none, activationPending := false, cluster := m.cluster.startQuery.2 }
    rfl rfl rfl rfl rfl rfl rfl rfl _, rfl⟩

/-- The application's consent, which no image depends on yet. -/
theorem Inv.accept (h : Inv W config v es) (offer : OtaImageOffer) :
    Inv W config { v with acceptedImage := some offer } (es ++ [.accepted offer]) := by
  obtain ⟨p, hcovers⟩ := h.covers
  have hverified {writer : List WriterEvent} (hv : ∃ offer file payload, Verified W config writer es offer file payload) :
      ∃ offer' file payload, Verified W config writer (es ++ [.accepted offer]) offer' file payload := by
    obtain ⟨offer', file, payload, hv⟩ := hv
    exact ⟨offer', file, payload, hv.calls, .accepted offer hv.covers, hv.whole, hv.reading, hv.header, hv.admissible.mono _⟩
  refine ⟨h.sameConfig, h.device, ⟨p, .accepted offer hcovers⟩, fun offer' hoffer => ?_, h.pending, fun hs => ?_, ?_⟩
  · rw [Option.some.inj hoffer]
    exact List.mem_append_right _ (List.mem_singleton_self _)
  · obtain ⟨hstate, offer', file, hstaged, hpos⟩ := h.suspended hs
    exact ⟨hstate, offer', file, hstaged.accepted offer, hpos⟩
  · have hphase := h.phase
    show PhaseOk W config _ _ v.cluster.state
    cases hstate : v.cluster.state <;> rw [hstate] at hphase
    case downloading =>
      obtain ⟨hs, ⟨offer', file, hstaged, hrest⟩, hretry⟩ := hphase
      exact ⟨hs, ⟨offer', file, hstaged.accepted offer, hrest⟩, hretry⟩
    case waitForData =>
      obtain ⟨hs, offer', file, hstaged, hrest⟩ := hphase
      exact ⟨hs, offer', file, hstaged.accepted offer, hrest⟩
    case querySent => exact hphase
    case waitingActivate => exact hverified hphase
    case waitingUpgradeCommand => exact hverified hphase
    case waitingUpgrade => exact hverified hphase
    case done => exact fun hp => hverified (hphase hp)
    all_goals trivial

theorem tickCluster_inv (h : Inv W config m.view es) (elapsedSecs : UInt16) :
    ∃ answer, m.tickCluster W elapsedSecs = some answer ∧ Inv W config answer.2.view es ∧ answer.2.writer = m.writer := by
  have hstep := m.cluster.tick_step elapsedSecs
  unfold tickCluster
  generalize m.cluster.tick elapsedSecs = r at hstep ⊢
  obtain ⟨action, cluster⟩ := r
  dsimp only at hstep ⊢
  have hretry {q : OtaManager} (hm₁ : Inv W config q.view es) (hwriter : q.writer = m.writer) :
      Inv W config (q.retryOutstanding elapsedSecs).view es ∧ (q.retryOutstanding elapsedSecs).writer = m.writer := by
    unfold retryOutstanding
    split
    · rename_i retry _ hstate hblockRetry
      have hphase := hm₁.phase
      rw [show q.view.cluster.state = q.cluster.state from rfl, hstate] at hphase
      obtain ⟨hs, hstaged, retry', hsame, hrequest⟩ := hphase
      rw [show q.view.blockRetry = q.blockRetry from rfl, hblockRetry, Option.some.injEq] at hsame
      subst hsame
      dsimp only
      split
      all_goals
        refine ⟨⟨hm₁.sameConfig, hm₁.device, hm₁.covers, hm₁.consent, hm₁.pending, hm₁.suspended, ?_⟩, hwriter⟩
        show PhaseOk W config _ es q.cluster.state
        rw [hstate]
        exact ⟨hs, hstaged, _, rfl, hrequest⟩
    · exact ⟨hm₁, hwriter⟩
  cases hstep with
  | idle =>
    rw [if_neg (fun hne => hne rfl)]
    obtain ⟨hinv, hwriter⟩ := hretry h rfl
    exact ⟨_, rfl, hinv, hwriter⟩
  | waiting delay elapsed elapsed' offset total hstate =>
    rw [if_neg (fun hne => hne rfl)]
    have hposition : m.cluster.downloadPosition = some (offset, total) := by
      rw [downloadPosition, hstate]
    obtain ⟨hinv, hwriter⟩ := hretry (waitForData_inv h hposition
      (q := { m with cluster := { m.cluster with state := .waitForData delay elapsed' offset total } }) rfl) rfl
    exact ⟨_, rfl, hinv, hwriter⟩
  | resumed delay elapsed offset total hstate =>
    rw [if_pos nofun]
    have hposition : m.cluster.downloadPosition = some (offset, total) := by
      rw [downloadPosition, hstate]
    obtain ⟨hinv, hwriter⟩ := again_inv (W := W) h hposition
      (q := { m with cluster := { m.cluster with state := .downloading offset total } }) rfl
    exact ⟨_, rfl, hinv, hwriter⟩
  | counting delay elapsed elapsed' hstate =>
    rw [if_neg (fun hne => hne rfl)]
    have hphase := h.phase
    rw [show m.view.cluster.state = m.cluster.state from rfl, hstate] at hphase
    have hnotPending : m.activationPending = false :=
      h.notPending (by rw [show m.view.cluster.state = m.cluster.state from rfl, hstate]; nofun)
    obtain ⟨hinv, hwriter⟩ := hretry (awaiting_inv h hphase (by rw [hstate]; nofun) (by rw [hstate]; nofun)
      (q := { m with cluster := { m.cluster with state := .waitingUpgrade delay elapsed' } }) rfl rfl rfl (.inl rfl) rfl
      (fun hp => absurd (hnotPending.symm.trans hp) nofun) (.inr (.inl ⟨_, _, rfl⟩))) rfl
    exact ⟨_, rfl, hinv, hwriter⟩
  | activate delay elapsed hstate =>
    rw [if_pos nofun]
    have hphase := h.phase
    rw [show m.view.cluster.state = m.cluster.state from rfl, hstate] at hphase
    exact ⟨_, rfl, awaiting_inv h hphase (by rw [hstate]; nofun) (by rw [hstate]; nofun)
      (q := { m with
        cluster := { m.cluster with state := .done }
        blockRetry := none
        acceptedImage := none
        activationPending := true }) rfl rfl rfl (.inr rfl) rfl (fun _ => rfl) (.inr (.inr rfl)), rfl⟩

theorem endResponseTimeout_inv (h : Inv W config m.view es) (hstate : m.cluster.state = .waitingActivate) :
    Inv W config m.endResponseTimeout.2.view es ∧ m.endResponseTimeout.2.writer = m.writer := by
  unfold endResponseTimeout
  split
  · refine ⟨⟨h.sameConfig, h.device, h.covers, h.consent, fun hp => ?_, fun hs => ?_, ?_⟩, rfl⟩
    · exact absurd (h.pending hp) (by rw [show m.view.cluster.state = m.cluster.state from rfl, hstate]; nofun)
    · obtain ⟨hidle | hquery, -⟩ := h.suspended hs
      · exact absurd (hstate.symm.trans hidle) nofun
      · exact absurd (hstate.symm.trans hquery) nofun
    · have hphase := h.phase
      rw [show m.view.cluster.state = m.cluster.state from rfl, hstate] at hphase
      exact hphase
  · exact ⟨resetSession_inv (m := { m with responseWaitSecs := 0 }) h, rfl⟩

theorem tickAwaiting_inv (h : Inv W config m.view es) (elapsedSecs : UInt16) :
    ∃ answer, m.tickAwaiting W elapsedSecs = some answer ∧ Inv W config answer.2.view es ∧
      NoEraseSince m.writer answer.2.writer := by
  unfold tickAwaiting
  split
  · split
    · rename_i hstate
      obtain ⟨hinv, hwriter⟩ := endResponseTimeout_inv h hstate
      exact ⟨_, rfl, hinv, .of_eq hwriter⟩
    · split
      · rename_i hcan
        exact ⟨_, rfl, suspend_inv h hcan, .refl _⟩
      · exact ⟨_, rfl, endSession_inv h, endSession_writer m⟩
  · obtain ⟨answer, hanswer, hinv, hwriter⟩ := tickCluster_inv h elapsedSecs
    exact ⟨answer, hanswer, hinv, .of_eq hwriter⟩

theorem tick_inv (h : Inv W config m.view es) (elapsedSecs : UInt16) :
    ∃ answer, m.tick W elapsedSecs = some answer ∧ Inv W config answer.2.view es ∧ NoEraseSince m.writer answer.2.writer := by
  unfold OtaManager.tick
  split
  · exact tickAwaiting_inv
      (m := { m with responseWaitSecs := saturatingAdd m.responseWaitSecs elapsedSecs.toUInt32 }) h elapsedSecs
  · obtain ⟨answer, hanswer, hinv, hwriter⟩ := tickCluster_inv (m := { m with responseWaitSecs := 0 }) h elapsedSecs
    exact ⟨answer, hanswer, hinv, .of_eq hwriter⟩

theorem handleIncoming_inv (h : Inv W config m.view es) (cmdId : UInt8) (payload : Buf) (zclSeq : Option UInt8) :
    ∃ answer, m.handleIncoming W cmdId payload zclSeq = some answer ∧
      Inv W config answer.2.view (es ++ (m.writes (.incoming cmdId payload zclSeq) ++ m.starts answer.2)) := by
  unfold handleIncoming writes
  dsimp only
  by_cases hstale : m.staleRefusal cmdId payload zclSeq = true
  · rw [if_pos hstale, if_pos (.inl hstale)]
    refine ⟨_, rfl, ?_⟩
    rw [starts_eq_nil (.refl _), List.append_nil, List.append_nil]
    exact h
  by_cases habort : m.abortedByServer cmdId payload = true
  · rw [if_neg hstale, if_pos habort, if_pos (.inr habort)]
    have hcan : m.canSuspend = true := by
      unfold abortedByServer at habort
      rw [Bool.and_eq_true] at habort
      exact habort.2
    refine ⟨_, rfl, ?_⟩
    rw [show m.starts (some StackEvent.otaFailed, m.suspend).2 = [] from starts_eq_nil (.refl _), List.append_nil,
      List.append_nil]
    exact suspend_inv h hcan
  rw [if_neg hstale, if_neg habort, if_neg (not_or.mpr ⟨hstale, habort⟩)]
  have hstep := m.cluster.dispatch_step cmdId payload
  unfold processServerCommand
  generalize m.cluster.dispatch cmdId payload = r at hstep ⊢
  obtain ⟨action, cluster⟩ := r
  dsimp only at hstep ⊢
  by_cases haccepted : action ≠ .none ∨ cluster.state ≠ m.cluster.state
  · rw [if_pos (decide_eq_true haccepted)]
    refine command_inv h hstep
      (q := { m with cluster := cluster, responseWaitSecs := 0, pendingFrame := none, blockRetry := none }) rfl ?_
    intro hnone hsame
    rcases haccepted with hne | hne
    · exact absurd hnone hne
    · exact absurd hsame hne
  · rw [if_neg (by rw [decide_eq_true_iff]; exact haccepted)]
    exact command_inv h hstep (q := { m with cluster := cluster }) rfl fun _ _ => rfl

/-! ## Runs -/

/-- An operation that neither erases nor writes, and that the application does not consent with. -/
theorem events_eq_nil {m : OtaManager} {op : Op} (hwrites : m.writes op = []) (hconsents : m.consents op = [])
    (hactivations : m.activations op = []) (hwriter : NoEraseSince m.writer m'.writer) : m.events m' op = [] := by
  rw [events, hwrites, hconsents, hactivations, starts_eq_nil hwriter]
  rfl

theorem state_of_answer {x : Option Answer} {answer : Answer} (h : x = some answer) : x.map (·.2) = some answer.2 := by
  rw [h]
  rfl

/-- **No operation panics, and each keeps the invariant.** -/
theorem step_spec (h : Inv W config m.view es) (op : Op) :
    ∃ m', m.step W op = some m' ∧ Inv W config m'.view (es ++ m.events m' op) := by
  have hquiet {m' : OtaManager} {op : Op} (hinv : Inv W config m'.view es) (hevents : m.events m' op = []) :
      Inv W config m'.view (es ++ m.events m' op) := by
    rw [hevents, List.append_nil]
    exact hinv
  cases op with
  | startQuery =>
    obtain ⟨answer, hanswer, hinv, hwriter⟩ := startQuery_inv (W := W) h
    exact ⟨_, state_of_answer hanswer, hquiet hinv (events_eq_nil rfl rfl rfl (.of_eq hwriter))⟩
  | acceptOta =>
    cases hoffered : m.offeredImage with
    | none =>
      refine ⟨m, ?_, hquiet h (events_eq_nil rfl ?_ rfl (.refl _))⟩
      · show (m.acceptOta W).map (·.2) = some m
        unfold acceptOta
        rw [hoffered]
        rfl
      · rw [consents, hoffered]
        rfl
    | some offer =>
      obtain ⟨answer, hanswer, hinv, hwriter⟩ := startQuery_inv (W := W)
        (m := { m with offeredImage := none, acceptedImage := some offer }) (h.accept offer)
      have hstep : m.step W .acceptOta = some answer.2 := by
        show (m.acceptOta W).map (·.2) = some answer.2
        unfold acceptOta
        rw [hoffered]
        exact state_of_answer hanswer
      refine ⟨answer.2, hstep, ?_⟩
      have hstarts : m.starts answer.2 = [] := starts_eq_nil (.of_eq hwriter)
      have hevents : m.events answer.2 .acceptOta = [.accepted offer] := by
        rw [events, consents, hoffered, hstarts]
        rfl
      rw [hevents]
      exact hinv
  | incoming cmdId payload zclSeq =>
    obtain ⟨answer, hanswer, hinv⟩ := handleIncoming_inv (W := W) h cmdId payload zclSeq
    refine ⟨_, state_of_answer hanswer, ?_⟩
    have hevents : m.events answer.2 (.incoming cmdId payload zclSeq) =
        m.writes (.incoming cmdId payload zclSeq) ++ m.starts answer.2 := by
      show m.writes (.incoming cmdId payload zclSeq) ++ [] ++ [] ++ m.starts answer.2 = _
      rw [List.append_nil, List.append_nil]
    rw [hevents]
    exact hinv
  | tick elapsedSecs =>
    obtain ⟨answer, hanswer, hinv, hwriter⟩ := tick_inv (W := W) h elapsedSecs
    exact ⟨_, state_of_answer hanswer, hquiet hinv (events_eq_nil rfl rfl rfl hwriter)⟩
  | takePendingFrame => exact ⟨_, rfl, hquiet (show Inv W config m.takePendingFrame.view _ from h) (events_eq_nil rfl rfl rfl (.refl _))⟩
  | requeuePendingFrame frame =>
    refine ⟨_, rfl, ?_⟩
    have hview : (m.requeuePendingFrame frame).view = m.view := by
      unfold requeuePendingFrame
      split <;> rfl
    exact hquiet (by rw [hview]; exact h) (events_eq_nil rfl rfl rfl (.of_eq (congrArg View.writer hview)))
  | activate =>
    refine ⟨m.activate W, rfl, ?_⟩
    unfold activate
    by_cases hp : m.activationPending = true
    · rw [if_pos hp]
      have hwriter : NoEraseSince m.writer ({ m with activationPending := false } : OtaManager).writer := .refl _
      have hevents : m.events (callWriter W { m with activationPending := false } .activate).2 .activate =
          [.activated] := by
        rw [events, activations, if_pos hp,
          starts_eq_nil (noEraseSince_append _ (noErase_single fun h => by cases h))]
        rfl
      rw [hevents]
      have hdone : m.cluster.state = .done := h.pending hp
      obtain ⟨p, hcovers⟩ := h.covers
      refine ⟨h.sameConfig, h.device, ⟨p, .activated hcovers⟩, fun offer hoffer => ?_, nofun, fun hs => ?_, ?_⟩
      · exact List.mem_append_left _ (h.consent offer hoffer)
      · obtain ⟨hidle | hquery, -⟩ := h.suspended hs
        · exact absurd (hdone.symm.trans hidle) nofun
        · exact absurd (hdone.symm.trans hquery) nofun
      · show PhaseOk W config _ _ m.cluster.state
        rw [hdone]
        exact nofun
    · rw [if_neg hp]
      exact hquiet h (events_eq_nil rfl rfl (if_neg hp) (.refl _))
  | abort =>
    exact ⟨_, rfl, hquiet (abort_inv h)
      (events_eq_nil rfl rfl rfl (noEraseSince_append _ (noErase_single fun h => by cases h)))⟩
  | endSession => exact ⟨_, rfl, hquiet (endSession_inv h) (events_eq_nil rfl rfl rfl (endSession_writer m))⟩
  | setNotifyRandom random =>
    exact ⟨_, rfl, hquiet (random_inv h (q := { m with cluster := m.cluster.setNotifyRandom random }) rfl)
      (events_eq_nil rfl rfl rfl (.refl _))⟩

theorem new_inv (writer : List WriterEvent) : Inv W config (OtaManager.new writer config).view [] := by
  have hstate : (OtaManager.new writer config).cluster.state = .idle := by
    unfold OtaManager.new
    cases config.hardwareVersion <;> rfl
  refine ⟨rfl, rfl, ⟨none, .nil⟩, nofun, nofun, nofun, ?_⟩
  rw [show (OtaManager.new writer config).view.cluster.state = _ from hstate]
  trivial

/-- **No run panics, and every run keeps the invariant.** -/
theorem run_spec (h : Inv W config m.view es) (ops : List Op) :
    ∃ last es', m.run W ops = some (last, es') ∧ Inv W config last.view (es ++ es') := by
  induction ops generalizing m es with
  | nil => exact ⟨m, [], rfl, by rw [List.append_nil]; exact h⟩
  | cons op ops ih =>
    obtain ⟨m', hstep, hinv⟩ := step_spec h op
    obtain ⟨last, es', hrun, hlast⟩ := ih hinv
    refine ⟨last, m.events m' op ++ es', ?_, by rw [← List.append_assoc]; exact hlast⟩
    rw [OtaManager.run, hstep, Option.bind_eq_bind, Option.bind_some, hrun]
    rfl

/-! ## Results -/

/-- What a run guarantees of its downloads. -/
structure DownloadGoesOn (m : OtaManager) (es : List DownloadEvent) : Prop where
  /-- The blocks of every download are in order, without a gap, and inside the offered size. -/
  inOrder : ∃ p, Covers es p
  /-- A download that is not at its end asks for the byte behind its last block. -/
  asks : ∀ offset totalSize, m.cluster.state = .downloading offset totalSize → offset < totalSize.toNat →
    m.downloadCtx.fileOffset = offset ∧
    (∃ retry, m.blockRetry = some retry ∧ retry.request = m.cluster.buildBlockRequest offset) ∧
    ∃ offer file, Covers es (some (offer, file)) ∧ file.length = offset ∧ offer.imageSize = totalSize
  /-- The blocks behind a verified image are the whole file. -/
  whole : m.cluster.state = .waitingActivate →
    ∃ offer file, Covers es (some (offer, file)) ∧ file.length = offer.imageSize.toNat

theorem Inv.goesOn (h : Inv W config m.view es) : DownloadGoesOn m es := by
  have hphase := h.phase
  refine ⟨h.covers, fun offset totalSize hstate _ => ?_, fun hstate => ?_⟩
  · rw [show m.view.cluster.state = _ from hstate] at hphase
    obtain ⟨-, ⟨offer, file, hstaged, -, hoffset, htotal⟩, hretry⟩ := hphase
    obtain ⟨earlier, htracks⟩ := hstaged.tracks
    exact ⟨htracks.offset.trans hoffset, hretry, offer, file, hstaged.covers, hoffset, htotal⟩
  · rw [show m.view.cluster.state = _ from hstate] at hphase
    obtain ⟨offer, file, payload, hverified⟩ := hphase
    exact ⟨offer, file, hverified.covers, hverified.whole⟩

/-- What the writer and the trace say about an image that is activated. -/
structure ActivationSafe (W : FirmwareWriter) (config : OtaConfig) (m : OtaManager) (es : List DownloadEvent)
    (offer : OtaImageOffer) (file payload : Buf) : Prop where
  /-- Since the last erase: the writes of the payload without a gap, then its verification. -/
  calls : ∃ earlier log, m.writer =
      earlier ++ [⟨.eraseSlot, .ok ()⟩] ++ log ++ [⟨.verify payload.length, .ok ()⟩] ∧ AcceptedWrites 0 log payload
  /-- The accepted blocks are the file, and the payload is that of its first Upgrade Image. -/
  blocks : Covers es (some (offer, file))
  reading : referenceParse (offerCluster config offer) offer.imageSize W.slotSize file = .payload payload payload.length
  /-- The header is that of the offered image. -/
  header : ∃ header n, OtaImageHeader.parse (file.take (headerLen file)) = .ok (header, n) ∧
    header.manufacturerCode = offer.manufacturerCode ∧ header.imageType = offer.imageType ∧
    header.fileVersion = offer.fileVersion ∧ header.totalImageSize = offer.imageSize
  newer : config.currentVersion < offer.fileVersion
  consented : config.autoAccept = false → .accepted offer ∈ es

theorem offerCluster_identity (config : OtaConfig) (offer : OtaImageOffer) :
    (offerCluster config offer).manufacturerCode = config.manufacturerCode ∧
      (offerCluster config offer).imageType = config.imageType := by
  unfold offerCluster OtaManager.new
  cases config.hardwareVersion <;> exact ⟨rfl, rfl⟩

theorem Verified.activationSafe {payload : Buf} (h : Verified W config m.writer es offer file payload) :
    ActivationSafe W config m es offer file payload := by
  refine ⟨h.calls, h.covers, h.reading, ?_, h.admissible.newer, h.admissible.consented⟩
  obtain ⟨⟨header, n⟩, hparse, hvalid, -⟩ := h.header.header
  obtain ⟨hmanufacturer, htype⟩ := offerCluster_identity config offer
  unfold validateImageHeader at hvalid
  rw [Bool.and_eq_true, Bool.and_eq_true, Bool.and_eq_true, Bool.and_eq_true] at hvalid
  obtain ⟨⟨⟨⟨hm, ht⟩, hv⟩, hs⟩, -⟩ := hvalid
  refine ⟨header, n, hparse, ?_, ?_, of_decide_eq_true hv, of_decide_eq_true hs⟩
  · exact (of_decide_eq_true hm).trans (hmanufacturer.trans h.admissible.manufacturer.symm)
  · exact (of_decide_eq_true ht).trans (htype.trans h.admissible.imageType.symm)

end

/-- **A download never stalls silently and never skips bytes**, in any run. -/
theorem download_never_stalls (W : FirmwareWriter) (config : OtaConfig) (writer : List WriterEvent) (ops : List Op) :
    ∃ m es, (OtaManager.new writer config).run W ops = some (m, es) ∧ DownloadGoesOn m es := by
  obtain ⟨m, es, hrun, hinv⟩ := run_spec (new_inv (W := W) writer) ops
  exact ⟨m, es, hrun, Inv.goesOn hinv⟩

/-- **An image that is activated is the one that was offered, whole and verified**, in any run. -/
theorem activation_is_safe (W : FirmwareWriter) (config : OtaConfig) (writer : List WriterEvent) (ops : List Op) :
    ∃ m es, (OtaManager.new writer config).run W ops = some (m, es) ∧
      ((m.activate W).writer ≠ m.writer → ∃ offer file payload, ActivationSafe W config m es offer file payload) := by
  obtain ⟨m, es, hrun, hinv⟩ := run_spec (new_inv (W := W) writer) ops
  refine ⟨m, es, hrun, fun hreached => ?_⟩
  have hpending : m.activationPending = true := by
    by_contra hp
    exact hreached (by rw [activate, if_neg hp])
  have hphase := hinv.phase
  rw [show m.view.cluster.state = .done from hinv.pending hpending] at hphase
  obtain ⟨offer, file, payload, hverified⟩ := hphase hpending
  exact ⟨offer, file, payload, hverified.activationSafe⟩

def smallConfig : OtaConfig := ⟨0x1234, 1, 1, 1, 48, true, none⟩

def smallBlock (offset : UInt8) (data : Buf) : Op :=
  .incoming 0x05 ([0, 0x34, 0x12, 1, 0, 2, 0, 0, 0, offset, 0, 0, 0, UInt8.ofNat data.length] ++ data) none

/-- A download of `smallImage` in two blocks. -/
def smallDownload : List Op :=
  [.startQuery, .incoming 0x02 [0, 0x34, 0x12, 1, 0, 2, 0, 0, 0, 65, 0, 0, 0] none, smallBlock 0 (smallImage.take 48),
    smallBlock 48 (smallImage.drop 48), .incoming 0x07 [0x34, 0x12, 1, 0, 2, 0, 0, 0, 0, 0, 0, 0, 0, 0, 0, 0] none]

theorem small_image_activated : ∃ m es, (OtaManager.new [] smallConfig).run acceptingWriter smallDownload = some (m, es) ∧
    (m.activate acceptingWriter).writer ≠ m.writer ∧
    ∃ offer file payload, ActivationSafe acceptingWriter smallConfig m es offer file payload := by
  obtain ⟨m, es, hrun, hsafe⟩ := activation_is_safe acceptingWriter smallConfig [] smallDownload
  have hpending : ((OtaManager.new [] smallConfig).run acceptingWriter smallDownload).map (·.1.activationPending) = some true := by
    decide +kernel
  have hcalled : (m.activate acceptingWriter).writer ≠ m.writer := by
    rw [hrun] at hpending
    rw [activate, if_pos (Option.some.inj hpending)]
    simp [callWriter]
  exact ⟨m, es, hrun, hcalled, hsafe hcalled⟩

end Zigbee.Runtime.Ota
