import Zigbee.Lib.Machine
import Zigbee.Zcl.OtaCluster

/-!
# The streaming parser of OTA files

`write_ota_block` of `zigbee-runtime/src/ota.rs`: blocks of an OTA file go through a bounded parser, and
the payload of the first Upgrade Image element goes to the firmware writer.

* `FirmwareWriter`, `OtaDownloadCtx`, `Staging` — the writer with the log of its calls, and the parser.
* `writeOtaBlock`, `feed` — the code, block by block.
* `referenceParse` — the parser over the whole file.
* `Tracks` — the state of the parser behind the first bytes of a file; `writeOtaBlock_spec` keeps it.
* `ota_parsing_independent_of_blocks` — every cut of a file is parsed as the reference parser does.
-/

namespace Zigbee.Runtime.Ota

open Bytes Checked Machine Zigbee.Zcl

/-! ## The firmware writer -/

inductive FirmwareError where
  | eraseFailed
  | writeFailed
  | verifyFailed
  | outOfRange
  | imageTooLarge
  | activateFailed
  | hardwareError
  deriving DecidableEq

inductive WriterCall where
  | eraseSlot
  | writeBlock (offset : Nat) (data : Buf)
  | verify (expectedSize : Nat)
  | activate
  | abort
  deriving DecidableEq

/-- A call and its answer. -/
structure WriterEvent where
  call : WriterCall
  result : Except FirmwareError Unit

/-- A platform's writer: its answer to a call may depend on all calls before it. -/
structure FirmwareWriter where
  answer : List WriterEvent → WriterCall → Except FirmwareError Unit
  slotSize : UInt32

/-! ## The parser -/

/-- `OTA_HEADER_BUFFER` -/
def OTA_HEADER_BUFFER : Nat := 128

/-- `OTA_TAG_UPGRADE_IMAGE` -/
def OTA_TAG_UPGRADE_IMAGE : UInt16 := 0x0000

/-- `OTA_SUB_ELEMENT_HEADER_LEN` -/
def OTA_SUB_ELEMENT_HEADER_LEN : Nat := 6

structure OtaImageOffer where
  manufacturerCode : UInt16
  imageType : UInt16
  fileVersion : UInt32
  imageSize : UInt32
  deriving DecidableEq

inductive OtaParsePhase where
  | header
  | subElement
  | payload
  | trailer
  deriving DecidableEq

structure OtaDownloadCtx where
  phase : OtaParsePhase
  headerBuf : Buf
  fileOffset : Nat
  nextElement : Nat
  payloadStart : Nat
  firmwareSize : Nat
  firmwareWritten : Nat
  slotErased : Bool
  offer : Option OtaImageOffer
  deriving DecidableEq

def OtaDownloadCtx.new : OtaDownloadCtx where
  phase := .header
  headerBuf := []
  fileOffset := 0
  nextElement := 0
  payloadStart := 0
  firmwareSize := 0
  firmwareWritten := 0
  slotErased := false
  offer := none

def OtaDownloadCtx.payloadComplete (ctx : OtaDownloadCtx) : Bool :=
  (decide (ctx.phase = .payload) || decide (ctx.phase = .trailer)) && decide (0 < ctx.firmwareSize) &&
    decide (ctx.firmwareWritten = ctx.firmwareSize)

/-- The context behind a successful erase. -/
def OtaDownloadCtx.started (offer : OtaImageOffer) : OtaDownloadCtx := { OtaDownloadCtx.new with slotErased := true, offer := some offer }

/-- The parser and the writer of a download. -/
structure Staging where
  ctx : OtaDownloadCtx
  writer : List WriterEvent

/-- `heapless::Vec::extend_from_slice`, which leaves a vector alone that has no room. -/
def extendFromSlice (capacity : Nat) (buf data : Buf) : Buf := if buf.length + data.length ≤ capacity then buf ++ data else buf

abbrev Step := Machine Staging FirmwareError

def updateCtx (f : OtaDownloadCtx → OtaDownloadCtx) : Step Unit := modify fun s => { s with ctx := f s.ctx }

section

variable (W : FirmwareWriter) (cluster : OtaCluster)

/-- `self.writer.write_block` -/
def writeBlock (offset : Nat) (data : Buf) : Step Unit := fun s =>
  match W.answer s.writer (.writeBlock offset data) with
  | .ok () => (.ok (), { s with writer := s.writer ++ [⟨.writeBlock offset data, .ok ()⟩] })
  | .error e => (.error e, { s with writer := s.writer ++ [⟨.writeBlock offset data, .error e⟩] })

/-- The number of header bytes to buffer. -/
def headerTarget (buf : Buf) : Step Nat :=
  if buf.length < 8 then pure 8
  else if (u16At buf 6).toNat < OTA_HEADER_MIN_SIZE ∨ OTA_HEADER_BUFFER < (u16At buf 6).toNat then fail .verifyFailed
  else pure (u16At buf 6).toNat

/-- The checks of a whole header. -/
def acceptHeader (n : Nat) (buf : Buf) : Step Nat :=
  match OtaImageHeader.parse buf with
  | .error _ => fail .verifyFailed
  | .ok (header, _) =>
    if cluster.validateImageHeader header = false ∨ header.totalImageSize.toNat < header.headerLength.toNat then
      fail .verifyFailed
    else do
      updateCtx fun ctx => { ctx with headerBuf := [], nextElement := header.headerLength.toNat, phase := .subElement }
      pure n

def consumeHeader (data : Buf) : Step Nat := do
  let s ← get
  let target ← headerTarget s.ctx.headerBuf
  let room ← sub target s.ctx.headerBuf.length
  updateCtx fun ctx =>
    { ctx with headerBuf := extendFromSlice OTA_HEADER_BUFFER ctx.headerBuf (data.take (min data.length room)) }
  let s ← get
  if s.ctx.headerBuf.length < 8 ∨ s.ctx.headerBuf.length < target ∨ target = 8 then pure (min data.length room)
  else acceptHeader cluster (min data.length room) s.ctx.headerBuf

/-- The checks of a whole sub-element header. -/
def acceptSubElement (offer : OtaImageOffer) (n : Nat) (tag : UInt16) (length : UInt32) : Step Nat := do
  let s ← get
  -- Both additions are checked ones, and one that overflows is refused like an end behind the image.
  if offer.imageSize.toNat < s.ctx.nextElement + OTA_SUB_ELEMENT_HEADER_LEN + length.toNat then fail .verifyFailed
  else if tag = OTA_TAG_UPGRADE_IMAGE then
    if length = 0 then fail .verifyFailed
    else if W.slotSize < length then fail .imageTooLarge
    else do
      let start ← add (2 ^ 32) s.ctx.nextElement OTA_SUB_ELEMENT_HEADER_LEN
      updateCtx fun ctx => { ctx with payloadStart := start, firmwareSize := length.toNat, phase := .payload }
      pure n
  else do
    updateCtx fun ctx => { ctx with nextElement := s.ctx.nextElement + OTA_SUB_ELEMENT_HEADER_LEN + length.toNat }
    pure n

def consumeSubElement (data : Buf) (offer : OtaImageOffer) : Step Nat := do
  let s ← get
  if s.ctx.fileOffset < s.ctx.nextElement then do
    let rest ← sub s.ctx.nextElement s.ctx.fileOffset
    pure (min data.length rest)
  else do
    let want ← sub OTA_SUB_ELEMENT_HEADER_LEN s.ctx.headerBuf.length
    updateCtx fun ctx =>
      { ctx with headerBuf := extendFromSlice OTA_HEADER_BUFFER ctx.headerBuf (data.take (min data.length want)) }
    let s ← get
    if s.ctx.headerBuf.length < OTA_SUB_ELEMENT_HEADER_LEN then pure (min data.length want)
    else do
      updateCtx fun ctx => { ctx with headerBuf := [] }
      acceptSubElement W offer (min data.length want) (u16At s.ctx.headerBuf 0) (u32At s.ctx.headerBuf 2)

/-- The payload arm of the loop. -/
def consumePayload (rest : Buf) : Step Nat := do
  let s ← get
  let payloadEnd ← add (2 ^ 32) s.ctx.payloadStart s.ctx.firmwareSize
  if payloadEnd ≤ s.ctx.fileOffset then do
    updateCtx fun ctx => { ctx with phase := .trailer }
    pure 0
  else do
    let left ← sub payloadEnd s.ctx.fileOffset
    let flashOffset ← sub s.ctx.fileOffset s.ctx.payloadStart
    writeBlock W flashOffset (rest.take (min rest.length left))
    let written ← add (2 ^ 32) flashOffset (min rest.length left)
    updateCtx fun ctx => { ctx with firmwareWritten := written }
    let stop ← add (2 ^ 32) s.ctx.fileOffset (min rest.length left)
    updateCtx fun ctx => if stop = payloadEnd then { ctx with phase := .trailer } else ctx
    pure (min rest.length left)

/-- The `match` of the loop: the number of bytes that are consumed. -/
def consume (offer : OtaImageOffer) (rest : Buf) : OtaParsePhase → Step Nat
  | .header => consumeHeader cluster rest
  | .subElement => consumeSubElement W rest offer
  | .payload => consumePayload W rest
  | .trailer => pure rest.length

/-- `&rest[consumed..]` -/
def sliceFrom (rest : Buf) (consumed : Nat) : Step Buf := if consumed ≤ rest.length then pure (rest.drop consumed) else trap

/-- One pass of the loop: the bytes that it leaves. -/
def parsePass (offer : OtaImageOffer) (rest : Buf) : Step Buf := do
  let s ← get
  let consumed ← consume W cluster offer rest s.ctx.phase
  let left ← sliceFrom rest consumed
  let offset ← add (2 ^ 32) s.ctx.fileOffset consumed
  updateCtx fun ctx => { ctx with fileOffset := offset }
  pure left

/-- `write_ota_block`; the fuel is twice what its passes need. -/
def writeOtaBlock (otaOffset : Nat) (data : Buf) : Step Unit := do
  let s ← get
  match s.ctx.offer with
  | none => fail .verifyFailed
  | some offer =>
    if otaOffset ≠ s.ctx.fileOffset then fail .verifyFailed
    else do
      let _ ← whileLoop (fun rest => !rest.isEmpty) (parsePass W cluster offer) (2 * data.length + 2) data
      pure ()

/-- The blocks of a file one after the other, up to the first that is refused. -/
def feed (offset : Nat) : List Buf → Step Unit
  | [] => pure ()
  | data :: blocks => do
    writeOtaBlock W cluster offset data
    feed (offset + data.length) blocks

end

/-! ## The reference parser -/

/-- What a file holds, as far as it goes. -/
inductive Reading where
  | rejected (e : FirmwareError)
  /-- The file ends before the payload. -/
  | incomplete
  /-- The bytes of the payload, and how many of them its element declares. -/
  | payload (bytes : Buf) (declared : Nat)
  deriving DecidableEq

def elementLength (file : Buf) (start : Nat) : Nat := (u32At file (start + 2)).toNat

/-- The elements from `start` on, up to the first Upgrade Image. -/
def referenceElements (imageSize slotSize : UInt32) (file : Buf) (start : Nat) : Reading :=
  if file.length < start + 6 then .incomplete
  else if imageSize.toNat < start + 6 + elementLength file start then .rejected .verifyFailed
  else if u16At file start = OTA_TAG_UPGRADE_IMAGE then
    if elementLength file start = 0 then .rejected .verifyFailed
    else if slotSize.toNat < elementLength file start then .rejected .imageTooLarge
    else .payload ((file.drop (start + 6)).take (elementLength file start)) (elementLength file start)
  else referenceElements imageSize slotSize file (start + 6 + elementLength file start)
termination_by file.length - start

/-- The header length that a file declares. -/
def headerLen (file : Buf) : Nat := (u16At file 6).toNat

/-- A header of the declared length, then the elements. A file that ends with its header length is not judged. -/
def referenceParse (cluster : OtaCluster) (imageSize slotSize : UInt32) (file : Buf) : Reading :=
  if file.length ≤ 8 then .incomplete
  else if headerLen file < OTA_HEADER_MIN_SIZE ∨ OTA_HEADER_BUFFER < headerLen file then .rejected .verifyFailed
  else if file.length < headerLen file then .incomplete
  else
    match OtaImageHeader.parse (file.take (headerLen file)) with
    | .error _ => .rejected .verifyFailed
    | .ok (header, _) =>
      if cluster.validateImageHeader header = false ∨ header.totalImageSize.toNat < header.headerLength.toNat then
        .rejected .verifyFailed
      else referenceElements imageSize slotSize file (headerLen file)

/-- Accepted writes without a gap from `offset` on, and their bytes. -/
inductive AcceptedWrites : Nat → List WriterEvent → Buf → Prop
  | nil (offset : Nat) : AcceptedWrites offset [] []
  | cons {offset : Nat} {data bytes : Buf} {log : List WriterEvent} :
      AcceptedWrites (offset + data.length) log bytes →
        AcceptedWrites offset (⟨.writeBlock offset data, .ok ()⟩ :: log) (data ++ bytes)

/-- How feeding ends, by what the file holds; `history` are the calls of the writer before it. -/
inductive Agrees (history : List WriterEvent) : Reading → Outcome FirmwareError Unit → Staging → Prop
  | rejected {e : FirmwareError} {s : Staging} : s.writer = history → Agrees history (.rejected e) (.error e) s
  | incomplete {s : Staging} :
      s.writer = history → s.ctx.payloadComplete = false → Agrees history .incomplete (.ok ()) s
  | payload {bytes : Buf} {declared : Nat} {log : List WriterEvent} {s : Staging} :
      s.writer = history ++ log → AcceptedWrites 0 log bytes →
        (s.ctx.payloadComplete = true ↔ bytes.length = declared) → Agrees history (.payload bytes declared) (.ok ()) s
  /-- The writer refuses a write. -/
  | refused {bytes written data : Buf} {declared : Nat} {log : List WriterEvent} {e : FirmwareError} {s : Staging} :
      s.writer = history ++ log ++ [⟨.writeBlock written.length data, .error e⟩] → AcceptedWrites 0 log written →
        written ++ data <+: bytes → Agrees history (.payload bytes declared) (.error e) s

variable {bytes : Buf}

theorem AcceptedWrites.snoc {offset : Nat} {log : List WriterEvent} (h : AcceptedWrites offset log bytes) (data : Buf) :
    AcceptedWrites offset (log ++ [⟨.writeBlock (offset + bytes.length) data, .ok ()⟩]) (bytes ++ data) := by
  induction h with
  | nil offset => simpa using AcceptedWrites.cons (AcceptedWrites.nil (offset + data.length))
  | @cons offset first bytes log _ ih =>
    rw [List.length_append, ← Nat.add_assoc, List.append_assoc]
    exact .cons ih

/-! ## What the parser knows behind a part of a file -/

variable {file : Buf} {start : Nat}

section

variable (W : FirmwareWriter) (cluster : OtaCluster) (offer : OtaImageOffer)

/-- The header of the file is whole and accepted. -/
structure HeaderAccepted (file : Buf) : Prop where
  least : OTA_HEADER_MIN_SIZE ≤ headerLen file
  most : headerLen file ≤ OTA_HEADER_BUFFER
  whole : headerLen file ≤ file.length
  header : ∃ r, OtaImageHeader.parse (file.take (headerLen file)) = .ok r ∧ cluster.validateImageHeader r.1 = true ∧
    r.1.headerLength.toNat ≤ r.1.totalImageSize.toNat

/-- An element header starts at the offset, behind elements that are no Upgrade Image. -/
inductive ElementAt (file : Buf) : Nat → Prop
  | first : HeaderAccepted cluster file → ElementAt file (headerLen file)
  | next {start : Nat} : ElementAt file start → start + 6 ≤ file.length →
      start + 6 + elementLength file start ≤ offer.imageSize.toNat → u16At file start ≠ OTA_TAG_UPGRADE_IMAGE →
        ElementAt file (start + 6 + elementLength file start)

/-- The Upgrade Image of the file. -/
structure UpgradeAt (file : Buf) (start : Nat) : Prop where
  element : ElementAt cluster offer file start
  whole : start + 6 ≤ file.length
  fits : start + 6 + elementLength file start ≤ offer.imageSize.toNat
  tag : u16At file start = OTA_TAG_UPGRADE_IMAGE
  nonempty : 0 < elementLength file start
  slot : elementLength file start ≤ W.slotSize.toNat

theorem HeaderAccepted.reference (h : HeaderAccepted cluster file) :
    referenceParse cluster offer.imageSize W.slotSize file =
      referenceElements offer.imageSize W.slotSize file (headerLen file) := by
  obtain ⟨r, hparse, hvalid, hlen⟩ := h.header
  have hleast := h.least
  have hmost := h.most
  have hwhole := h.whole
  unfold OTA_HEADER_MIN_SIZE at hleast
  unfold referenceParse
  rw [if_neg (by omega), if_neg (by unfold OTA_HEADER_MIN_SIZE; omega), if_neg (by omega), hparse]
  dsimp only
  rw [if_neg (by rw [hvalid]; simp; omega)]

theorem ElementAt.reference (h : ElementAt cluster offer file start) :
    referenceParse cluster offer.imageSize W.slotSize file = referenceElements offer.imageSize W.slotSize file start := by
  induction h with
  | first hheader => exact hheader.reference W cluster offer
  | next _ hlen hfits htag ih =>
    rw [ih, referenceElements, if_neg (by omega), if_neg (by omega), if_neg htag]

theorem UpgradeAt.reference (h : UpgradeAt W cluster offer file start) :
    referenceParse cluster offer.imageSize W.slotSize file =
      .payload ((file.drop (start + 6)).take (elementLength file start)) (elementLength file start) := by
  have hpos := h.nonempty
  have hwhole := h.whole
  have hfits := h.fits
  have hslot := h.slot
  rw [h.element.reference W cluster offer, referenceElements, if_neg (by omega), if_neg (by omega), if_pos h.tag,
    if_neg (by omega), if_neg (by omega)]

/-! ### Longer files -/

theorem headerLen_append (h : 8 ≤ file.length) (more : Buf) : headerLen (file ++ more) = headerLen file := by
  unfold headerLen u16At
  rw [u8At_append_left (by omega), u8At_append_left (by omega)]

theorem elementLength_append (h : start + 6 ≤ file.length) (more : Buf) :
    elementLength (file ++ more) start = elementLength file start := by
  unfold elementLength u32At
  rw [u8At_append_left (by omega), u8At_append_left (by omega), u8At_append_left (by omega), u8At_append_left (by omega)]

theorem elementTag_append (h : start + 6 ≤ file.length) (more : Buf) : u16At (file ++ more) start = u16At file start := by
  unfold u16At
  rw [u8At_append_left (by omega), u8At_append_left (by omega)]

theorem HeaderAccepted.append (h : HeaderAccepted cluster file) (more : Buf) :
    HeaderAccepted cluster (file ++ more) ∧ headerLen (file ++ more) = headerLen file := by
  have hleast := h.least
  have hwhole := h.whole
  unfold OTA_HEADER_MIN_SIZE at hleast
  have hlong : 8 ≤ file.length := by omega
  have hlen := headerLen_append hlong more
  refine ⟨?_, hlen⟩
  constructor
  · rw [hlen]
    exact h.least
  · rw [hlen]
    exact h.most
  · rw [hlen, List.length_append]
    omega
  · rw [hlen, List.take_append_of_le_length hwhole]
    exact h.header

theorem ElementAt.append (h : ElementAt cluster offer file start) (more : Buf) : ElementAt cluster offer (file ++ more) start := by
  induction h with
  | first hheader =>
    rw [← (hheader.append cluster more).2]
    exact .first (hheader.append cluster more).1
  | next _ hlen hfits htag ih =>
    rw [← elementLength_append hlen more] at hfits ⊢
    rw [← elementTag_append hlen more] at htag
    exact .next ih (by rw [List.length_append]; omega) hfits htag

theorem UpgradeAt.append (h : UpgradeAt W cluster offer file start) (more : Buf) :
    UpgradeAt W cluster offer (file ++ more) start ∧ elementLength (file ++ more) start = elementLength file start := by
  have hlen := elementLength_append h.whole more
  refine ⟨?_, hlen⟩
  constructor
  · exact h.element.append cluster offer more
  · rw [List.length_append]
    exact Nat.le_add_right_of_le h.whole
  · rw [hlen]
    exact h.fits
  · rw [elementTag_append h.whole more]
    exact h.tag
  · rw [hlen]
    exact h.nonempty
  · rw [hlen]
    exact h.slot

end

/-! ## The parser behind the first bytes of a file -/

variable {buf data : Buf} {n i : Nat}

section

variable (W : FirmwareWriter) (cluster : OtaCluster) (offer : OtaImageOffer) (history : List WriterEvent)

/-- Nothing of the payload is written. -/
def Untouched (s : Staging) : Prop := s.ctx.firmwareWritten = 0 ∧ s.writer = history

/-- The bytes of the payload that are written. -/
def Written (s : Staging) (bytes : Buf) : Prop :=
  s.ctx.firmwareWritten = bytes.length ∧ ∃ log, s.writer = history ++ log ∧ AcceptedWrites 0 log bytes

def PhaseInv (file : Buf) (pos : Nat) (s : Staging) : OtaParsePhase → Prop
  | .header => s.ctx.headerBuf = slice file 0 pos ∧
      (8 < pos → OTA_HEADER_MIN_SIZE ≤ headerLen file ∧ headerLen file ≤ OTA_HEADER_BUFFER ∧ pos < headerLen file) ∧
      Untouched history s
  | .subElement => ElementAt cluster offer file s.ctx.nextElement ∧
      s.ctx.headerBuf = slice file s.ctx.nextElement pos ∧ pos < s.ctx.nextElement + 6 ∧ Untouched history s
  | .payload => ∃ start, UpgradeAt W cluster offer file start ∧ s.ctx.payloadStart = start + 6 ∧
      s.ctx.firmwareSize = elementLength file start ∧ start + 6 ≤ pos ∧ pos < start + 6 + elementLength file start ∧
      Written history s (slice file (start + 6) pos)
  | .trailer => ∃ start, UpgradeAt W cluster offer file start ∧ s.ctx.firmwareSize = elementLength file start ∧
      start + 6 + elementLength file start ≤ pos ∧
      Written history s (slice file (start + 6) (start + 6 + elementLength file start))

/-- The parser has consumed the first `pos` bytes of the file. -/
structure Tracks (file : Buf) (pos : Nat) (s : Staging) : Prop where
  started : s.ctx.offer = some offer
  erased : s.ctx.slotErased = true
  offset : s.ctx.fileOffset = pos
  within : pos ≤ file.length
  phase : PhaseInv W cluster offer history file pos s s.ctx.phase

/-- What one arm of the loop owes when `rest` is before it. -/
def Consumed (file : Buf) (pos : Nat) (rest : Buf) : Outcome FirmwareError Nat → Staging → Prop
  | .ok n, s => 0 < n ∧ n ≤ rest.length ∧ s.ctx.offer = some offer ∧ s.ctx.slotErased = true ∧
      PhaseInv W cluster offer history file (pos + n) s s.ctx.phase
  | .error e, s => Agrees history (referenceParse cluster offer.imageSize W.slotSize file) (.error e) s
  | .trap, _ => False

/-- What a whole pass owes. -/
def PassEnds (file : Buf) (pos : Nat) (rest : Buf) : Outcome FirmwareError Buf → Staging → Prop
  | .ok left, s => ∃ n, 0 < n ∧ n ≤ rest.length ∧ left = rest.drop n ∧ Tracks W cluster offer history file (pos + n) s
  | .error e, s => Agrees history (referenceParse cluster offer.imageSize W.slotSize file) (.error e) s
  | .trap, _ => False

variable {W cluster offer history} {file rest after : Buf} {pos : Nat} {s : Staging}

theorem extendFromSlice_eq {capacity : Nat} (h : buf.length + data.length ≤ capacity) :
    extendFromSlice capacity buf data = buf ++ data := by
  rw [extendFromSlice, if_pos h]

theorem headerTarget_short (h : buf.length < 8) : headerTarget buf s = (.ok 8, s) := by
  rw [headerTarget, if_pos h]
  rfl

theorem headerTarget_declared (h : ¬ buf.length < 8) (hleast : OTA_HEADER_MIN_SIZE ≤ headerLen buf)
    (hmost : headerLen buf ≤ OTA_HEADER_BUFFER) : headerTarget buf s = (.ok (headerLen buf), s) := by
  rw [headerTarget, if_neg h, if_neg (by unfold headerLen at hleast hmost; omega)]
  rfl

theorem headerTarget_refused (h : ¬ buf.length < 8) (hbad : headerLen buf < OTA_HEADER_MIN_SIZE ∨ OTA_HEADER_BUFFER < headerLen buf) :
    headerTarget buf s = (.error .verifyFailed, s) := by
  unfold headerLen at hbad
  rw [headerTarget, if_neg h, if_pos hbad]
  rfl

theorem acceptHeader_spec (hpos : 0 < n) (hn : n ≤ rest.length) (hlen : pos + n ≤ file.length) (hstop : pos + n = headerLen file)
    (hleast : OTA_HEADER_MIN_SIZE ≤ headerLen file) (hmost : headerLen file ≤ OTA_HEADER_BUFFER) (hoffer : s.ctx.offer = some offer)
    (herased : s.ctx.slotErased = true) (hclean : Untouched history s) :
    Ends (acceptHeader cluster n (file.take (headerLen file))) s (Consumed W cluster offer history file pos rest) := by
  have hmin : OTA_HEADER_MIN_SIZE = 56 := rfl
  have hread : referenceParse cluster offer.imageSize W.slotSize file =
      match OtaImageHeader.parse (file.take (headerLen file)) with
      | .error _ => .rejected .verifyFailed
      | .ok (header, _) =>
        if cluster.validateImageHeader header = false ∨ header.totalImageSize.toNat < header.headerLength.toNat then
          .rejected .verifyFailed
        else referenceElements offer.imageSize W.slotSize file (headerLen file) := by
    rw [referenceParse, if_neg (by omega), if_neg (by omega), if_neg (by omega)]
  unfold acceptHeader
  cases hparse : OtaImageHeader.parse (file.take (headerLen file)) with
  | error e =>
    rw [hparse] at hread
    refine ends_of_eq rfl ?_
    rw [Consumed, hread]
    exact .rejected hclean.2
  | ok r =>
    obtain ⟨header, size⟩ := r
    rw [hparse] at hread
    dsimp only at hread ⊢
    by_cases hbad : cluster.validateImageHeader header = false ∨ header.totalImageSize.toNat < header.headerLength.toNat
    · rw [if_pos hbad] at hread ⊢
      refine ends_of_eq rfl ?_
      rw [Consumed, hread]
      exact .rejected hclean.2
    · rw [if_neg hbad]
      rw [not_or, Bool.not_eq_false, Nat.not_lt] at hbad
      have hdeclared : header.headerLength.toNat = headerLen file := by
        rw [OtaImageHeader.parse_headerLength hparse, headerLen]
        have h8 : (u16At (slice file 0 (headerLen file)) 6).toNat = (u16At file (0 + 6)).toNat := by
          rw [u16At_slice (by omega)]
        exact h8
      refine ends_of_eq rfl ⟨hpos, hn, hoffer, herased, ?_⟩
      refine ⟨?_, ?_, ?_, hclean⟩
      · show ElementAt cluster offer file header.headerLength.toNat
        rw [hdeclared]
        exact .first ⟨hleast, hmost, by omega, _, hparse, hbad.1, hbad.2⟩
      · show [] = slice file header.headerLength.toNat (pos + n)
        rw [hdeclared, hstop, slice, Nat.sub_self, List.take_zero]
      · show pos + n < header.headerLength.toNat + 6
        omega

/-- The buffer behind one more piece of the file. -/
theorem extend_slice (hrest : file.drop pos = rest ++ after) (hi : i ≤ pos) (hn : n ≤ rest.length) (hpos : pos ≤ file.length)
    (hroom : pos - i + n ≤ OTA_HEADER_BUFFER) :
    extendFromSlice OTA_HEADER_BUFFER (slice file i pos) (rest.take n) = slice file i (pos + n) := by
  rw [extendFromSlice_eq, slice_append_take hi hrest hn]
  rw [slice_length_of_le hpos, List.length_take]
  omega

theorem length_of_drop (hrest : file.drop pos = rest ++ after) (hpos : pos ≤ file.length) :
    pos + rest.length ≤ file.length := by
  have h := congrArg List.length hrest
  rw [List.length_drop, List.length_append] at h
  omega

theorem headerLen_slice (h : 8 ≤ pos) : headerLen (slice file 0 pos) = headerLen file := by
  have h8 : u16At (slice file 0 pos) 6 = u16At file (0 + 6) := u16At_slice (by omega)
  rw [headerLen, h8, headerLen]

theorem consumeHeader_spec (h : Tracks W cluster offer history file pos s) (hphase : s.ctx.phase = .header)
    (hrest : file.drop pos = rest ++ after) (hne : 0 < rest.length) :
    Ends (consumeHeader cluster rest) s (Consumed W cluster offer history file pos rest) := by
  have hmin : OTA_HEADER_MIN_SIZE = 56 := rfl
  have hmax : OTA_HEADER_BUFFER = 128 := rfl
  have hinv := h.phase
  rw [hphase] at hinv
  obtain ⟨hbuf, hdeclared, hclean⟩ := hinv
  have hlen : (slice file 0 pos).length = pos := slice_length_of_le h.within
  have hbound := length_of_drop hrest h.within
  by_cases hshort : pos < 8
  · have hrun : consumeHeader cluster rest s =
        (.ok (min rest.length (8 - pos)), { s with ctx := { s.ctx with
          headerBuf := slice file 0 (pos + min rest.length (8 - pos)) } }) := by
      unfold consumeHeader updateCtx
      rw [get_bind, hbuf, bind_ok (headerTarget_short (by omega)), sub_ok (by omega), modify_bind, get_bind,
        if_pos (.inr (.inr rfl)), pure_run]
      dsimp only
      rw [hbuf, hlen, extend_slice hrest (Nat.zero_le pos) (Nat.min_le_left _ _) h.within (by omega)]
    refine ends_of_eq hrun ⟨by omega, Nat.min_le_left _ _, h.started, h.erased, ?_⟩
    show PhaseInv W cluster offer history file _ _ s.ctx.phase
    rw [hphase]
    exact ⟨rfl, fun h8 => absurd h8 (by omega), hclean⟩
  · have hheaderLen : headerLen (slice file 0 pos) = headerLen file := headerLen_slice (by omega)
    by_cases hok : OTA_HEADER_MIN_SIZE ≤ headerLen file ∧ headerLen file ≤ OTA_HEADER_BUFFER
    · obtain ⟨hleast, hmost⟩ := hok
      have hpos : pos < headerLen file := by
        by_cases h8 : 8 < pos
        · exact (hdeclared h8).2.2
        · omega
      have htarget : headerTarget (slice file 0 pos) s = (.ok (headerLen file), s) := by
        rw [← hheaderLen] at hleast hmost ⊢
        exact headerTarget_declared (by omega) hleast hmost
      unfold consumeHeader updateCtx
      rw [Ends, get_bind, hbuf, bind_ok htarget, sub_ok (by omega), modify_bind, get_bind]
      have hextend := extend_slice (n := min rest.length (headerLen file - pos)) hrest (Nat.zero_le pos)
        (Nat.min_le_left _ _) h.within (by omega)
      have hextended : (slice file 0 (pos + min rest.length (headerLen file - pos))).length =
          pos + min rest.length (headerLen file - pos) := slice_length_of_le (by omega)
      simp only [hbuf, hlen, hextend, hextended]
      by_cases hwhole : pos + min rest.length (headerLen file - pos) < headerLen file
      · rw [if_pos (by omega)]
        refine ⟨by omega, Nat.min_le_left _ _, h.started, h.erased, ?_⟩
        show PhaseInv W cluster offer history file _ _ s.ctx.phase
        rw [hphase]
        exact ⟨rfl, fun _ => ⟨hleast, hmost, hwhole⟩, hclean⟩
      · have hstop : pos + min rest.length (headerLen file - pos) = headerLen file := by omega
        rw [if_neg (by omega), hstop]
        exact acceptHeader_spec (by omega) (Nat.min_le_left _ _) (by omega) hstop hleast hmost h.started h.erased hclean
    · have hbad : headerLen file < OTA_HEADER_MIN_SIZE ∨ OTA_HEADER_BUFFER < headerLen file := by omega
      have hrun : consumeHeader cluster rest s = (.error .verifyFailed, s) := by
        unfold consumeHeader
        rw [get_bind, hbuf]
        rw [← hheaderLen] at hbad
        exact bind_error (headerTarget_refused (by omega) hbad)
      have hread : referenceParse cluster offer.imageSize W.slotSize file = .rejected .verifyFailed := by
        rw [referenceParse, if_neg (by omega), if_pos hbad]
      refine ends_of_eq hrun ?_
      rw [Consumed, hread]
      exact .rejected hclean.2

theorem slice_empty {l : Buf} {j : Nat} (h : j ≤ i) : slice l i j = [] := by
  rw [slice, Nat.sub_eq_zero_of_le h, List.take_zero]

theorem acceptSubElement_spec (hn : 0 < n) (hle : n ≤ rest.length) (hlen : pos + n ≤ file.length)
    (hstart : ElementAt cluster offer file s.ctx.nextElement) (hstop : pos + n = s.ctx.nextElement + 6)
    (hphase : s.ctx.phase = .subElement) (hempty : s.ctx.headerBuf = []) (hoffer : s.ctx.offer = some offer)
    (herased : s.ctx.slotErased = true) (hclean : Untouched history s) (hsize : file.length < 2 ^ 32) :
    Ends (acceptSubElement W offer n (u16At file s.ctx.nextElement) (u32At file (s.ctx.nextElement + 2))) s
      (Consumed W cluster offer history file pos rest) := by
  have hread := hstart.reference W cluster offer
  rw [referenceElements, if_neg (by omega)] at hread
  have helement : (u32At file (s.ctx.nextElement + 2)).toNat = elementLength file s.ctx.nextElement := rfl
  unfold acceptSubElement OTA_SUB_ELEMENT_HEADER_LEN updateCtx
  rw [Ends, get_bind, helement]
  by_cases hfits : offer.imageSize.toNat < s.ctx.nextElement + 6 + elementLength file s.ctx.nextElement
  · rw [if_pos hfits] at hread ⊢
    show Agrees history (referenceParse cluster offer.imageSize W.slotSize file) _ s
    rw [hread]
    exact .rejected hclean.2
  rw [if_neg hfits] at hread ⊢
  by_cases htag : u16At file s.ctx.nextElement = OTA_TAG_UPGRADE_IMAGE
  · rw [if_pos htag] at hread ⊢
    by_cases hzero : elementLength file s.ctx.nextElement = 0
    · rw [if_pos hzero] at hread
      rw [if_pos (UInt32.toNat_inj.mp (show (u32At file (s.ctx.nextElement + 2)).toNat = (0 : UInt32).toNat from hzero))]
      show Agrees history (referenceParse cluster offer.imageSize W.slotSize file) _ s
      rw [hread]
      exact .rejected hclean.2
    rw [if_neg hzero] at hread
    rw [if_neg fun h0 => hzero (by rw [← helement, h0]; rfl)]
    by_cases hslot : W.slotSize.toNat < elementLength file s.ctx.nextElement
    · rw [if_pos hslot] at hread
      rw [if_pos (UInt32.lt_iff_toNat_lt.mpr hslot)]
      show Agrees history (referenceParse cluster offer.imageSize W.slotSize file) _ s
      rw [hread]
      exact .rejected hclean.2
    rw [if_neg fun h => hslot (UInt32.lt_iff_toNat_lt.mp h), add_ok (by omega), modify_bind]
    refine ⟨hn, hle, hoffer, herased, s.ctx.nextElement, ?_, rfl, rfl, by omega, by omega, ?_⟩
    · exact ⟨hstart, by omega, by omega, htag, by omega, by omega⟩
    · rw [slice_empty (by omega)]
      exact ⟨hclean.1, [], by rw [List.append_nil]; exact hclean.2, .nil 0⟩
  · rw [if_neg htag, modify_bind]
    refine ⟨hn, hle, hoffer, herased, ?_⟩
    show PhaseInv W cluster offer history file _ _ s.ctx.phase
    rw [hphase]
    refine ⟨hstart.next (by omega) (by omega) htag, ?_, ?_, hclean⟩
    · show s.ctx.headerBuf = slice file (s.ctx.nextElement + 6 + elementLength file s.ctx.nextElement) (pos + n)
      rw [hempty, slice_empty (by omega)]
    · show pos + n < s.ctx.nextElement + 6 + elementLength file s.ctx.nextElement + 6
      omega

theorem consumeSubElement_spec (h : Tracks W cluster offer history file pos s) (hphase : s.ctx.phase = .subElement)
    (hrest : file.drop pos = rest ++ after) (hne : 0 < rest.length) (hsize : file.length < 2 ^ 32) :
    Ends (consumeSubElement W rest offer) s (Consumed W cluster offer history file pos rest) := by
  have hlenHeader : OTA_SUB_ELEMENT_HEADER_LEN = 6 := rfl
  have hmax : OTA_HEADER_BUFFER = 128 := rfl
  have hinv := h.phase
  rw [hphase] at hinv
  obtain ⟨hstart, hbuf, hnear, hclean⟩ := hinv
  have hbound := length_of_drop hrest h.within
  unfold consumeSubElement updateCtx
  rw [Ends, get_bind, h.offset]
  by_cases hskip : pos < s.ctx.nextElement
  · rw [if_pos hskip, sub_ok (by omega)]
    refine ⟨by omega, Nat.min_le_left _ _, h.started, h.erased, ?_⟩
    show PhaseInv W cluster offer history file _ s s.ctx.phase
    rw [hphase]
    refine ⟨hstart, ?_, by omega, hclean⟩
    rw [hbuf, slice_empty (by omega), slice_empty (by omega)]
  · have hlen : (slice file s.ctx.nextElement pos).length = pos - s.ctx.nextElement := slice_length_of_le h.within
    have hextend := extend_slice (n := min rest.length (6 - (pos - s.ctx.nextElement))) hrest
      (show s.ctx.nextElement ≤ pos by omega) (Nat.min_le_left _ _) h.within (by omega)
    have hextended : (slice file s.ctx.nextElement (pos + min rest.length (6 - (pos - s.ctx.nextElement)))).length =
        pos + min rest.length (6 - (pos - s.ctx.nextElement)) - s.ctx.nextElement := slice_length_of_le (by omega)
    rw [if_neg hskip, hbuf, hlen, sub_ok (by omega), modify_bind, get_bind]
    simp only [hbuf, hlenHeader, hextend, hextended]
    by_cases hwhole : pos + min rest.length (6 - (pos - s.ctx.nextElement)) < s.ctx.nextElement + 6
    · rw [if_pos (by omega)]
      refine ⟨by omega, Nat.min_le_left _ _, h.started, h.erased, ?_⟩
      show PhaseInv W cluster offer history file _ _ s.ctx.phase
      rw [hphase]
      exact ⟨hstart, rfl, hwhole, hclean⟩
    · have hstop : pos + min rest.length (6 - (pos - s.ctx.nextElement)) = s.ctx.nextElement + 6 := by omega
      rw [if_neg (by omega), modify_bind, hstop, u16At_slice (by omega), u32At_slice (by omega)]
      exact acceptSubElement_spec (by omega) (Nat.min_le_left _ _) (by omega) hstart hstop hphase rfl h.started h.erased
        hclean hsize

/-- One more accepted write. -/
theorem Written.snoc (h : Written history s bytes) {s' : Staging} (hwritten : s'.ctx.firmwareWritten = bytes.length + data.length)
    (hwriter : s'.writer = s.writer ++ [⟨.writeBlock bytes.length data, .ok ()⟩]) : Written history s' (bytes ++ data) := by
  obtain ⟨-, log, hlog, haccepted⟩ := h
  refine ⟨by rw [hwritten, List.length_append], log ++ [⟨.writeBlock (0 + bytes.length) data, .ok ()⟩], ?_, haccepted.snoc data⟩
  rw [hwriter, hlog, Nat.zero_add, List.append_assoc]

theorem slice_prefix_take {l : Buf} {j : Nat} (h : j ≤ i + n) : slice l i j <+: (l.drop i).take n :=
  List.take_prefix_take_left (by omega)

theorem consumePayload_spec (h : Tracks W cluster offer history file pos s) (hphase : s.ctx.phase = .payload)
    (hrest : file.drop pos = rest ++ after) (hne : 0 < rest.length) (hsize : file.length < 2 ^ 32) :
    Ends (consumePayload W rest) s (Consumed W cluster offer history file pos rest) := by
  have hinv := h.phase
  rw [hphase] at hinv
  obtain ⟨start, hupgrade, hstart, hfirmware, hlow, hhigh, hwritten⟩ := hinv
  have hbound := length_of_drop hrest h.within
  have himage : offer.imageSize.toNat < 2 ^ 32 := offer.imageSize.toNat_lt
  have hfits := hupgrade.fits
  obtain ⟨n, hn⟩ : ∃ n, n = min rest.length (start + 6 + elementLength file start - pos) := ⟨_, rfl⟩
  have hdone : (slice file (start + 6) pos).length = pos - (start + 6) := slice_length_of_le h.within
  have htake : (rest.take n).length = n := by
    rw [List.length_take]
    omega
  have hextend : slice file (start + 6) pos ++ rest.take n = slice file (start + 6) (pos + n) :=
    slice_append_take hlow hrest (by omega)
  unfold consumePayload updateCtx
  rw [Ends, get_bind, h.offset, hstart, hfirmware, add_ok (by omega), if_neg (by omega), sub_ok (by omega),
    sub_ok (by omega), ← hn]
  cases hanswer : W.answer s.writer (.writeBlock (pos - (start + 6)) (rest.take n)) with
  | error e =>
    have hrun : writeBlock W (pos - (start + 6)) (rest.take n) s =
        (.error e, { s with writer := s.writer ++ [⟨.writeBlock (pos - (start + 6)) (rest.take n), .error e⟩] }) := by
      rw [writeBlock, hanswer]
    rw [bind_error hrun]
    show Agrees history (referenceParse cluster offer.imageSize W.slotSize file) _ _
    rw [hupgrade.reference]
    obtain ⟨-, log, hlog, haccepted⟩ := hwritten
    have hwriter : s.writer ++ [⟨.writeBlock (pos - (start + 6)) (rest.take n), .error e⟩] =
        history ++ log ++ [⟨.writeBlock (slice file (start + 6) pos).length (rest.take n), .error e⟩] := by
      rw [hlog, hdone]
    have hprefix : slice file (start + 6) pos ++ rest.take n <+:
        (file.drop (start + 6)).take (elementLength file start) := by
      rw [hextend]
      exact slice_prefix_take (by omega)
    exact .refused hwriter haccepted hprefix
  | ok _ =>
    have hrun : writeBlock W (pos - (start + 6)) (rest.take n) s =
        (.ok (), { s with writer := s.writer ++ [⟨.writeBlock (pos - (start + 6)) (rest.take n), .ok ()⟩] }) := by
      rw [writeBlock, hanswer]
    rw [bind_ok hrun, add_ok (by omega), modify_bind, add_ok (by omega), modify_bind, pure_run]
    have hnow {s' : Staging} (hctx : s'.ctx.firmwareWritten = pos - (start + 6) + n)
        (hwriter : s'.writer = s.writer ++ [⟨.writeBlock (pos - (start + 6)) (rest.take n), .ok ()⟩]) :
        Written history s' (slice file (start + 6) (pos + n)) := by
      rw [← hextend]
      exact hwritten.snoc (by rw [hctx, hdone, htake]) (by rw [hwriter, hdone])
    dsimp only
    by_cases hend : pos + n = start + 6 + elementLength file start
    · rw [if_pos hend]
      refine ⟨by omega, by omega, h.started, h.erased, start, hupgrade, hfirmware, by omega, ?_⟩
      rw [← hend]
      exact hnow rfl rfl
    · rw [if_neg hend]
      refine ⟨by omega, by omega, h.started, h.erased, ?_⟩
      show PhaseInv W cluster offer history file _ _ s.ctx.phase
      rw [hphase]
      exact ⟨start, hupgrade, hstart, hfirmware, by omega, by omega, hnow rfl rfl⟩

theorem consumeTrailer_spec (h : Tracks W cluster offer history file pos s) (hphase : s.ctx.phase = .trailer)
    (hne : 0 < rest.length) :
    Ends (pure rest.length) s (Consumed W cluster offer history file pos rest) := by
  have hinv := h.phase
  rw [hphase] at hinv
  obtain ⟨start, hupgrade, hfirmware, hlow, hwritten⟩ := hinv
  refine ⟨hne, Nat.le_refl _, h.started, h.erased, ?_⟩
  show PhaseInv W cluster offer history file _ s s.ctx.phase
  rw [hphase]
  exact ⟨start, hupgrade, hfirmware, Nat.le_add_right_of_le hlow, hwritten⟩

theorem PhaseInv.setOffset {phase : OtaParsePhase} (h : PhaseInv W cluster offer history file pos s phase) (offset : Nat) :
    PhaseInv W cluster offer history file pos { s with ctx := { s.ctx with fileOffset := offset } } phase := by
  cases phase <;> exact h

/-- **One pass of the loop.** -/
theorem parsePass_spec (h : Tracks W cluster offer history file pos s) (hrest : file.drop pos = rest ++ after)
    (hne : 0 < rest.length) (hsize : file.length < 2 ^ 32) :
    Ends (parsePass W cluster offer rest) s (PassEnds W cluster offer history file pos rest) := by
  have hbound := length_of_drop hrest h.within
  have harm : Ends (consume W cluster offer rest s.ctx.phase) s (Consumed W cluster offer history file pos rest) := by
    cases hphase : s.ctx.phase with
    | header => exact consumeHeader_spec h hphase hrest hne
    | subElement => exact consumeSubElement_spec h hphase hrest hne hsize
    | payload => exact consumePayload_spec h hphase hrest hne hsize
    | trailer => exact consumeTrailer_spec h hphase hne
  unfold parsePass
  rw [Ends, get_bind]
  refine ends_bind (Q := PassEnds W cluster offer history file pos rest) (ends_mono harm fun out s' hout => ?_)
  cases out with
  | trap => exact hout
  | error e => exact hout
  | ok n =>
    obtain ⟨hn, hle, hoffer, herased, hinv⟩ := hout
    have hslice : sliceFrom rest n s' = (.ok (rest.drop n), s') := by
      rw [sliceFrom, if_pos hle]
      rfl
    rw [then_ok, Ends, h.offset, bind_ok hslice, add_ok (by omega)]
    exact ⟨n, hn, hle, rfl, hoffer, herased, rfl, by omega, hinv.setOffset _⟩

theorem Written.of_eq {bytes' : Buf} (h : Written history s bytes) (heq : bytes' = bytes) : Written history s bytes' :=
  heq ▸ h

/-- The bytes that follow do not matter. -/
theorem Tracks.append (h : Tracks W cluster offer history file file.length s) (more : Buf) :
    Tracks W cluster offer history (file ++ more) file.length s := by
  refine ⟨h.started, h.erased, h.offset, by rw [List.length_append]; omega, ?_⟩
  have hinv := h.phase
  cases hphase : s.ctx.phase with
  | header =>
    rw [hphase] at hinv
    obtain ⟨hbuf, hdeclared, hclean⟩ := hinv
    refine ⟨by rw [slice_append_left (Nat.le_refl _)]; exact hbuf, fun h8 => ?_, hclean⟩
    rw [headerLen_append (by omega)]
    exact hdeclared h8
  | subElement =>
    rw [hphase] at hinv
    obtain ⟨hstart, hbuf, hnear, hclean⟩ := hinv
    exact ⟨hstart.append _ _ more, by rw [slice_append_left (Nat.le_refl _)]; exact hbuf, hnear, hclean⟩
  | payload =>
    rw [hphase] at hinv
    obtain ⟨start, hupgrade, hstart, hfirmware, hlow, hhigh, hwritten⟩ := hinv
    obtain ⟨hupgrade', hlen⟩ := hupgrade.append W cluster offer more
    refine ⟨start, hupgrade', hstart, by rw [hlen]; exact hfirmware, hlow, by rw [hlen]; exact hhigh, ?_⟩
    exact hwritten.of_eq (slice_append_left (Nat.le_refl _))
  | trailer =>
    rw [hphase] at hinv
    obtain ⟨start, hupgrade, hfirmware, hlow, hwritten⟩ := hinv
    obtain ⟨hupgrade', hlen⟩ := hupgrade.append W cluster offer more
    refine ⟨start, hupgrade', by rw [hlen]; exact hfirmware, by rw [hlen]; exact hlow, ?_⟩
    rw [hlen]
    exact hwritten.of_eq (slice_append_left hlow)

/-- What a block owes that ends at `stop`. -/
def BlockEnds (W : FirmwareWriter) (cluster : OtaCluster) (offer : OtaImageOffer) (history : List WriterEvent) (file : Buf)
    (stop : Nat) : Outcome FirmwareError Unit → Staging → Prop
  | .ok _, s => Tracks W cluster offer history file stop s
  | .error e, s => Agrees history (referenceParse cluster offer.imageSize W.slotSize file) (.error e) s
  | .trap, _ => False

/-- **A block that continues the file is parsed as a part of it.** -/
theorem writeOtaBlock_spec (h : Tracks W cluster offer history file pos s) (hdata : file.drop pos = data ++ after)
    (hsize : file.length < 2 ^ 32) :
    Ends (writeOtaBlock W cluster pos data) s (BlockEnds W cluster offer history file (pos + data.length)) := by
  unfold writeOtaBlock
  rw [Ends, get_bind, h.started]
  dsimp only
  rw [h.offset, if_neg (fun hne => hne rfl)]
  refine ends_bind (Q := BlockEnds W cluster offer history file (pos + data.length)) ?_
  refine ends_whileLoop
    (fun rest s => ∃ p, p + rest.length = pos + data.length ∧ file.drop p = rest ++ after ∧
      Tracks W cluster offer history file p s)
    (fun rest _ => rest.length) ?_ ?_ ⟨pos, rfl, hdata, h⟩ (by omega)
  · rintro rest s ⟨p, hp, hrest, htracks⟩ hcond
    have hne : 0 < rest.length := by
      rw [List.length_pos_iff]
      rintro rfl
      cases hcond
    refine ends_mono (parsePass_spec htracks hrest hne hsize) fun out s' hout => ?_
    cases out with
    | ok left =>
      obtain ⟨n, hn, hle, rfl, htracks'⟩ := hout
      refine ⟨⟨p + n, ?_, ?_, htracks'⟩, ?_⟩
      · rw [List.length_drop]
        omega
      · rw [← List.drop_drop, hrest, List.drop_append_of_le_length hle]
      · rw [List.length_drop]
        omega
    | error e => exact hout
    | trap => exact hout
  · rintro rest s ⟨p, hp, hrest, htracks⟩ hcond
    have hnil : rest = [] := by
      cases rest with
      | nil => rfl
      | cons b rest => cases hcond
    subst hnil
    rw [List.length_nil, Nat.add_zero] at hp
    subst hp
    exact htracks

theorem feed_spec {blocks : List Buf} (h : Tracks W cluster offer history file pos s)
    (hblocks : file.drop pos = blocks.flatten ++ after) (hsize : file.length < 2 ^ 32) :
    Ends (feed W cluster pos blocks) s (BlockEnds W cluster offer history file (pos + blocks.flatten.length)) := by
  induction blocks generalizing pos s with
  | nil => exact h
  | cons data blocks ih =>
    rw [List.flatten_cons, List.append_assoc] at hblocks
    rw [feed]
    refine ends_bind (ends_mono (writeOtaBlock_spec h hblocks hsize) fun out s' hout => ?_)
    cases out with
    | ok _ =>
      rw [List.flatten_cons, List.length_append, ← Nat.add_assoc]
      refine ih hout ?_
      rw [← List.drop_drop, hblocks, List.drop_left]
    | error e => exact hout
    | trap => exact hout

theorem tracks_started (file : Buf) : Tracks W cluster offer history file 0 ⟨.started offer, history⟩ :=
  ⟨rfl, rfl, rfl, Nat.zero_le _, rfl, fun h => absurd h (by omega), rfl, rfl⟩

/-- **At the end of the file, the parser has what the reference parser has.** -/
theorem Tracks.agrees (h : Tracks W cluster offer history file file.length s) :
    Agrees history (referenceParse cluster offer.imageSize W.slotSize file) (.ok ()) s := by
  have hinv := h.phase
  cases hphase : s.ctx.phase with
  | header =>
    rw [hphase] at hinv
    obtain ⟨-, hdeclared, hclean⟩ := hinv
    have hread : referenceParse cluster offer.imageSize W.slotSize file = .incomplete := by
      rw [referenceParse]
      by_cases hshort : file.length ≤ 8
      · rw [if_pos hshort]
      · obtain ⟨hleast, hmost, hpart⟩ := hdeclared (by omega)
        rw [if_neg hshort, if_neg (by omega), if_pos hpart]
    rw [hread]
    exact .incomplete hclean.2 (by rw [OtaDownloadCtx.payloadComplete, hphase]; rfl)
  | subElement =>
    rw [hphase] at hinv
    obtain ⟨hstart, -, hnear, hclean⟩ := hinv
    rw [hstart.reference W, referenceElements, if_pos hnear]
    exact .incomplete hclean.2 (by rw [OtaDownloadCtx.payloadComplete, hphase]; rfl)
  | payload =>
    rw [hphase] at hinv
    obtain ⟨start, hupgrade, -, hfirmware, hlow, hhigh, hwritten, log, hlog, haccepted⟩ := hinv
    have hbytes : (file.drop (start + 6)).take (elementLength file start) = slice file (start + 6) file.length := by
      rw [slice, List.take_of_length_le (by rw [List.length_drop]; omega),
        List.take_of_length_le (by rw [List.length_drop])]
    have hpos := hupgrade.nonempty
    rw [hupgrade.reference, hbytes]
    refine .payload hlog haccepted ?_
    rw [OtaDownloadCtx.payloadComplete, hphase, hfirmware, hwritten]
    simp [hpos]
  | trailer =>
    rw [hphase] at hinv
    obtain ⟨start, hupgrade, hfirmware, hlow, hwritten, log, hlog, haccepted⟩ := hinv
    have hbytes : (file.drop (start + 6)).take (elementLength file start) =
        slice file (start + 6) (start + 6 + elementLength file start) := by
      rw [slice, show start + 6 + elementLength file start - (start + 6) = elementLength file start by omega]
    have hpos := hupgrade.nonempty
    rw [hupgrade.reference, hbytes]
    refine .payload hlog haccepted ?_
    rw [OtaDownloadCtx.payloadComplete, hphase, hfirmware, hwritten]
    simp [hpos]

end

/-- **OTA file parsing does not depend on blocking.** However the file is cut into blocks, no pass traps, and
the blocks are accepted, refused and written as the reference parser reads the whole file. -/
theorem ota_parsing_independent_of_blocks (W : FirmwareWriter) (cluster : OtaCluster) (offer : OtaImageOffer)
    (history : List WriterEvent) (blocks : List Buf) (hsize : blocks.flatten.length < 2 ^ 32) :
    Agrees history (referenceParse cluster offer.imageSize W.slotSize blocks.flatten)
      (feed W cluster 0 blocks ⟨.started offer, history⟩).1 (feed W cluster 0 blocks ⟨.started offer, history⟩).2 := by
  have htracks : Tracks W cluster offer history blocks.flatten 0 ⟨.started offer, history⟩ := tracks_started blocks.flatten
  have hblocks : blocks.flatten.drop 0 = blocks.flatten ++ [] := by rw [List.drop_zero, List.append_nil]
  have hends := feed_spec htracks hblocks hsize
  unfold Ends at hends
  revert hends
  cases (feed W cluster 0 blocks ⟨.started offer, history⟩).1 with
  | ok u =>
    intro hends
    rw [Nat.zero_add] at hends
    exact hends.agrees
  | error e => exact id
  | trap => exact False.elim

/-- A writer that answers every call with success. -/
def acceptingWriter : FirmwareWriter := ⟨fun _ _ => .ok (), 1024⟩

/-- A client that runs version 1 of its image and downloads version 2. -/
def downloadingCluster : OtaCluster := { OtaCluster.new 0x1234 1 1 with targetVersion := 2, targetSize := 65 }

/-- A header, an Upgrade Image element, and three bytes of firmware. -/
def smallImage : Buf :=
  le32 OTA_MAGIC ++ le16 0x0100 ++ le16 56 ++ le16 0 ++ le16 0x1234 ++ le16 1 ++ le32 2 ++ le16 2 ++ List.replicate 32 0 ++
    le32 65 ++ (le16 OTA_TAG_UPGRADE_IMAGE ++ le32 3) ++ [0xAA, 0xBB, 0xCC]

/-- The image, cut inside its header, inside its element header and inside its payload. -/
theorem small_image_parsed :
    Agrees [] (.payload [0xAA, 0xBB, 0xCC] 3)
      (feed acceptingWriter downloadingCluster 0
        [smallImage.take 7, (smallImage.drop 7).take 51, (smallImage.drop 58).take 5, smallImage.drop 63]
        ⟨.started ⟨0x1234, 1, 2, 65⟩, []⟩).1
      (feed acceptingWriter downloadingCluster 0
        [smallImage.take 7, (smallImage.drop 7).take 51, (smallImage.drop 58).take 5, smallImage.drop 63]
        ⟨.started ⟨0x1234, 1, 2, 65⟩, []⟩).2 := by
  have hupgrade : UpgradeAt acceptingWriter downloadingCluster ⟨0x1234, 1, 2, 65⟩ smallImage 56 :=
    ⟨.first ⟨by decide, by decide, by decide, _, rfl, by decide, by decide⟩, by decide, by decide, by decide, by decide, by decide⟩
  have hread := hupgrade.reference
  have h := ota_parsing_independent_of_blocks acceptingWriter downloadingCluster ⟨0x1234, 1, 2, 65⟩ []
    [smallImage.take 7, (smallImage.drop 7).take 51, (smallImage.drop 58).take 5, smallImage.drop 63] (by decide)
  exact hread ▸ h

end Zigbee.Runtime.Ota
