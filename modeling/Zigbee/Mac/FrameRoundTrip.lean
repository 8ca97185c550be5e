import Zigbee.Mac.Frames

/-!
# MAC builders and parsers are inverse

* `Framed` — a frame as its parts: frame control, sequence number, destination, source, and the rest.
* `Framed.parseMacAddresses`, `Framed.parseSourceAddress`, `Framed.parseParentCommand` — the parsers on the parts.
* `FramesInverse` — what the builders and the parsers owe each other.
* `mac_frames_inverse` — they do, for commands with a short source below the broadcast addresses.
-/

namespace Zigbee.Mac

open Bytes Checked ByteParser
open Outcome (safe_ok safe_error safe_ite safe_guard)
open Outcome

/-! ## Pushes that fit -/

variable {capacity : Nat} {frame : Buf} {pieces : List Buf}

theorem foldl_put (h : frame.length + pieces.flatten.length ≤ capacity) :
    pieces.foldl (put capacity) frame = frame ++ pieces.flatten := by
  induction pieces generalizing frame with
  | nil => simp
  | cons piece pieces ih =>
    rw [List.flatten_cons, List.length_append] at h
    have hput : put capacity frame piece = frame ++ piece := by
      rw [put, if_neg (by omega)]
    rw [List.foldl_cons, hput, ih (by rw [List.length_append]; omega), List.flatten_cons, List.append_assoc]

/-- Nothing is dropped from pushes that fit together. -/
theorem putAll_eq (h : pieces.flatten.length ≤ capacity) : putAll capacity pieces = pieces.flatten := by
  rw [putAll, foldl_put (by simpa using h), List.nil_append]

variable {α : Type}

theorem except_ok_bind {ε β : Type} (a : α) (f : α → Except ε β) : (Except.ok a >>= f) = f a := rfl

theorem except_bind_eq_ok {ε β : Type} {x : Except ε α} {f : α → Except ε β} {b : β} (h : (x >>= f) = .ok b) :
    ∃ a, x = .ok a ∧ f a = .ok b := by
  cases x with
  | error e => cases h
  | ok a => exact ⟨a, rfl, h⟩

theorem write_ok {piece frame' : Buf} (h : write capacity frame piece = .ok frame') : frame' = frame ++ piece := by
  unfold write at h
  split at h
  · cases h
  · cases h
    rfl

/-- Pushes of the items of a list, each of which may be refused. -/
theorem foldlM_write_ok {bad : α → Prop} [DecidablePred bad] {bytes : α → Buf} {items : List α} {frame' : Buf}
    (h : items.foldlM (fun frame a => if bad a then .error FrameBuildError.invalidParameter else write capacity frame (bytes a))
      frame = .ok frame') : frame' = frame ++ items.flatMap bytes ∧ ∀ a ∈ items, ¬ bad a := by
  induction items generalizing frame with
  | nil =>
    cases h
    exact ⟨by simp, nofun⟩
  | cons a items ih =>
    rw [List.foldlM_cons] at h
    by_cases hbad : bad a
    · rw [if_pos hbad] at h
      cases h
    · rw [if_neg hbad] at h
      cases hw : write capacity frame (bytes a) with
      | error e =>
        rw [hw] at h
        cases h
      | ok frame₁ =>
        rw [hw] at h
        obtain ⟨rfl, hrest⟩ := ih h
        rw [write_ok hw]
        exact ⟨by simp, fun b hb => (List.mem_cons.mp hb).elim (fun hba => hba ▸ hbad) (hrest b)⟩

theorem writeAll_ok (h : writeAll capacity pieces = .ok frame) : frame = pieces.flatten := by
  have hfold : ∀ {pieces : List Buf} {start frame : Buf}, pieces.foldlM (write capacity) start = .ok frame →
      frame = start ++ pieces.flatten := by
    intro pieces
    induction pieces with
    | nil =>
      intro start frame h
      cases h
      simp
    | cons piece pieces ih =>
      intro start frame h
      rw [List.foldlM_cons] at h
      cases hw : write capacity start piece with
      | error e =>
        rw [hw] at h
        cases h
      | ok start' =>
        rw [hw] at h
        rw [ih h, write_ok hw, List.flatten_cons, List.append_assoc]
  simpa using hfold h

/-! ## A frame and its parts -/

def dstField : Option MacAddress → Buf
  | none => []
  | some a => le16 a.panId ++ a.bytes

def srcField (compress : Bool) : Option MacAddress → Buf
  | none => []
  | some a => (if compress then [] else le16 a.panId) ++ a.bytes

def modeOf : Option MacAddress → UInt16
  | none => 0
  | some (.short _ _) => 2
  | some (.extended _ _) => 3

/-- A frame with these parts, whose frame control describes them. -/
structure Framed (data : Buf) (fc : UInt16) (dst src : Option MacAddress) (rest : Buf) : Prop where
  parts : ∃ seq, data = le16 fc ++ ([seq] ++ (dstField dst ++ (srcField (panCompressOf fc) src ++ rest)))
  dstMode : dstModeOf fc = modeOf dst
  srcMode : srcModeOf fc = modeOf src
  samePan : panCompressOf fc = true → ∀ s, src = some s → ∃ d, dst = some d ∧ s.panId = d.panId

theorem addressLen_bytes (a : MacAddress) : a.bytes.length = if modeOf (some a) = 2 then 2 else 8 := by
  cases a with
  | short pan address => exact le16_length address
  | extended pan address => exact address.size_toArray

variable {data post : Buf} {v : UInt16} {i : Nat}

variable (pre : Buf)

theorem u16Index_of_eq (h : data = pre ++ (le16 v ++ post)) (hi : i = pre.length) : u16Index data i = .ok v := by
  have hlen : data.length = pre.length + (2 + post.length) := by
    rw [h, List.length_append, List.length_append, le16_length]
  rw [u16Index_eq (by omega), h, u16At_append_right (by omega), hi, Nat.sub_self, u16At_le16]

variable {b : UInt8}

theorem index_of_eq (h : data = pre ++ (b :: post)) (hi : i = pre.length) : index data i = .ok b := by
  rw [index_eq (by rw [h, List.length_append, List.length_cons]; omega), u8At_of_eq h hi, u8At_cons_zero]

variable {n : Nat}

theorem arrayIndex_of_eq {v : Vector UInt8 n} (h : data = pre ++ (v.toList ++ post)) (hi : i = pre.length) :
    arrayIndex n data i = .ok v := by
  have hlen : data.length = pre.length + (n + post.length) := by
    rw [h, List.length_append, List.length_append, Vector.length_toList]
  rw [arrayIndex_eq (by omega), h, arrayAt_append_right (by omega), hi, Nat.sub_self, arrayAt_toList]

variable {offset : Nat}

/-- An address is read where it stands. -/
theorem addressAt_bytes {a : MacAddress} {mode : UInt16} {pan : PanId} (h : data = pre ++ (a.bytes ++ post))
    (hoffset : offset = pre.length) (hmode : mode = modeOf (some a)) (hpan : pan = a.panId) :
    addressAt data mode pan offset = .ok (some a) := by
  have hlen : data.length = pre.length + (a.bytes.length + post.length) := by
    rw [h, List.length_append, List.length_append]
  subst hmode hpan
  cases a with
  | short pan address =>
    have hbytes : (MacAddress.short pan address).bytes.length = 2 := le16_length address
    rw [addressAt, if_pos ⟨rfl, by omega⟩, u16Index_of_eq pre h hoffset]
    rfl
  | extended pan address =>
    have hbytes : (MacAddress.extended pan address).bytes.length = 8 := address.size_toArray
    rw [addressAt, if_neg (by simp [modeOf]), if_pos ⟨rfl, by omega⟩, arrayIndex_of_eq pre h hoffset]
    rfl

theorem addressAt_none (data : Buf) (pan : PanId) (offset : Nat) : addressAt data (modeOf none) pan offset = .ok none := rfl

theorem modeOf_pos (a : MacAddress) : 0 < modeOf (some a) ∧ 2 ≤ modeOf (some a) := by
  cases a <;> simp only [modeOf] <;> decide

theorem panAt_of_eq {pan default : PanId} (h : data = pre ++ (le16 pan ++ post)) (hoffset : offset = pre.length) :
    panAt data true default offset = .ok (pan, offset + 2) := by
  have hroom : offset + 2 ≤ data.length := by
    rw [h]
    simp only [List.length_append, le16_length]
    omega
  rw [panAt, if_pos ⟨rfl, hroom⟩, u16Index_of_eq pre h hoffset]
  rfl

theorem panAt_false (data : Buf) (default : PanId) (offset : Nat) : panAt data false default offset = .ok (default, offset) := rfl

namespace Framed

variable {data rest : Buf} {fc : UInt16} {dst src : Option MacAddress}

theorem control (h : Framed data fc dst src rest) : u16Index data 0 = .ok fc := by
  obtain ⟨seq, hdata⟩ := h.parts
  exact u16Index_of_eq [] hdata rfl

theorem addressing (h : Framed data fc dst src rest) :
    addressingSize fc = (dstField dst).length + (srcField (panCompressOf fc) src).length := by
  have hd := h.dstMode
  have hs := h.srcMode
  unfold addressingSize
  rw [hd, hs]
  congr 1
  · rcases dst with _ | ⟨pan, address⟩ | ⟨pan, address⟩ <;> simp [modeOf, dstField, MacAddress.bytes]
  · rcases src with _ | ⟨pan, address⟩ | ⟨pan, address⟩ <;> cases panCompressOf fc <;>
      simp [modeOf, srcField, MacAddress.bytes]

theorem length (h : Framed data fc dst src rest) : data.length = 3 + addressingSize fc + rest.length := by
  obtain ⟨seq, hdata⟩ := h.parts
  rw [h.addressing, hdata]
  simp only [List.length_append, le16_length, List.length_singleton]
  omega

/-- What stands in front of the rest. -/
theorem split (h : Framed data fc dst src rest) : ∃ pre, data = pre ++ rest ∧ pre.length = 3 + addressingSize fc := by
  obtain ⟨seq, hdata⟩ := h.parts
  refine ⟨le16 fc ++ ([seq] ++ (dstField dst ++ srcField (panCompressOf fc) src)), by rw [hdata]; simp, ?_⟩
  rw [h.addressing]
  simp only [List.length_append, le16_length, List.length_singleton]
  omega

theorem drop_rest (h : Framed data fc dst src rest) : data.drop (3 + addressingSize fc) = rest := by
  obtain ⟨pre, hdata, hlen⟩ := h.split
  exact drop_of_eq hdata hlen.symm

/-- The source of a frame, behind its destination. -/
theorem sourceFieldAt (h : Framed data fc dst src rest) {pre : Buf}
    (hpre : data = pre ++ (srcField (panCompressOf fc) src ++ rest)) (dstPan : PanId)
    (hpan : ∀ d, dst = some d → dstPan = d.panId) :
    Mac.sourceFieldAt data fc dstPan pre.length =
      .ok (src.getD (.short dstPan 0xFFFF), pre.length + (srcField (panCompressOf fc) src).length) := by
  unfold Mac.sourceFieldAt
  rw [h.srcMode]
  cases src with
  | none => rfl
  | some s =>
    rw [decide_eq_true (modeOf_pos s).1, Bool.true_and]
    cases hcompress : panCompressOf fc with
    | true =>
      obtain ⟨d, hd, hsame⟩ := h.samePan hcompress s rfl
      rw [hcompress] at hpre
      rw [Bool.not_true, panAt_false, Outcome.ok_bind,
        addressAt_bytes pre hpre rfl rfl ((hpan d hd).trans hsame.symm)]
      rfl
    | false =>
      rw [hcompress] at hpre
      have hpre' : data = pre ++ (le16 s.panId ++ (s.bytes ++ rest)) := by
        rw [hpre, srcField, if_neg (by simp), List.append_assoc]
      rw [Bool.not_false, panAt_of_eq pre hpre' rfl, Outcome.ok_bind,
        addressAt_bytes (pre ++ le16 s.panId) (by rw [hpre', List.append_assoc]) (by simp) rfl rfl]
      simp [srcField, addressLen]
      omega

/-- **The addresses of a frame are those that it was built with.** -/
theorem parseMacAddresses (h : Framed data fc dst src rest) :
    Mac.parseMacAddresses data = .ok ⟨src.getD (.short ((dst.map MacAddress.panId).getD 0xFFFF) 0xFFFF), dst.getD defaultAddr,
      3 + addressingSize fc, (fc >>> 3) &&& 1 != 0⟩ := by
  obtain ⟨seq, hdata⟩ := h.parts
  have hlen := h.length
  unfold Mac.parseMacAddresses
  rw [if_neg (by omega), h.control, Outcome.ok_bind, h.dstMode, h.addressing]
  cases dst with
  | none =>
    have hpre : data = (le16 fc ++ [seq]) ++ (srcField (panCompressOf fc) src ++ rest) := by
      rw [hdata, List.append_assoc]
      rfl
    have hsource := h.sourceFieldAt hpre 0xFFFF nofun
    rw [show decide (0 < modeOf none) = false from rfl, panAt_false, Outcome.ok_bind, addressAt_none, Outcome.ok_bind]
    rw [show (0xFFFF, 3).2 + addressLen none = (le16 fc ++ [seq]).length from rfl, hsource, Outcome.ok_bind]
    simp [dstField]
  | some d =>
    have hdst : data = (le16 fc ++ [seq]) ++ (le16 d.panId ++ (d.bytes ++ (srcField (panCompressOf fc) src ++ rest))) := by
      rw [hdata, List.append_assoc, dstField, List.append_assoc (le16 d.panId)]
    have hpre : data = (le16 fc ++ [seq] ++ le16 d.panId ++ d.bytes) ++ (srcField (panCompressOf fc) src ++ rest) := by
      rw [hdst]
      simp only [List.append_assoc]
    have hsource := h.sourceFieldAt hpre d.panId (by rintro _ ⟨⟩; rfl)
    have hfield : addressAt data (modeOf (some d)) d.panId (3 + 2) = .ok (some d) :=
      addressAt_bytes (le16 fc ++ [seq] ++ le16 d.panId) (by rw [hdst, List.append_assoc _ (le16 d.panId)]) rfl rfl rfl
    have hdstPan : panAt data true 0xFFFF 3 = .ok (d.panId, 3 + 2) := panAt_of_eq (le16 fc ++ [seq]) hdst rfl
    rw [decide_eq_true (modeOf_pos d).1, hdstPan, Outcome.ok_bind, hfield, Outcome.ok_bind]
    have hoffset : (d.panId, 3 + 2).2 + addressLen (some d) = (le16 fc ++ [seq] ++ le16 d.panId ++ d.bytes).length := by
      simp [addressLen]
      omega
    rw [hoffset, hsource, Outcome.ok_bind]
    simp [dstField]
    omega

/-- The source of a frame without a destination. -/
theorem parseSourceAddress {s : MacAddress} (h : Framed data fc none (some s) rest) (hcompress : panCompressOf fc = false) :
    Mac.parseSourceAddress data fc = .ok s := by
  obtain ⟨seq, hdata⟩ := h.parts
  have hpre : data = (le16 fc ++ [seq]) ++ (le16 s.panId ++ (s.bytes ++ rest)) := by
    rw [hdata, hcompress, dstField, srcField, if_neg (by simp)]
    simp only [List.append_assoc, List.nil_append]
  have hpan : panAt data true 0xFFFF 3 = .ok (s.panId, 3 + 2) := panAt_of_eq (le16 fc ++ [seq]) hpre rfl
  have hfield : addressAt data (modeOf (some s)) s.panId (3 + 2) = .ok (some s) :=
    addressAt_bytes (le16 fc ++ [seq] ++ le16 s.panId) (by rw [hpre, List.append_assoc _ (le16 s.panId)]) rfl rfl rfl
  unfold Mac.parseSourceAddress
  rw [h.dstMode, h.srcMode, hcompress, decide_eq_true (modeOf_pos s).2, Bool.not_false, Bool.true_and]
  rw [show decide (2 ≤ modeOf none) = false from rfl, panAt_false, Outcome.ok_bind]
  rw [show (0xFFFF, 3).2 + (if modeOf none = 2 then 2 else if modeOf none = 3 then 8 else 0) = 3 from rfl]
  dsimp only
  rw [hpan, Outcome.ok_bind, hfield]
  rfl

/-- The first byte behind the addresses. -/
theorem index_rest {rest : Buf} (h : Framed data fc dst src (b :: rest)) : index data (3 + addressingSize fc) = .ok b := by
  obtain ⟨pre, hdata, hlen⟩ := h.split
  exact index_of_eq pre hdata hlen.symm

theorem index_rest' {c : UInt8} {rest : Buf} (h : Framed data fc dst src (b :: c :: rest)) :
    index data (3 + addressingSize fc + 1) = .ok c := by
  obtain ⟨pre, hdata, hlen⟩ := h.split
  have hsplit : data = (pre ++ [b]) ++ (c :: rest) := by
    rw [hdata]
    simp
  exact index_of_eq (pre ++ [b]) hsplit (by rw [List.length_append, hlen, List.length_singleton])

end Framed

/-! ## The frames that are built -/

theorem associationRequest_uncut (seq : UInt8) (coord : MacAddress) (ownExtended : IeeeAddress) (cap : CapabilityInfo) :
    buildAssociationRequest seq coord ownExtended cap = (associationRequestPieces seq coord ownExtended cap).flatten :=
  putAll_eq (by cases coord <;> simp [associationRequestPieces, MacAddress.bytes])

theorem associationRequest_framed (seq : UInt8) (coord : MacAddress) (ownExtended : IeeeAddress) (cap : CapabilityInfo) :
    Framed (buildAssociationRequest seq coord ownExtended cap) (byDestination coord 0xC823 0xCC23) (some coord)
      (some (.extended PanId.BROADCAST ownExtended)) [0x01, cap.toByte] where
  parts := by
    have hcompress : panCompressOf (byDestination coord 0xC823 0xCC23) = false := by
      cases coord <;> simp only [byDestination] <;> decide
    refine ⟨seq, ?_⟩
    rw [associationRequest_uncut, hcompress]
    simp [associationRequestPieces, dstField, srcField, MacAddress.bytes, MacAddress.panId]
  dstMode := by cases coord <;> simp only [byDestination, modeOf] <;> decide
  srcMode := by cases coord <;> simp only [byDestination, modeOf] <;> decide
  samePan := by
    intro h
    rw [show panCompressOf (byDestination coord 0xC823 0xCC23) = false by
      cases coord <;> simp only [byDestination] <;> decide] at h
    cases h

theorem dataRequest_uncut (seq : UInt8) (coord : MacAddress) (ownExtended : IeeeAddress) :
    buildDataRequest seq coord ownExtended = (dataRequestPieces seq coord ownExtended).flatten :=
  putAll_eq (by cases coord <;> simp [dataRequestPieces, MacAddress.bytes])

theorem dataRequest_framed (seq : UInt8) (coord : MacAddress) (ownExtended : IeeeAddress) :
    Framed (buildDataRequest seq coord ownExtended) (byDestination coord 0xC863 0xCC63) (some coord)
      (some (.extended coord.panId ownExtended)) [0x04] where
  parts := by
    have hcompress : panCompressOf (byDestination coord 0xC863 0xCC63) = true := by
      cases coord <;> simp only [byDestination] <;> decide
    refine ⟨seq, ?_⟩
    rw [dataRequest_uncut, hcompress]
    simp [dataRequestPieces, dstField, srcField, MacAddress.bytes]
  dstMode := by cases coord <;> simp only [byDestination, modeOf] <;> decide
  srcMode := by cases coord <;> simp only [byDestination, modeOf] <;> decide
  samePan := by
    rintro - _ ⟨⟩
    exact ⟨coord, rfl, rfl⟩

theorem dataRequestShort_uncut (seq : UInt8) (coord : MacAddress) (ownShort : ShortAddress) :
    buildDataRequestShort seq coord ownShort = (dataRequestShortPieces seq coord ownShort).flatten :=
  putAll_eq (by cases coord <;> simp [dataRequestShortPieces, MacAddress.bytes])

theorem dataRequestShort_framed (seq : UInt8) (coord : MacAddress) (ownShort : ShortAddress) :
    Framed (buildDataRequestShort seq coord ownShort) (byDestination coord 0x8863 0x8C63) (some coord)
      (some (.short coord.panId ownShort)) [0x04] where
  parts := by
    have hcompress : panCompressOf (byDestination coord 0x8863 0x8C63) = true := by
      cases coord <;> simp only [byDestination] <;> decide
    refine ⟨seq, ?_⟩
    rw [dataRequestShort_uncut, hcompress]
    simp [dataRequestShortPieces, dstField, srcField, MacAddress.bytes]
  dstMode := by cases coord <;> simp only [byDestination, modeOf] <;> decide
  srcMode := by cases coord <;> simp only [byDestination, modeOf] <;> decide
  samePan := by
    rintro - _ ⟨⟩
    exact ⟨coord, rfl, rfl⟩

theorem orphanNotification_uncut (seq : UInt8) (ownExtended : IeeeAddress) :
    buildOrphanNotification seq ownExtended = (orphanNotificationPieces seq ownExtended).flatten :=
  putAll_eq (by simp [orphanNotificationPieces])

theorem orphanNotification_framed (seq : UInt8) (ownExtended : IeeeAddress) :
    Framed (buildOrphanNotification seq ownExtended) 0xC843 (some (.short PanId.BROADCAST SHORT_BROADCAST))
      (some (.extended PanId.BROADCAST ownExtended)) [MAC_CMD_ORPHAN_NOTIFICATION] where
  parts := by
    refine ⟨seq, ?_⟩
    rw [orphanNotification_uncut, show panCompressOf 0xC843 = true by decide]
    simp [orphanNotificationPieces, dstField, srcField, MacAddress.bytes, MacAddress.panId]
    rfl
  dstMode := by simp only [modeOf]; decide
  srcMode := by simp only [modeOf]; decide
  samePan := by
    rintro - _ ⟨⟩
    exact ⟨_, rfl, rfl⟩

variable {sequence : UInt8} {panId : PanId} {coordinatorExtended : IeeeAddress}

theorem associationResponse_framed {response : MlmeAssociateResponse}
    (h : buildAssociationResponse sequence panId coordinatorExtended response = .ok frame) :
    Framed frame 0xCC63 (some (.extended panId response.deviceAddress)) (some (.extended panId coordinatorExtended))
      (0x02 :: (le16 response.shortAddress ++ [response.status.raw])) where
  parts := by
    refine ⟨sequence, ?_⟩
    unfold buildAssociationResponse at h
    split at h
    · cases h
    · rw [writeAll_ok h, show panCompressOf 0xCC63 = true by decide]
      simp [associationResponsePieces, dstField, srcField, MacAddress.bytes, MacAddress.panId]
  dstMode := by simp only [modeOf]; decide
  srcMode := by simp only [modeOf]; decide
  samePan := by
    rintro - _ ⟨⟩
    exact ⟨_, rfl, rfl⟩

variable {seq : UInt8}

theorem realignment_framed {coordinatorShort : ShortAddress} {channel : UInt8} {orphanExtended : IeeeAddress}
    {orphanShort : ShortAddress}
    (h : buildCoordinatorRealignmentOrphanResponse seq panId coordinatorShort coordinatorExtended channel orphanExtended orphanShort =
      .ok frame) :
    Framed frame 0xCC23 (some (.extended PanId.BROADCAST orphanExtended)) (some (.extended panId coordinatorExtended))
      (MAC_CMD_COORDINATOR_REALIGNMENT ::
        (le16 panId ++ (le16 coordinatorShort ++ (channel :: le16 orphanShort)))) where
  parts := by
    refine ⟨seq, ?_⟩
    unfold buildCoordinatorRealignmentOrphanResponse at h
    split at h
    · cases h
    · rw [writeAll_ok h, show panCompressOf 0xCC23 = false by decide]
      simp [realignmentPieces, dstField, srcField, MacAddress.bytes, MacAddress.panId]
      rfl
  dstMode := by simp only [modeOf]; decide
  srcMode := by simp only [modeOf]; decide
  samePan := by
    intro h
    rw [show panCompressOf 0xCC23 = false by decide] at h
    cases h

/-- The source of a data frame, which shares the PAN of the destination. -/
def ownAddress (mode : AddressMode) (panId : PanId) (ownShort : ShortAddress) (ownExtended : IeeeAddress) : Option MacAddress :=
  match mode with
  | .none => none
  | .short => some (.short panId ownShort)
  | .extended => some (.extended panId ownExtended)

variable {ownShort : ShortAddress} {ownExtended : IeeeAddress}

theorem dataFrame_framed {mode : AddressMode} {dstAddress : MacAddress} {payload : Buf} {ackRequest framePending : Bool}
    (h : buildDataFrame seq mode ownShort ownExtended dstAddress payload ackRequest framePending = .ok frame) :
    Framed frame (dataFrameControl mode dstAddress ackRequest framePending) (some dstAddress)
      (ownAddress mode dstAddress.panId ownShort ownExtended) payload where
  parts := by
    refine ⟨seq, ?_⟩
    have hcompress : panCompressOf (dataFrameControl mode dstAddress ackRequest framePending) = decide (mode ≠ .none) := by
      cases mode <;> cases dstAddress <;> cases ackRequest <;> cases framePending <;>
        simp only [dataFrameControl, byDestination] <;> decide
    unfold buildDataFrame at h
    split at h
    · cases h
    · rw [writeAll_ok h, hcompress]
      cases mode <;> simp [dataFramePieces, dstField, srcField, ownBytes, ownAddress, MacAddress.bytes]
  dstMode := by
    cases mode <;> cases dstAddress <;> cases ackRequest <;> cases framePending <;>
      simp only [dataFrameControl, byDestination, modeOf] <;> decide
  srcMode := by
    cases mode <;> cases dstAddress <;> cases ackRequest <;> cases framePending <;>
      simp only [dataFrameControl, byDestination, modeOf, ownAddress] <;> decide
  samePan := by
    intro _ s hs
    refine ⟨dstAddress, rfl, ?_⟩
    cases mode <;> cases hs <;> rfl

/-- Superframe, GTS and pending addresses, and the payload. -/
def beaconRest (panCoordinator associationPermit : Bool) (pendingShort : List ShortAddress) (pendingExtended : List IeeeAddress)
    (beaconPayload : Buf) : Buf :=
  le16 (superframeSpec panCoordinator associationPermit) ++
    ((0 : UInt8) :: (UInt8.ofNat pendingShort.length ||| (UInt8.ofNat pendingExtended.length <<< 4)) ::
      (pendingShort.flatMap le16 ++ (pendingExtended.flatMap Vector.toList ++ beaconPayload)))

variable {source : MacAddress}

theorem beacon_framed {panCoordinator associationPermit : Bool} {pendingShort : List ShortAddress}
    {pendingExtended : List IeeeAddress} {beaconPayload : Buf}
    (h : buildNonbeaconBeacon sequence source panCoordinator associationPermit pendingShort pendingExtended beaconPayload = .ok frame) :
    pendingShort.length ≤ MAX_BEACON_PENDING_ADDRESSES ∧ pendingExtended.length ≤ MAX_BEACON_PENDING_ADDRESSES ∧
      Framed frame (byDestination source 0x8000 0xC000) none (some source)
        (beaconRest panCoordinator associationPermit pendingShort pendingExtended beaconPayload) := by
  unfold buildNonbeaconBeacon at h
  split at h
  · cases h
  · rename_i hcounts
    refine ⟨by omega, by omega, ?_⟩
    have hcontrol : ∀ fc, beaconFrameControl source = some fc → fc = byDestination source 0x8000 0xC000 := by
      intro fc hfc
      cases source <;> (simp only [beaconFrameControl] at hfc; split at hfc) <;> cases hfc <;> rfl
    cases hfc : beaconFrameControl source with
    | none =>
      rw [hfc] at h
      cases h
    | some fc =>
      rw [hfc] at h
      obtain rfl := hcontrol fc hfc
      dsimp only at h
      cases hhead : writeAll 125 (beaconPieces (byDestination source 0x8000 0xC000) sequence source panCoordinator
          associationPermit pendingShort.length pendingExtended.length) with
      | error e =>
        rw [hhead] at h
        cases h
      | ok head =>
        rw [hhead, except_ok_bind] at h
        obtain ⟨frame₁, hshort, h⟩ := except_bind_eq_ok h
        obtain ⟨frame₂, hextended, h⟩ := except_bind_eq_ok h
        obtain ⟨rfl, -⟩ := foldlM_write_ok hshort
        obtain ⟨rfl, -⟩ := foldlM_write_ok hextended
        have hcompress : panCompressOf (byDestination source 0x8000 0xC000) = false := by
          cases source <;> simp only [byDestination] <;> decide
        refine ⟨⟨sequence, ?_⟩, ?_, ?_, ?_⟩
        · rw [write_ok h, writeAll_ok hhead, hcompress]
          simp [beaconPieces, beaconRest, dstField, srcField]
        · simp only [modeOf]
          cases source <;> simp only [byDestination] <;> decide
        · cases source <;> simp only [byDestination, modeOf] <;> decide
        · intro hcompress'
          rw [hcompress] at hcompress'
          cases hcompress'

/-! ## Commands to a parent -/

/-- The frame control of a command that a parent looks into. -/
def parentControl (fc : UInt16) : Bool :=
  decide (¬(fc &&& 0x07 ≠ 0x03 ∨ fc &&& bit16 3 ≠ 0) ∧
    ¬((1 : UInt16) < (fc >>> 12) &&& 0x03 ∨ fc &&& (bit16 7 ||| bit16 8 ||| bit16 9) ≠ 0 ∨ dstModeOf fc = 1 ∨ srcModeOf fc = 1))

variable {fc : UInt16}

theorem Framed.parseParentCommand {dst src : Option MacAddress} {rest : Buf} (h : Framed data fc dst src (b :: rest))
    (hcontrol : parentControl fc = true) (lqi : UInt8) :
    Mac.parseParentCommand data lqi = parentCommandAt data fc (3 + addressingSize fc)
      (src.getD (.short ((dst.map MacAddress.panId).getD 0xFFFF) 0xFFFF)) (dst.getD defaultAddr) lqi := by
  have hlen := h.length
  rw [List.length_cons] at hlen
  obtain ⟨hkind, hmodes⟩ := of_decide_eq_true hcontrol
  unfold Mac.parseParentCommand
  rw [if_neg (by omega), h.control, Outcome.ok_bind, if_neg hkind, if_neg hmodes]
  dsimp only
  rw [if_neg (by omega), h.parseMacAddresses, Outcome.ok_bind, if_neg (by simp)]

/-- A parent's own address: unicast, and in a PAN of its own. -/
def Parent (a : MacAddress) : Prop := isUnicastMacAddress a = true ∧ a.panId ≠ PanId.BROADCAST

variable {coord : MacAddress}

theorem associationRequest_parsed (seq : UInt8) (cap : CapabilityInfo) (lqi : UInt8) (hcoord : Parent coord)
    (hown : ownExtended ≠ ieeeFill 0xFF) :
    parseParentCommand (buildAssociationRequest seq coord ownExtended cap) lqi =
      .ok (.associationRequest ownExtended coord cap lqi) := by
  have h := associationRequest_framed seq coord ownExtended cap
  have hlen := h.length
  have hframing : parentControl (byDestination coord 0xC823 0xCC23) = true ∧
      (dstModeOf (byDestination coord 0xC823 0xCC23) = 2 ∨ dstModeOf (byDestination coord 0xC823 0xCC23) = 3) ∧
      srcModeOf (byDestination coord 0xC823 0xCC23) = 3 ∧
      (byDestination coord 0xC823 0xCC23 &&& bit16 6 != 0) = false ∧
      (byDestination coord 0xC823 0xCC23 &&& bit16 5 != 0) = true := by
    cases coord <;> simp only [byDestination] <;> decide
  rw [h.parseParentCommand hframing.1, parentCommandAt, h.index_rest, Outcome.ok_bind, if_neg (by simp),
    if_pos ⟨rfl, hlen, hframing.2⟩, h.index_rest', Outcome.ok_bind]
  simp only [Option.getD_some, associationCommand]
  rw [if_neg (by simp [hown, hcoord.1, hcoord.2]), CapabilityInfo.fromByte_toByte]
  rfl

theorem dataRequest_parsed_of (lqi : UInt8) (h : Framed data fc (some coord) (some source) [0x04])
    (hcontrol : parentControl fc = true) (hdst : dstModeOf fc = 2 ∨ dstModeOf fc = 3) (hsrc : srcModeOf fc = 2 ∨ srcModeOf fc = 3)
    (hack : (fc &&& bit16 5 != 0) = true) (hcoord : Parent coord) (hsource : isUnicastMacAddress source = true)
    (hpan : source.panId = coord.panId) : parseParentCommand data lqi = .ok (.dataRequest source coord lqi) := by
  have hlen := h.length
  rw [h.parseParentCommand hcontrol, parentCommandAt, h.index_rest, Outcome.ok_bind, if_neg (by simp), if_neg (by simp),
    if_pos ⟨rfl, hlen, hdst, hsrc, hack⟩]
  simp only [Option.getD_some, dataCommand]
  rw [if_neg (by simp [hsource, hcoord.1, hcoord.2, hpan])]
  rfl

theorem dataRequest_parsed (seq lqi : UInt8) (hcoord : Parent coord) (hown : ownExtended ≠ ieeeFill 0xFF) :
    parseParentCommand (buildDataRequest seq coord ownExtended) lqi =
      .ok (.dataRequest (.extended coord.panId ownExtended) coord lqi) := by
  refine dataRequest_parsed_of lqi (dataRequest_framed seq coord ownExtended) ?_ ?_ ?_ ?_ hcoord (decide_eq_true hown) rfl <;>
    cases coord <;> simp only [byDestination] <;> decide

theorem dataRequestShort_parsed (seq lqi : UInt8) (hcoord : Parent coord) (hown : ownShort < 0xFFF8) :
    parseParentCommand (buildDataRequestShort seq coord ownShort) lqi =
      .ok (.dataRequest (.short coord.panId ownShort) coord lqi) := by
  refine dataRequest_parsed_of lqi (dataRequestShort_framed seq coord ownShort) ?_ ?_ ?_ ?_ hcoord (decide_eq_true hown) rfl <;>
    cases coord <;> simp only [byDestination] <;> decide

/-! ## Frames of a fixed layout -/

/-- What stands in front of a suffix. -/
theorem split_of_drop (h : data.drop i = post) (hne : post ≠ []) : data = data.take i ++ post ∧ i = (data.take i).length := by
  have hlt : i < data.length := by
    by_contra hge
    rw [List.drop_of_length_le (Nat.not_lt.mp hge)] at h
    exact hne h.symm
  refine ⟨by rw [← h, List.take_append_drop], ?_⟩
  rw [List.length_take, Nat.min_eq_left (Nat.le_of_lt hlt)]

theorem getU16_drop (h : data.drop i = le16 v ++ post) : getU16 data i = .ok v ∧ data.drop (i + 2) = post := by
  obtain ⟨hdata, hi⟩ := split_of_drop h (by simp [le16])
  have hlen : data.length = i + (2 + post.length) := by
    rw [hdata, List.length_append, ← hi, List.length_append, le16_length]
  refine ⟨?_, ?_⟩
  · rw [getU16_eq (by omega), hdata, u16At_append_right (by omega), ← hi, Nat.sub_self, u16At_le16]
  · rw [← List.drop_drop, h]
    rfl

theorem getByte_drop (h : data.drop i = b :: post) : getByte data i = .ok b ∧ data.drop (i + 1) = post := by
  obtain ⟨hdata, hi⟩ := split_of_drop h (by simp)
  refine ⟨?_, by rw [← List.drop_drop, h]; rfl⟩
  rw [getByte_eq (by rw [hdata, List.length_append, ← hi, List.length_cons]; omega), u8At_of_eq hdata hi, u8At_cons_zero]

theorem getArray_drop {v : Vector UInt8 (n + 1)} (h : data.drop i = v.toList ++ post) :
    getArray (n + 1) data i = .ok v ∧ data.drop (i + (n + 1)) = post := by
  have hv : v.toList.length = n + 1 := Vector.length_toList
  obtain ⟨hdata, hi⟩ := split_of_drop h (List.append_ne_nil_of_left_ne_nil (List.ne_nil_of_length_eq_add_one hv) _)
  have hlen : data.length = i + (n + 1 + post.length) := by
    rw [hdata, List.length_append, ← hi, List.length_append, hv]
  refine ⟨?_, by rw [← List.drop_drop, h]; exact List.drop_left' hv⟩
  rw [getArray_eq (by omega), hdata, arrayAt_append_right (by omega), ← hi, Nat.sub_self, arrayAt_toList]

theorem orphanNotification_parsed (seq : UInt8) (hzero : ownExtended ≠ ieeeFill 0x00) (hones : ownExtended ≠ ieeeFill 0xFF) :
    parseOrphanNotification (buildOrphanNotification seq ownExtended) = .ok ownExtended := by
  have hcontrol : ((0x0003 : UInt16) ||| bit16 6 ||| ((2 : UInt16) <<< 10) ||| ((3 : UInt16) <<< 14)) = 0xC843 := by decide
  have hdata : buildOrphanNotification seq ownExtended = le16 0xC843 ++ ([seq] ++ (le16 PanId.BROADCAST ++
      (le16 SHORT_BROADCAST ++ (ownExtended.toList ++ [MAC_CMD_ORPHAN_NOTIFICATION])))) := by
    rw [orphanNotification_uncut, orphanNotificationPieces, hcontrol]
    simp
  generalize buildOrphanNotification seq ownExtended = data at hdata
  obtain ⟨hfc, h⟩ : getU16 data 0 = _ ∧ data.drop 2 = _ := getU16_drop hdata
  obtain ⟨-, h⟩ : getByte data 2 = _ ∧ data.drop 3 = _ := getByte_drop h
  obtain ⟨hpan, h⟩ : getU16 data 3 = _ ∧ data.drop 5 = _ := getU16_drop h
  obtain ⟨hshort, h⟩ : getU16 data 5 = _ ∧ data.drop 7 = _ := getU16_drop h
  obtain ⟨horphan, h⟩ : getArray 8 data 7 = _ ∧ data.drop 15 = _ := getArray_drop h
  obtain ⟨hcommand, -⟩ := getByte_drop h
  unfold parseOrphanNotification
  rw [if_neg (by rw [hdata]; simp), hfc, Outcome.ok_bind, if_neg (by simp), hpan, Outcome.ok_bind, hshort, Outcome.ok_bind,
    if_neg (by simp), horphan, Outcome.ok_bind, hcommand, Outcome.ok_bind, if_neg (by simp), if_neg (by simp [hzero, hones])]
  rfl

theorem orphanNotification_parsed_by_parent (seq lqi : UInt8) (hzero : ownExtended ≠ ieeeFill 0x00)
    (hones : ownExtended ≠ ieeeFill 0xFF) :
    parseParentCommand (buildOrphanNotification seq ownExtended) lqi =
      .ok (.orphanNotification ownExtended (.short PanId.BROADCAST SHORT_BROADCAST) lqi) := by
  have h := orphanNotification_framed seq ownExtended
  have hlen := h.length
  rw [h.parseParentCommand (by decide), parentCommandAt, h.index_rest, Outcome.ok_bind,
    if_neg (by simp [MAC_CMD_ORPHAN_NOTIFICATION]), if_neg (by simp [MAC_CMD_ORPHAN_NOTIFICATION]),
    if_neg (by simp [MAC_CMD_ORPHAN_NOTIFICATION]), if_pos ⟨rfl, hlen, by decide, by decide, by decide, by decide⟩,
    orphanNotification_parsed seq hzero hones]
  rfl

theorem associationResponse_parsed {response : MlmeAssociateResponse}
    (h : buildAssociationResponse sequence panId coordinatorExtended response = .ok frame) :
    parseAssociationResponse frame = .ok (response.shortAddress, response.status.raw) := by
  have hframe := associationResponse_framed h
  have hlen := hframe.length
  obtain ⟨pre, hdata, hpre⟩ := hframe.split
  have hsize : 3 + addressingSize 0xCC63 = 21 := by decide
  rw [hsize] at hpre hlen
  simp only [List.length_cons, List.length_append, le16_length] at hlen
  unfold parseAssociationResponse
  rw [if_neg (by omega), hframe.control, Outcome.ok_bind, if_neg (by decide)]
  have hoffset : 3 + (if 0 < dstModeOf 0xCC63 then 2 else 0) +
      (if dstModeOf 0xCC63 = 2 then 2 else if dstModeOf 0xCC63 = 3 then 8 else 0) +
      (if 0 < srcModeOf 0xCC63 ∧ panCompressOf 0xCC63 = false then 2 else 0) +
      (if srcModeOf 0xCC63 = 2 then 2 else if srcModeOf 0xCC63 = 3 then 8 else 0) = 21 := by decide
  dsimp only
  rw [hoffset, if_neg (by omega), index_of_eq pre hdata hpre.symm, Outcome.ok_bind, if_neg (by simp)]
  rw [u16Index_of_eq (pre ++ [0x02]) (by rw [hdata, List.append_assoc]; rfl) (by simp [hpre]), Outcome.ok_bind]
  rw [index_of_eq (pre ++ [0x02] ++ le16 response.shortAddress) (by rw [hdata]; simp only [List.append_assoc]; rfl)
    (by simp [hpre]), Outcome.ok_bind]
  rfl

theorem realignment_parsed {coordinatorShort : ShortAddress} {channel : UInt8} {orphanExtended : IeeeAddress}
    {orphanShort : ShortAddress}
    (h : buildCoordinatorRealignmentOrphanResponse seq panId coordinatorShort coordinatorExtended channel orphanExtended orphanShort =
      .ok frame) (hzero : coordinatorExtended ≠ ieeeFill 0x00) :
    parseCoordinatorRealignmentOrphanResponse frame =
      .ok (⟨panId, coordinatorShort, channel, orphanShort⟩, coordinatorExtended, orphanExtended) := by
  unfold buildCoordinatorRealignmentOrphanResponse at h
  split at h
  · cases h
  rename_i hvalid
  have hcontrol : ((0x0003 : UInt16) ||| bit16 5 ||| ((3 : UInt16) <<< 10) ||| ((3 : UInt16) <<< 14)) = 0xCC23 := by decide
  have hdata : frame = le16 0xCC23 ++ ([seq] ++ (le16 PanId.BROADCAST ++ (orphanExtended.toList ++ (le16 panId ++
      (coordinatorExtended.toList ++ ([MAC_CMD_COORDINATOR_REALIGNMENT] ++ (le16 panId ++ (le16 coordinatorShort ++
      ([channel] ++ (le16 orphanShort ++ [])))))))))) := by
    rw [writeAll_ok h, realignmentPieces, hcontrol]
    simp
  obtain ⟨hfc, h⟩ : getU16 frame 0 = _ ∧ frame.drop 2 = _ := getU16_drop hdata
  obtain ⟨-, h⟩ : getByte frame 2 = _ ∧ frame.drop 3 = _ := getByte_drop h
  obtain ⟨hdstPan, h⟩ : getU16 frame 3 = _ ∧ frame.drop 5 = _ := getU16_drop h
  obtain ⟨hdst, h⟩ : getArray 8 frame 5 = _ ∧ frame.drop 13 = _ := getArray_drop h
  obtain ⟨hsrcPan, h⟩ : getU16 frame 13 = _ ∧ frame.drop 15 = _ := getU16_drop h
  obtain ⟨hsrc, h⟩ : getArray 8 frame 15 = _ ∧ frame.drop 23 = _ := getArray_drop h
  obtain ⟨hcommand, h⟩ : getByte frame 23 = _ ∧ frame.drop 24 = _ := getByte_drop h
  obtain ⟨hpan, h⟩ : getU16 frame 24 = _ ∧ frame.drop 26 = _ := getU16_drop h
  obtain ⟨hshort, h⟩ : getU16 frame 26 = _ ∧ frame.drop 28 = _ := getU16_drop h
  obtain ⟨hchannel, h⟩ : getByte frame 28 = _ ∧ frame.drop 29 = _ := getByte_drop h
  obtain ⟨haddress, -⟩ := getU16_drop h
  have hfields : ¬(panId ≠ panId ∨ panId = PanId.BROADCAST ∨ coordinatorExtended = ieeeFill 0x00 ∨
      coordinatorExtended = ieeeFill 0xFF ∨ orphanExtended = ieeeFill 0x00 ∨ orphanExtended = ieeeFill 0xFF ∨
      0xFFF8 ≤ coordinatorShort ∨ ¬(0x0001 ≤ orphanShort ∧ orphanShort ≤ 0xFFF7) ∨ orphanShort = coordinatorShort ∨
      ¬(11 ≤ channel ∧ channel ≤ 26)) := by
    simp only [not_or] at hvalid ⊢
    obtain ⟨hpan, hcones, hoones, hozero, horphan, hcshort, hdiffer, hchannels⟩ := hvalid
    exact ⟨not_not.mpr rfl, hpan, hzero, hcones, hozero, hoones, hcshort, horphan, hdiffer, hchannels⟩
  unfold parseCoordinatorRealignmentOrphanResponse
  rw [if_neg (by rw [hdata]; simp), hfc, Outcome.ok_bind, if_neg (by simp), hdstPan, Outcome.ok_bind, if_neg (by simp), hdst,
    Outcome.ok_bind, hsrcPan, Outcome.ok_bind, hsrc, Outcome.ok_bind, hcommand, Outcome.ok_bind, if_neg (by simp), hpan,
    Outcome.ok_bind, hshort, Outcome.ok_bind, hchannel, Outcome.ok_bind, haddress, Outcome.ok_bind, if_neg hfields]
  rfl

theorem dataFrame_parsed {mode : AddressMode} {dstAddress : MacAddress} {payload : Buf} {ackRequest framePending : Bool}
    (h : buildDataFrame seq mode ownShort ownExtended dstAddress payload ackRequest framePending = .ok frame) :
    ∃ offset, parseMacAddresses frame =
        .ok ⟨(ownAddress mode dstAddress.panId ownShort ownExtended).getD (.short dstAddress.panId 0xFFFF), dstAddress, offset,
          false⟩ ∧ frame.drop offset = payload := by
  have hframe := dataFrame_framed h
  refine ⟨_, ?_, hframe.drop_rest⟩
  have hsecurity : (dataFrameControl mode dstAddress ackRequest framePending >>> 3) &&& 1 = 0 := by
    cases mode <;> cases dstAddress <;> cases ackRequest <;> cases framePending <;>
      simp only [dataFrameControl, byDestination] <;> decide
  rw [hframe.parseMacAddresses, hsecurity]
  rfl

/-! ## Beacons -/

theorem parseZigbeeBeacon_ok (h : 15 ≤ data.length) : ∃ z, parseZigbeeBeacon data = .ok z := by
  unfold parseZigbeeBeacon
  rw [index_eq (by omega), Outcome.ok_bind, u16Index_eq (by omega), Outcome.ok_bind, arrayIndex_eq (by omega), Outcome.ok_bind,
    arrayIndex_eq (by omega), Outcome.ok_bind, index_eq (by omega), Outcome.ok_bind]
  exact ⟨_, rfl⟩

/-- The pending counts of a beacon are read as they were written. -/
theorem pendingCounts {shorts extendeds : Nat} (hs : shorts ≤ MAX_BEACON_PENDING_ADDRESSES)
    (he : extendeds ≤ MAX_BEACON_PENDING_ADDRESSES) :
    ((UInt8.ofNat shorts ||| (UInt8.ofNat extendeds <<< 4)) &&& 0x07).toNat = shorts ∧
      (((UInt8.ofNat shorts ||| (UInt8.ofNat extendeds <<< 4)) >>> 4) &&& 0x07).toNat = extendeds := by
  have hall : ∀ a b : Fin 8, ((UInt8.ofNat a ||| (UInt8.ofNat b <<< 4)) &&& 0x07).toNat = a ∧
      (((UInt8.ofNat a ||| (UInt8.ofNat b <<< 4)) >>> 4) &&& 0x07).toNat = b := by decide
  exact hall ⟨shorts, Nat.lt_succ_of_le hs⟩ ⟨extendeds, Nat.lt_succ_of_le he⟩

theorem fromRaw_superframeSpec (panCoordinator associationPermit : Bool) :
    SuperframeSpec.fromRaw (superframeSpec panCoordinator associationPermit) =
      ⟨15, 15, 15, false, panCoordinator, associationPermit⟩ := by
  cases panCoordinator <;> cases associationPermit <;> decide

theorem beacon_parsed {panCoordinator associationPermit : Bool} {pendingShort : List ShortAddress}
    {pendingExtended : List IeeeAddress} {beaconPayload : Buf}
    (h : buildNonbeaconBeacon sequence source panCoordinator associationPermit pendingShort pendingExtended beaconPayload = .ok frame)
    (hpayload : 15 ≤ beaconPayload.length) (channel lqi : UInt8) :
    ∃ z, parseZigbeeBeacon beaconPayload = .ok z ∧ parseBeacon channel frame lqi =
      .ok ⟨channel, source, ⟨15, 15, 15, false, panCoordinator, associationPermit⟩, lqi, false, z⟩ := by
  obtain ⟨hshorts, hextendeds, hframe⟩ := beacon_framed h
  obtain ⟨hcountShort, hcountExtended⟩ := pendingCounts hshorts hextendeds
  obtain ⟨z, hz⟩ := parseZigbeeBeacon_ok hpayload
  refine ⟨z, hz, ?_⟩
  have hlen := hframe.length
  obtain ⟨pre, hdata, hpre⟩ := hframe.split
  have hcompress : panCompressOf (byDestination source 0x8000 0xC000) = false ∧ byDestination source 0x8000 0xC000 &&& 0x07 = 0 := by
    cases source <;> simp only [byDestination] <;> decide
  -- The two lists of pending addresses in bytes.
  have hbytesShort : (pendingShort.flatMap le16).length = pendingShort.length * 2 := by
    rw [List.length_flatMap, List.map_congr_left (g := fun _ => 2) fun a _ => le16_length a]
    simp
  have hbytesExtended : (pendingExtended.flatMap Vector.toList).length = pendingExtended.length * 8 := by
    rw [List.length_flatMap, List.map_congr_left (g := fun _ => 8) fun a _ => Vector.length_toList]
    simp
  have hrest : (beaconRest panCoordinator associationPermit pendingShort pendingExtended beaconPayload).length =
      4 + pendingShort.length * 2 + pendingExtended.length * 8 + beaconPayload.length := by
    simp only [beaconRest, List.length_append, List.length_cons, le16_length, hbytesShort, hbytesExtended]
    omega
  have hspec : u16Index frame (3 + addressingSize (byDestination source 0x8000 0xC000)) =
      .ok (superframeSpec panCoordinator associationPermit) := by
    exact u16Index_of_eq pre hdata hpre.symm
  have hdrop : frame.drop (3 + addressingSize (byDestination source 0x8000 0xC000) + 2) =
      (0 : UInt8) :: (UInt8.ofNat pendingShort.length ||| (UInt8.ofNat pendingExtended.length <<< 4)) ::
        (pendingShort.flatMap le16 ++ (pendingExtended.flatMap Vector.toList ++ beaconPayload)) := by
    rw [← List.drop_drop, hframe.drop_rest]
    rfl
  obtain ⟨hgts, hdrop⟩ := getByte_drop hdrop
  obtain ⟨hpending, hdrop⟩ := getByte_drop hdrop
  have hend : frame.drop (3 + addressingSize (byDestination source 0x8000 0xC000) + 2 + 1 + 1 +
      (pendingShort.length * 2 + pendingExtended.length * 8)) = beaconPayload := by
    rw [← List.drop_drop, hdrop, ← List.drop_drop, List.drop_left' hbytesShort, List.drop_left' hbytesExtended]
  unfold parseBeacon
  rw [if_neg (by omega), hframe.control, Outcome.ok_bind, if_neg (by simp [hcompress.2]),
    hframe.parseSourceAddress hcompress.1, Outcome.ok_bind]
  dsimp only
  rw [if_neg (by omega), hspec, Outcome.ok_bind, hgts, Outcome.ok_bind]
  rw [show gtsEnd 0 (3 + addressingSize (byDestination source 0x8000 0xC000) + 3) =
    3 + addressingSize (byDestination source 0x8000 0xC000) + 2 + 1 from rfl, hpending, Outcome.ok_bind, hcountShort,
    hcountExtended, hend, if_neg (by omega), if_neg (by omega), hz, Outcome.ok_bind, fromRaw_superframeSpec]
  rfl

/-! ## Indices in range -/

theorem index_safe (h : i < data.length) : (index data i).Safe := by
  rw [index_eq h]
  exact safe_ok _

theorem u16Index_safe (h : i + 1 < data.length) : (u16Index data i).Safe := by
  rw [u16Index_eq h]
  exact safe_ok _

theorem arrayIndex_safe (h : i + n ≤ data.length) : (arrayIndex n data i).Safe := by
  rw [arrayIndex_eq h]
  exact safe_ok _

theorem addressAt_safe (data : Buf) (mode : UInt16) (pan : PanId) (offset : Nat) : (addressAt data mode pan offset).Safe := by
  refine safe_ite (fun h => ?_) fun _ => safe_ite (fun h => ?_) fun _ => safe_ok _
  · exact (u16Index_safe (by omega)).bind fun _ _ => safe_ok _
  · exact (arrayIndex_safe h.2).bind fun _ _ => safe_ok _

theorem panAt_safe (data : Buf) (present : Bool) (default : PanId) (offset : Nat) : (panAt data present default offset).Safe := by
  refine safe_ite (fun h => ?_) fun _ => safe_ok _
  exact (u16Index_safe (by omega)).bind fun _ _ => safe_ok _

theorem parseSourceAddress_safe (data : Buf) (fc : UInt16) : (parseSourceAddress data fc).Safe := by
  refine (panAt_safe _ _ _ _).bind fun _ _ => (panAt_safe _ _ _ _).bind fun _ _ => (addressAt_safe _ _ _ _).bind fun s _ => ?_
  cases s with
  | none => exact safe_error _
  | some s => exact safe_ok _

theorem parseDestAddress_safe (data : Buf) (fc : UInt16) : (parseDestAddress data fc).Safe := by
  refine safe_guard fun h => ?_
  refine (u16Index_safe (by omega)).bind fun _ _ => (addressAt_safe _ _ _ _).bind fun s _ => ?_
  cases s with
  | none => exact safe_error _
  | some s => exact safe_ok _

theorem parseBeacon_safe (channel : UInt8) (data : Buf) (lqi : UInt8) : (parseBeacon channel data lqi).Safe := by
  refine safe_guard fun hlen => ?_
  refine (u16Index_safe (by omega)).bind fun fc _ => ?_
  refine safe_guard fun _ => ?_
  refine (parseSourceAddress_safe data fc).bind fun _ _ => ?_
  refine safe_guard fun hroom => ?_
  refine (u16Index_safe (by omega)).bind fun _ _ => ?_
  refine (getByte_safe _ _).bind fun _ _ => (getByte_safe _ _).bind fun _ _ => ?_
  refine safe_guard fun _ => ?_
  refine safe_guard fun hpayload => ?_
  obtain ⟨z, hz⟩ := parseZigbeeBeacon_ok (Nat.not_lt.mp hpayload)
  rw [hz]
  exact safe_ok _

theorem parseMacAddresses_safe (data : Buf) : (parseMacAddresses data).Safe := by
  refine safe_ite (fun _ => safe_ok _) fun hlen => ?_
  refine (u16Index_safe (by omega)).bind fun fc _ => (panAt_safe _ _ _ _).bind fun _ _ => ?_
  refine (addressAt_safe _ _ _ _).bind fun _ _ => Outcome.Safe.bind ?_ fun _ _ => safe_ok _
  exact (panAt_safe _ _ _ _).bind fun _ _ => (addressAt_safe _ _ _ _).bind fun _ _ => safe_ok _

theorem parseAssociationResponse_safe (data : Buf) : (parseAssociationResponse data).Safe := by
  refine safe_guard fun hlen => ?_
  refine (u16Index_safe (by omega)).bind fun fc _ => ?_
  refine safe_guard fun _ => ?_
  refine safe_guard fun hroom => ?_
  refine (index_safe (by omega)).bind fun _ _ => ?_
  refine safe_guard fun _ => ?_
  exact (u16Index_safe (by omega)).bind fun _ _ => (index_safe (by omega)).bind fun _ _ => safe_ok _

theorem parseOrphanNotification_safe (data : Buf) : (parseOrphanNotification data).Safe := by
  refine safe_guard fun _ => ?_
  refine (getU16_safe _ _).bind fun _ _ => safe_guard fun _ => ?_
  refine (getU16_safe _ _).bind fun _ _ => (getU16_safe _ _).bind fun _ _ => ?_
  refine safe_guard fun _ => ?_
  refine (getArray_safe _ _ _).bind fun _ _ => (getByte_safe _ _).bind fun _ _ => ?_
  refine safe_guard fun _ => ?_
  exact safe_guard fun _ => safe_ok _

theorem parseCoordinatorRealignment_safe (data : Buf) : (parseCoordinatorRealignmentOrphanResponse data).Safe := by
  refine safe_guard fun _ => ?_
  refine (getU16_safe _ _).bind fun _ _ => safe_guard fun _ => ?_
  refine (getU16_safe _ _).bind fun _ _ => safe_guard fun _ => ?_
  refine (getArray_safe _ _ _).bind fun _ _ => (getU16_safe _ _).bind fun _ _ => ?_
  refine (getArray_safe _ _ _).bind fun _ _ => (getByte_safe _ _).bind fun _ _ => ?_
  refine safe_guard fun _ => ?_
  refine (getU16_safe _ _).bind fun _ _ => (getU16_safe _ _).bind fun _ _ => ?_
  refine (getByte_safe _ _).bind fun _ _ => (getU16_safe _ _).bind fun _ _ => ?_
  exact safe_guard fun _ => safe_ok _

theorem parseParentCommand_safe (data : Buf) (lqi : UInt8) : (parseParentCommand data lqi).Safe := by
  refine safe_guard fun hlen => ?_
  refine (u16Index_safe (by omega)).bind fun fc _ => ?_
  refine safe_guard fun _ => ?_
  refine safe_guard fun _ => ?_
  refine safe_guard fun hroom => ?_
  refine (parseMacAddresses_safe data).bind fun addresses _ => ?_
  refine safe_guard fun _ => ?_
  refine (index_safe (Nat.not_le.mp hroom)).bind fun _ _ => ?_
  refine safe_ite (fun _ => safe_ok _) fun _ => ?_
  refine safe_ite (fun harm => ?_) fun _ => safe_ite (fun _ => ?_) fun _ =>
    safe_ite (fun _ => ?_) fun _ => safe_error _
  · refine (index_safe (by omega)).bind fun _ _ => ?_
    unfold associationCommand
    split
    · exact safe_error _
    · exact safe_guard fun _ => safe_ok _
  · exact safe_guard fun _ => safe_ok _
  · exact (parseOrphanNotification_safe data).bind fun _ _ => safe_ok _

/-! ## The two payload offsets -/

theorem mode_cases {m : UInt16} (h : m.toNat ≤ 3) (hreserved : m ≠ 1) : m = 0 ∨ m = 2 ∨ m = 3 := by
  rw [ne_eq, ← UInt16.toNat_inj] at hreserved
  rw [← UInt16.toNat_inj, ← UInt16.toNat_inj, ← UInt16.toNat_inj]
  have hone : (1 : UInt16).toNat = 1 := rfl
  have hzero : (0 : UInt16).toNat = 0 := rfl
  have htwo : (2 : UInt16).toNat = 2 := rfl
  have hthree : (3 : UInt16).toNat = 3 := rfl
  omega

theorem dstMode_cases (h : dstModeOf fc ≠ 1) : dstModeOf fc = 0 ∨ dstModeOf fc = 2 ∨ dstModeOf fc = 3 :=
  mode_cases (by rw [dstModeOf, UInt16.toNat_and]; exact Nat.and_le_right) h

theorem srcMode_cases (h : srcModeOf fc ≠ 1) : srcModeOf fc = 0 ∨ srcModeOf fc = 2 ∨ srcModeOf fc = 3 :=
  mode_cases (by rw [srcModeOf, UInt16.toNat_and]; exact Nat.and_le_right) h

/-- The bytes of an address of a mode. -/
def modeSize (mode : UInt16) : Nat := if mode = 2 then 2 else if mode = 3 then 8 else 0

theorem addressAt_fits (data : Buf) (mode : UInt16) (pan : PanId) (offset : Nat)
    (h : offset + modeSize mode ≤ data.length) :
    ∃ a, addressAt data mode pan offset = .ok a ∧ addressLen a = modeSize mode := by
  unfold addressAt
  by_cases htwo : mode = 2
  · subst htwo
    have hroom : offset + 2 ≤ data.length := h
    rw [if_pos ⟨rfl, hroom⟩, u16Index_eq (by omega)]
    exact ⟨_, rfl, le16_length _⟩
  · rw [if_neg fun hc => htwo hc.1]
    by_cases hthree : mode = 3
    · subst hthree
      have hroom : offset + 8 ≤ data.length := h
      rw [if_pos ⟨rfl, hroom⟩, arrayIndex_eq hroom]
      exact ⟨_, rfl, Vector.length_toList⟩
    · rw [if_neg fun hc => hthree hc.1]
      exact ⟨_, rfl, by simp [modeSize, htwo, hthree, addressLen]⟩

theorem panAt_fits (data : Buf) (present : Bool) (default : PanId) (offset : Nat)
    (h : present = true → offset + 2 ≤ data.length) :
    ∃ pan, panAt data present default offset = .ok (pan, offset + if present then 2 else 0) := by
  unfold panAt
  cases present with
  | false => exact ⟨default, rfl⟩
  | true =>
    have hroom := h rfl
    rw [if_pos ⟨rfl, hroom⟩, u16Index_eq (by omega)]
    exact ⟨_, rfl⟩

theorem addressingSize_eq (hdst : dstModeOf fc ≠ 1) (hsrc : srcModeOf fc ≠ 1) :
    addressingSize fc = (if decide (0 < dstModeOf fc) then 2 else 0) + modeSize (dstModeOf fc) +
      ((if decide (0 < srcModeOf fc) && !panCompressOf fc then 2 else 0) + modeSize (srcModeOf fc)) := by
  unfold addressingSize modeSize
  rcases dstMode_cases hdst with hd | hd | hd <;> rcases srcMode_cases hsrc with hs | hs | hs <;> rw [hd, hs] <;>
    cases panCompressOf fc <;> rfl

/-- **`parse_mac_addresses` and `addressing_size` agree on the payload offset.** -/
theorem payloadOffset_eq {r : MacAddresses} (hfc : u16Index data 0 = .ok fc) (hdst : dstModeOf fc ≠ 1) (hsrc : srcModeOf fc ≠ 1)
    (hlen : 3 + addressingSize fc ≤ data.length) (h : parseMacAddresses data = .ok r) : r.payloadOffset = 3 + addressingSize fc := by
  have hsize := addressingSize_eq hdst hsrc
  obtain ⟨dstPan, hdstPan⟩ := panAt_fits data (decide (0 < dstModeOf fc)) 0xFFFF 3
    fun hpresent => by
      rw [hpresent, if_pos rfl] at hsize
      omega
  obtain ⟨dst, hdstAt, hdstLen⟩ := addressAt_fits data (dstModeOf fc) dstPan
    (3 + if decide (0 < dstModeOf fc) then 2 else 0) (by omega)
  obtain ⟨srcPan, hsrcPan⟩ := panAt_fits data (decide (0 < srcModeOf fc) && !panCompressOf fc) dstPan
    ((3 + if decide (0 < dstModeOf fc) then 2 else 0) + addressLen dst) fun hpresent => by
      rw [hpresent, if_pos rfl] at hsize
      omega
  obtain ⟨src, hsrcAt, hsrcLen⟩ := addressAt_fits data (srcModeOf fc) srcPan
    ((3 + if decide (0 < dstModeOf fc) then 2 else 0) + addressLen dst +
      if decide (0 < srcModeOf fc) && !panCompressOf fc then 2 else 0) (by omega)
  unfold parseMacAddresses at h
  rw [if_neg (by omega), hfc, Outcome.ok_bind, hdstPan, Outcome.ok_bind, hdstAt, Outcome.ok_bind] at h
  unfold sourceFieldAt at h
  rw [hsrcPan, Outcome.ok_bind, hsrcAt] at h
  cases h
  dsimp only
  omega

/-! ## One command, one reading -/

inductive Command where
  | beaconRequest
  | associationRequest
  | associationResponse
  | dataRequest
  | orphanNotification
  | coordinatorRealignment
  deriving DecidableEq

/-- The command identifiers of the frames. -/
def Command.id : Command → UInt8
  | beaconRequest => 0x07
  | associationRequest => 0x01
  | associationResponse => 0x02
  | dataRequest => 0x04
  | orphanNotification => MAC_CMD_ORPHAN_NOTIFICATION
  | coordinatorRealignment => MAC_CMD_COORDINATOR_REALIGNMENT

variable {c : Command}

theorem Command.id_injective {c' : Command} (h : c.id = c'.id) : c = c' := by
  cases c <;> cases c' <;> first | rfl | exact absurd h (by decide)

def MacCommandEvent.command : MacCommandEvent → Command
  | beaconRequest _ _ => .beaconRequest
  | associationRequest _ _ _ _ => .associationRequest
  | dataRequest _ _ _ => .dataRequest
  | orphanNotification _ _ _ => .orphanNotification

/-- Some parser takes the frame for this command. -/
def AcceptedAs (data : Buf) (c : Command) : Prop :=
  (∃ lqi e, parseParentCommand data lqi = .ok e ∧ e.command = c) ∨
    (c = .associationResponse ∧ ∃ r, parseAssociationResponse data = .ok r) ∨
    (c = .orphanNotification ∧ ∃ a, parseOrphanNotification data = .ok a) ∨
    (c = .coordinatorRealignment ∧ ∃ r, parseCoordinatorRealignmentOrphanResponse data = .ok r)

/-- The commands that the builders make, with any arguments. -/
inductive Built : Command → Buf → Prop
  | associationRequest (seq : UInt8) (coord : MacAddress) (own : IeeeAddress) (cap : CapabilityInfo) :
      Built .associationRequest (buildAssociationRequest seq coord own cap)
  | dataRequest (seq : UInt8) (coord : MacAddress) (own : IeeeAddress) : Built .dataRequest (buildDataRequest seq coord own)
  | dataRequestShort (seq : UInt8) (coord : MacAddress) (own : ShortAddress) :
      Built .dataRequest (buildDataRequestShort seq coord own)
  | associationResponse {sequence : UInt8} {panId : PanId} {coordinator : IeeeAddress} {response : MlmeAssociateResponse}
      {frame : Buf} (h : buildAssociationResponse sequence panId coordinator response = .ok frame) :
      Built .associationResponse frame
  | orphanNotification (seq : UInt8) (own : IeeeAddress) : Built .orphanNotification (buildOrphanNotification seq own)
  | coordinatorRealignment {seq : UInt8} {panId : PanId} {short : ShortAddress} {coordinator : IeeeAddress} {channel : UInt8}
      {orphan : IeeeAddress} {orphanShort : ShortAddress} {frame : Buf}
      (h : buildCoordinatorRealignmentOrphanResponse seq panId short coordinator channel orphan orphanShort = .ok frame) :
      Built .coordinatorRealignment frame

theorem Built.framed (h : Built c frame) : ∃ fc dst src rest, Framed frame fc dst src (c.id :: rest) := by
  cases h with
  | associationRequest seq coord own cap => exact ⟨_, _, _, _, associationRequest_framed seq coord own cap⟩
  | dataRequest seq coord own => exact ⟨_, _, _, _, dataRequest_framed seq coord own⟩
  | dataRequestShort seq coord own => exact ⟨_, _, _, _, dataRequestShort_framed seq coord own⟩
  | associationResponse h => exact ⟨_, _, _, _, associationResponse_framed h⟩
  | orphanNotification seq own => exact ⟨_, _, _, _, orphanNotification_framed seq own⟩
  | coordinatorRealignment h => exact ⟨_, _, _, _, realignment_framed h⟩

/-- A parent takes a command for what its identifier says. -/
theorem parentCommandAt_id {destination : MacAddress} {lqi : UInt8} {e : MacCommandEvent}
    (h : parentCommandAt data fc offset source destination lqi = .ok e) : index data offset = .ok e.command.id := by
  unfold parentCommandAt at h
  obtain ⟨command, hcommand, h⟩ := bind_eq_ok h
  rw [hcommand]
  split at h
  · rename_i harm
    cases h
    rw [harm.1]
    rfl
  split at h
  · rename_i harm
    obtain ⟨capability, -, h⟩ := bind_eq_ok h
    unfold associationCommand at h
    split at h
    · cases h
    · obtain ⟨-, h⟩ := of_guard h
      cases h
      rw [harm.1]
      rfl
  split at h
  · rename_i harm
    obtain ⟨-, h⟩ := of_guard h
    cases h
    rw [harm.1]
    rfl
  split at h
  · rename_i harm
    obtain ⟨orphan, -, h⟩ := bind_eq_ok h
    cases h
    rw [harm.1]
    rfl
  · cases h

theorem parseParentCommand_id {lqi : UInt8} {e : MacCommandEvent} (hfc : u16Index data 0 = .ok fc)
    (h : parseParentCommand data lqi = .ok e) : index data (3 + addressingSize fc) = .ok e.command.id := by
  unfold parseParentCommand at h
  obtain ⟨-, h⟩ := of_guard h
  rw [hfc, Outcome.ok_bind] at h
  obtain ⟨-, h⟩ := of_guard h
  obtain ⟨-, h⟩ := of_guard h
  obtain ⟨-, h⟩ := of_guard h
  obtain ⟨addresses, -, h⟩ := bind_eq_ok h
  obtain ⟨-, h⟩ := of_guard h
  exact parentCommandAt_id h

theorem parseAssociationResponse_id {r : ShortAddress × UInt8} (hfc : u16Index data 0 = .ok fc) (hdst : dstModeOf fc ≠ 1)
    (hsrc : srcModeOf fc ≠ 1) (h : parseAssociationResponse data = .ok r) : index data (3 + addressingSize fc) = .ok 0x02 := by
  unfold parseAssociationResponse at h
  obtain ⟨-, h⟩ := of_guard h
  rw [hfc, Outcome.ok_bind] at h
  obtain ⟨-, h⟩ := of_guard h
  obtain ⟨-, h⟩ := of_guard h
  obtain ⟨command, hcommand, h⟩ := bind_eq_ok h
  obtain ⟨hid, -⟩ := of_guard h
  have hoffset : 3 + addressingSize fc = 3 + (if 0 < dstModeOf fc then 2 else 0) +
      (if dstModeOf fc = 2 then 2 else if dstModeOf fc = 3 then 8 else 0) +
      (if 0 < srcModeOf fc ∧ panCompressOf fc = false then 2 else 0) +
      (if srcModeOf fc = 2 then 2 else if srcModeOf fc = 3 then 8 else 0) := by
    unfold addressingSize
    rcases dstMode_cases hdst with hd | hd | hd <;> rcases srcMode_cases hsrc with hs | hs | hs <;> rw [hd, hs] <;>
      cases panCompressOf fc <;> rfl
  rw [hoffset, hcommand, not_not.mp hid]

theorem index_of_getByte (h : getByte data i = .ok b) : index data i = .ok b := by
  unfold getByte at h
  unfold index
  cases hget : data[i]? with
  | none =>
    rw [hget] at h
    cases h
  | some b' =>
    rw [hget] at h
    cases h
    rfl

theorem u16Index_of_getU16 (h : getU16 data i = .ok v) : u16Index data i = .ok v := by
  obtain ⟨low, hlow, h⟩ := bind_eq_ok h
  obtain ⟨high, hhigh, h⟩ := bind_eq_ok h
  rw [u16Index, index_of_getByte hlow, Outcome.ok_bind, index_of_getByte hhigh]
  exact h

theorem parseOrphanNotification_id {a : IeeeAddress} (h : parseOrphanNotification data = .ok a) :
    u16Index data 0 = .ok 0xC843 ∧ index data 15 = .ok MAC_CMD_ORPHAN_NOTIFICATION := by
  unfold parseOrphanNotification at h
  obtain ⟨-, h⟩ := of_guard h
  obtain ⟨fc, hfc, h⟩ := bind_eq_ok h
  obtain ⟨hcontrol, h⟩ := of_guard h
  obtain ⟨_, -, h⟩ := bind_eq_ok h
  obtain ⟨_, -, h⟩ := bind_eq_ok h
  obtain ⟨-, h⟩ := of_guard h
  obtain ⟨_, -, h⟩ := bind_eq_ok h
  obtain ⟨command, hcommand, h⟩ := bind_eq_ok h
  obtain ⟨hid, -⟩ := of_guard h
  rw [not_not.mp hcontrol] at hfc
  rw [not_not.mp hid] at hcommand
  exact ⟨u16Index_of_getU16 hfc, index_of_getByte hcommand⟩

theorem parseCoordinatorRealignment_id {r : CoordinatorRealignment × IeeeAddress × IeeeAddress}
    (h : parseCoordinatorRealignmentOrphanResponse data = .ok r) :
    u16Index data 0 = .ok 0xCC23 ∧ index data 23 = .ok MAC_CMD_COORDINATOR_REALIGNMENT := by
  unfold parseCoordinatorRealignmentOrphanResponse at h
  obtain ⟨-, h⟩ := of_guard h
  obtain ⟨fc, hfc, h⟩ := bind_eq_ok h
  obtain ⟨hcontrol, h⟩ := of_guard h
  obtain ⟨_, -, h⟩ := bind_eq_ok h
  obtain ⟨-, h⟩ := of_guard h
  obtain ⟨_, -, h⟩ := bind_eq_ok h
  obtain ⟨_, -, h⟩ := bind_eq_ok h
  obtain ⟨_, -, h⟩ := bind_eq_ok h
  obtain ⟨command, hcommand, h⟩ := bind_eq_ok h
  obtain ⟨hid, -⟩ := of_guard h
  rw [not_not.mp hcontrol] at hfc
  rw [not_not.mp hid] at hcommand
  exact ⟨u16Index_of_getU16 hfc, index_of_getByte hcommand⟩

theorem modeOf_ne_one (a : Option MacAddress) : modeOf a ≠ 1 := by
  rcases a with _ | ⟨pan, address⟩ | ⟨pan, address⟩ <;> simp only [modeOf] <;> decide

/-- **A command that was built is taken for no other command.** -/
theorem Built.accepted {c' : Command} (h : Built c frame) (haccepted : AcceptedAs frame c') : c' = c := by
  obtain ⟨fc, dst, src, rest, hframe⟩ := h.framed
  have hid : index frame (3 + addressingSize fc) = .ok c'.id := by
    rcases haccepted with ⟨lqi, e, hparse, rfl⟩ | ⟨rfl, r, hparse⟩ | ⟨rfl, a, hparse⟩ | ⟨rfl, r, hparse⟩
    · exact parseParentCommand_id hframe.control hparse
    · exact parseAssociationResponse_id hframe.control (hframe.dstMode ▸ modeOf_ne_one dst) (hframe.srcMode ▸ modeOf_ne_one src)
        hparse
    · obtain ⟨hfc, hcommand⟩ := parseOrphanNotification_id hparse
      rw [hframe.control] at hfc
      cases hfc
      exact hcommand
    · obtain ⟨hfc, hcommand⟩ := parseCoordinatorRealignment_id hparse
      rw [hframe.control] at hfc
      cases hfc
      exact hcommand
  rw [hframe.index_rest] at hid
  exact (Command.id_injective (Outcome.ok.inj hid)).symm

/-! ## All together -/

/-- What the builders and the parsers of MAC frames owe each other. -/
structure FramesInverse : Prop where
  /-- The bounded buffers of the infallible builders hold the whole frame, and what the others return is whole. -/
  associationRequest_whole : ∀ seq coord own cap,
    buildAssociationRequest seq coord own cap = (associationRequestPieces seq coord own cap).flatten
  dataRequest_whole : ∀ seq coord own, buildDataRequest seq coord own = (dataRequestPieces seq coord own).flatten
  dataRequestShort_whole : ∀ seq coord own, buildDataRequestShort seq coord own = (dataRequestShortPieces seq coord own).flatten
  orphanNotification_whole : ∀ seq own, buildOrphanNotification seq own = (orphanNotificationPieces seq own).flatten
  /-- The matching parser returns what the builder was given. -/
  associationRequest : ∀ seq coord own cap lqi, Parent coord → own ≠ ieeeFill 0xFF →
    parseParentCommand (buildAssociationRequest seq coord own cap) lqi = .ok (.associationRequest own coord cap lqi)
  dataRequest : ∀ seq coord own lqi, Parent coord → own ≠ ieeeFill 0xFF →
    parseParentCommand (buildDataRequest seq coord own) lqi = .ok (.dataRequest (.extended coord.panId own) coord lqi)
  dataRequestShort : ∀ seq coord (own : ShortAddress) lqi, Parent coord → own < 0xFFF8 →
    parseParentCommand (buildDataRequestShort seq coord own) lqi = .ok (.dataRequest (.short coord.panId own) coord lqi)
  associationResponse : ∀ sequence panId coordinator response frame,
    buildAssociationResponse sequence panId coordinator response = .ok frame →
      parseAssociationResponse frame = .ok (response.shortAddress, response.status.raw) ∧
      parseMacAddresses frame =
        .ok ⟨.extended panId coordinator, .extended panId response.deviceAddress, 21, false⟩
  orphanNotification : ∀ seq own lqi, own ≠ ieeeFill 0x00 → own ≠ ieeeFill 0xFF →
    parseOrphanNotification (buildOrphanNotification seq own) = .ok own ∧
      parseParentCommand (buildOrphanNotification seq own) lqi =
        .ok (.orphanNotification own (.short PanId.BROADCAST SHORT_BROADCAST) lqi)
  coordinatorRealignment : ∀ seq panId short coordinator channel orphan orphanShort frame,
    buildCoordinatorRealignmentOrphanResponse seq panId short coordinator channel orphan orphanShort = .ok frame →
      coordinator ≠ ieeeFill 0x00 →
      parseCoordinatorRealignmentOrphanResponse frame = .ok (⟨panId, short, channel, orphanShort⟩, coordinator, orphan)
  dataFrame : ∀ seq mode ownShort ownExtended dst payload ackRequest framePending frame,
    buildDataFrame seq mode ownShort ownExtended dst payload ackRequest framePending = .ok frame →
      ∃ offset, parseMacAddresses frame =
        .ok ⟨(ownAddress mode dst.panId ownShort ownExtended).getD (.short dst.panId 0xFFFF), dst, offset, false⟩ ∧
        frame.drop offset = payload
  beacon : ∀ sequence source panCoordinator associationPermit pendingShort pendingExtended payload frame channel lqi,
    buildNonbeaconBeacon sequence source panCoordinator associationPermit pendingShort pendingExtended payload = .ok frame →
      15 ≤ payload.length → ∃ z, parseZigbeeBeacon payload = .ok z ∧ parseBeacon channel frame lqi =
        .ok ⟨channel, source, ⟨15, 15, 15, false, panCoordinator, associationPermit⟩, lqi, false, z⟩
  /-- No built command is accepted as another one. -/
  commands : ∀ c c' frame, Built c frame → AcceptedAs frame c' → c' = c
  /-- No parser indexes past the end. -/
  inBounds : ∀ data, (parseMacAddresses data).Safe ∧ (∀ fc, (parseSourceAddress data fc).Safe) ∧
    (∀ fc, (parseDestAddress data fc).Safe) ∧ (∀ channel lqi, (parseBeacon channel data lqi).Safe) ∧
    (parseAssociationResponse data).Safe ∧ (parseOrphanNotification data).Safe ∧
    (parseCoordinatorRealignmentOrphanResponse data).Safe ∧ ∀ lqi, (parseParentCommand data lqi).Safe
  offsets : ∀ data fc r, u16Index data 0 = .ok fc → dstModeOf fc ≠ 1 → srcModeOf fc ≠ 1 →
    3 + addressingSize fc ≤ data.length → parseMacAddresses data = .ok r → r.payloadOffset = 3 + addressingSize fc

/-- **MAC frame builders and parsers are inverse.** -/
theorem mac_frames_inverse : FramesInverse where
  associationRequest_whole := associationRequest_uncut
  dataRequest_whole := dataRequest_uncut
  dataRequestShort_whole := dataRequestShort_uncut
  orphanNotification_whole := orphanNotification_uncut
  associationRequest := fun seq _ _ cap lqi hcoord hown => associationRequest_parsed seq cap lqi hcoord hown
  dataRequest := fun seq _ _ lqi hcoord hown => dataRequest_parsed seq lqi hcoord hown
  dataRequestShort := fun seq _ _ lqi hcoord hown => dataRequestShort_parsed seq lqi hcoord hown
  associationResponse := by
    intro sequence panId coordinator response frame h
    refine ⟨associationResponse_parsed h, ?_⟩
    rw [(associationResponse_framed h).parseMacAddresses]
    rw [show 3 + addressingSize 0xCC63 = 21 by decide, show ((0xCC63 : UInt16) >>> 3) &&& 1 = 0 by decide]
    rfl
  orphanNotification := fun seq _ lqi hzero hones =>
    ⟨orphanNotification_parsed seq hzero hones, orphanNotification_parsed_by_parent seq lqi hzero hones⟩
  coordinatorRealignment := fun _ _ _ _ _ _ _ _ h hzero => realignment_parsed h hzero
  dataFrame := fun _ _ _ _ _ _ _ _ _ h => dataFrame_parsed h
  beacon := fun _ _ _ _ _ _ _ _ channel lqi h hpayload => beacon_parsed h hpayload channel lqi
  commands := fun _ _ _ h haccepted => h.accepted haccepted
  inBounds := fun data => ⟨parseMacAddresses_safe data, parseSourceAddress_safe data, parseDestAddress_safe data,
    fun channel lqi => parseBeacon_safe channel data lqi, parseAssociationResponse_safe data, parseOrphanNotification_safe data,
    parseCoordinatorRealignment_safe data, parseParentCommand_safe data⟩
  offsets := fun _ _ _ hfc hdst hsrc hlen h => payloadOffset_eq hfc hdst hsrc hlen h

/-- A Data Request from the short address of no device is built, and no parent accepts it. -/
theorem broadcast_source_refused :
    parseParentCommand (buildDataRequestShort 0 (.short 0x1A62 0x0000) 0xFFFF) 255 = reject := by
  decide

end Zigbee.Mac
