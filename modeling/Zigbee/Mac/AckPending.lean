import Mathlib.Data.Nat.Bitwise
import Zigbee.Lib.FieldReader
import Zigbee.Lib.Run
import Zigbee.Lib.Table
import Zigbee.Mac.FrameRoundTrip

/-!
# Frame Pending in automatic acknowledgements

Model of `zigbee-mac/src/ack_pending.rs`: the table of armed children that decides the Frame Pending bit,
and the parser that finds the child in a Data Request.

* `AckPendingTable` — the armed sources, in a contiguous prefix of `N` slots.
* `dataRequestSource` — the source's function, to be compared with `parseParentCommand`.
* `RequestFrame` — the parts of a Data Request that both parsers look at.
* `ack_agrees_iff` — the two parsers agree about exactly the frames that are `Plain`.
-/

namespace Zigbee.Mac

open Bytes Checked ByteParser Outcome

def CMD_DATA_REQUEST : UInt8 := 0x04

inductive AckPendingError where
  | invalidAddress
  | tableFull
  deriving DecidableEq, Repr

def validAddress : MacAddress → Bool
  | .short pan address => decide (pan ≠ PanId.BROADCAST ∧ address < 0xFFF8)
  | .extended pan address => decide (pan ≠ PanId.BROADCAST ∧ address ≠ ieeeFill 0xFF)

structure AckPendingTable (N : Nat) where
  entries : List MacAddress
  room : entries.length ≤ N

namespace AckPendingTable

variable {N : Nat}

def new : AckPendingTable N := ⟨[], Nat.zero_le N⟩

def position (t : AckPendingTable N) (address : MacAddress) : Option Nat := t.entries.findIdx? (· == address)

def contains (t : AckPendingTable N) (address : MacAddress) : Bool := (t.position address).isSome

/-- Arm or disarm one source. -/
def set (t : AckPendingTable N) (address : MacAddress) (pending : Bool) : Except AckPendingError (AckPendingTable N) :=
  if validAddress address = false then .error .invalidAddress
  else
    match t.position address, pending with
    | some _, true | none, false => .ok t
    | some index, false => .ok ⟨Table.swapRemove t.entries index, (Table.length_swapRemove_le _ _).trans t.room⟩
    | none, true =>
      if h : t.entries.length < N then
        .ok ⟨t.entries ++ [address], by
          rw [List.length_append, List.length_singleton]
          exact h⟩
      else .error .tableFull

def clear (_ : AckPendingTable N) : AckPendingTable N := new

end AckPendingTable

def readU16 (frame : Buf) (offset : Nat) : Option UInt16 :=
  if offset + 1 < frame.length then some (u16At frame offset) else none

/-- The source PAN, which is the destination PAN under compression, and the offset behind it. -/
def requestPanAt (frame : Buf) (fc : UInt16) (dstPan : PanId) (offset : Nat) : Option (PanId × Nat) :=
  if fc &&& bit16 6 ≠ 0 then some (dstPan, offset) else (readU16 frame offset).map fun pan => (pan, offset + 2)

/-- The source address, and the offset behind it. -/
def requestSourceAt (frame : Buf) (fc : UInt16) (pan : PanId) (offset : Nat) : Option (MacAddress × Nat) :=
  if srcModeOf fc = 2 then (readU16 frame offset).map fun short => (.short pan short, offset + 2)
  else if offset + 8 ≤ frame.length then some (.extended pan (arrayAt 8 frame offset), offset + 8)
  else none

def dataRequestSource (frame : Buf) : Option MacAddress := do
  let fc ← readU16 frame 0
  if fc &&& 0x07 ≠ 0x03 ∨ fc &&& bit16 3 ≠ 0 ∨ fc &&& bit16 5 = 0 then none
  else if ¬ (dstModeOf fc = 2 ∨ dstModeOf fc = 3) ∨ ¬ (srcModeOf fc = 2 ∨ srcModeOf fc = 3) then none
  else
    let dstPan ← readU16 frame 3
    let srcPan ← requestPanAt frame fc dstPan (3 + (2 + if dstModeOf fc = 2 then 2 else 8))
    if srcPan.1 ≠ dstPan then none
    else
      let source ← requestSourceAt frame fc srcPan.1 srcPan.2
      if frame.length ≠ source.2 + 1 ∨ u8At frame source.2 ≠ CMD_DATA_REQUEST ∨ validAddress source.1 = false then none
      else some source.1

/-- Frame Pending for the acknowledgement of a frame. -/
def AckPendingTable.framePending {N : Nat} (t : AckPendingTable N) (frame : Buf) : Bool :=
  (dataRequestSource frame).any t.contains

/-! ## The parts of a Data Request -/

/-- A Data Request with its addresses: an unsecured command that asks for an acknowledgement, from a valid
    source in the PAN of its destination. -/
structure RequestFrame (frame : Buf) (fc : UInt16) (destination source : MacAddress) : Prop where
  framed : Framed frame fc (some destination) (some source) [CMD_DATA_REQUEST]
  command : fc &&& 0x07 = 0x03
  unsecured : fc &&& bit16 3 = 0
  ackRequest : fc &&& bit16 5 ≠ 0
  onePan : source.panId = destination.panId
  valid : validAddress source = true

/-- What the parent's parser checks beyond that. -/
def PlainRequest (fc : UInt16) (destination : MacAddress) : Prop :=
  ¬ (1 : UInt16) < (fc >>> 12) &&& 0x03 ∧ fc &&& (bit16 7 ||| bit16 8 ||| bit16 9) = 0 ∧ isUnicastMacAddress destination = true

variable {frame : Buf} {fc : UInt16} {d s : MacAddress}

theorem Framed.unique {rest rest' : Buf} {fc' : UInt16} {d' s' : MacAddress} (h : Framed frame fc (some d) (some s) rest)
    (h' : Framed frame fc' (some d') (some s') rest') : fc = fc' ∧ d = d' ∧ s = s' := by
  have hcontrol : fc = fc' := by
    have := h.control.symm.trans h'.control
    cases this
    rfl
  have haddresses := h.parseMacAddresses.symm.trans h'.parseMacAddresses
  injection haddresses with haddresses
  injection haddresses with hs hd
  exact ⟨hcontrol, hd, hs⟩

theorem mode_of_address (a : MacAddress) : modeOf (some a) = 2 ∨ modeOf (some a) = 3 := by
  cases a
  · exact Or.inl rfl
  · exact Or.inr rfl

/-! ### Taking a frame apart -/

variable {l : Buf}

theorem exists_le16 (h : 2 ≤ l.length) : ∃ (v : UInt16) (post : Buf), l = le16 v ++ post :=
  ⟨u16At l 0, l.drop 2, by rw [le16_u16At h, List.take_append_drop]⟩

theorem exists_ieee (h : 8 ≤ l.length) : ∃ (v : IeeeAddress) (post : Buf), l = v.toList ++ post :=
  ⟨arrayAt 8 l 0, l.drop 8, by rw [arrayAt_zero_toList h, List.take_append_drop]⟩

/-- An address of a mode at the front of the bytes. -/
theorem exists_address {mode : UInt16} (hmode : mode = 2 ∨ mode = 3) (pan : PanId) (h : (if mode = 2 then 2 else 8) ≤ l.length) :
    ∃ (a : MacAddress) (post : Buf), l = a.bytes ++ post ∧ mode = modeOf (some a) ∧ a.panId = pan := by
  rcases hmode with rfl | rfl
  · obtain ⟨v, post, rfl⟩ := exists_le16 h
    exact ⟨.short pan v, post, rfl, rfl, rfl⟩
  · obtain ⟨v, post, rfl⟩ := exists_ieee h
    exact ⟨.extended pan v, post, rfl, rfl, rfl⟩

theorem addressingSize_two (hdst : dstModeOf fc = 2 ∨ dstModeOf fc = 3) (hsrc : srcModeOf fc = 2 ∨ srcModeOf fc = 3) :
    addressingSize fc = 2 + (if dstModeOf fc = 2 then 2 else 8) +
      ((if panCompressOf fc then 0 else 2) + if srcModeOf fc = 2 then 2 else 8) := by
  unfold addressingSize
  rcases hdst with hd | hd <;> rcases hsrc with hs | hs <;> rw [hd, hs] <;> cases panCompressOf fc <;> rfl

/-- A frame with two addresses and room for them is framed. -/
theorem exists_framed (hfc : u16At frame 0 = fc) (hdst : dstModeOf fc = 2 ∨ dstModeOf fc = 3) (hsrc : srcModeOf fc = 2 ∨ srcModeOf fc = 3)
    (hlen : 3 + addressingSize fc ≤ frame.length) : ∃ d s rest, Framed frame fc (some d) (some s) rest := by
  have hsize := addressingSize_two hdst hsrc
  obtain ⟨v, l, rfl⟩ := exists_le16 (l := frame) (by omega)
  rw [u16At_le16] at hfc
  subst hfc
  rw [List.length_append, le16_length] at hlen
  obtain ⟨seq, l, rfl⟩ : ∃ seq post, l = seq :: post := List.exists_cons_of_length_pos (by omega)
  rw [List.length_cons] at hlen
  obtain ⟨pan, l, rfl⟩ := exists_le16 (l := l) (by omega)
  rw [List.length_append, le16_length] at hlen
  obtain ⟨d, l, rfl, hdmode, hdpan⟩ := exists_address (l := l) hdst pan (by omega)
  have hdlen : d.bytes.length = if dstModeOf v = 2 then 2 else 8 := by rw [addressLen_bytes, hdmode]
  rw [List.length_append, hdlen] at hlen
  cases hcompress : panCompressOf v with
  | true =>
    rw [hcompress, if_pos rfl] at hsize
    obtain ⟨s, rest, rfl, hsmode, hspan⟩ := exists_address (l := l) hsrc pan (by omega)
    refine ⟨d, s, rest, ⟨seq, ?_⟩, hdmode, hsmode, fun _ s' hs' => ?_⟩
    · rw [hcompress, dstField, srcField, hdpan]
      simp
    · cases hs'
      exact ⟨d, rfl, hspan.trans hdpan.symm⟩
  | false =>
    rw [hcompress, if_neg Bool.false_ne_true] at hsize
    obtain ⟨srcPan, l, rfl⟩ := exists_le16 (l := l) (by omega)
    rw [List.length_append, le16_length] at hlen
    obtain ⟨s, rest, rfl, hsmode, hspan⟩ := exists_address (l := l) hsrc srcPan (by omega)
    refine ⟨d, s, rest, ⟨seq, ?_⟩, hdmode, hsmode, fun hc => ?_⟩
    · rw [hcompress, dstField, srcField, hdpan, if_neg Bool.false_ne_true, hspan]
      simp
    · rw [hcompress] at hc
      cases hc

/-! ### The source of a framed request -/

theorem compress_bit (fc : UInt16) : fc &&& bit16 6 ≠ 0 ↔ panCompressOf fc = true := by
  have hbit : (bit16 6).toNat = 2 ^ 6 := rfl
  have hleft : fc &&& bit16 6 = 0 ↔ fc.toNat.testBit 6 = false := by
    rw [← UInt16.toNat_inj, UInt16.toNat_and, hbit, Nat.and_two_pow]
    cases fc.toNat.testBit 6 <;> simp
  have hright : (fc >>> 6) &&& 1 = 0 ↔ fc.toNat.testBit 6 = false := by
    rw [← UInt16.toNat_inj, UInt16.toNat_and, UInt16.toNat_shiftRight, Nat.testBit_eq_decide_div_mod_eq, Nat.shiftRight_eq_div_pow]
    have hone : (1 : UInt16).toNat = 1 := rfl
    have hsix : (6 : UInt16).toNat % 16 = 6 := rfl
    rw [hone, hsix, Nat.and_one_is_mod, UInt16.toNat_zero, decide_eq_false_iff_not]
    omega
  rw [Ne, hleft, ← hright, panCompressOf, bne_iff_ne]

variable {i : Nat}

theorem readU16_of_eq (pre : Buf) {post : Buf} {v : UInt16} (h : frame = pre ++ (le16 v ++ post)) (hi : i = pre.length) :
    readU16 frame i = some v := by
  have hlen : frame.length = pre.length + (2 + post.length) := by
    rw [h, List.length_append, List.length_append, le16_length]
  rw [readU16, if_pos (by omega), h, u16At_append_right (by omega), hi, Nat.sub_self, u16At_le16]

/-- The source is read where it stands. -/
theorem requestSourceAt_of_eq (pre : Buf) {post : Buf} {pan : PanId} (h : frame = pre ++ (s.bytes ++ post)) (hi : i = pre.length)
    (hmode : srcModeOf fc = modeOf (some s)) (hpan : pan = s.panId) : requestSourceAt frame fc pan i = some (s, i + s.bytes.length) := by
  have hlen : frame.length = pre.length + (s.bytes.length + post.length) := by
    rw [h, List.length_append, List.length_append]
  subst hpan
  cases s with
  | short pan address =>
    have hbytes : (MacAddress.short pan address).bytes.length = 2 := le16_length address
    rw [requestSourceAt, if_pos (by rw [hmode]; rfl), readU16_of_eq pre h hi, hbytes]
    rfl
  | extended pan address =>
    have hbytes : (MacAddress.extended pan address).bytes.length = 8 := address.size_toArray
    have haddress : arrayAt 8 frame i = address := by
      rw [h, arrayAt_append_right (by omega), hi, Nat.sub_self]
      exact arrayAt_toList address post
    rw [requestSourceAt, if_neg (by rw [hmode]; simp [modeOf]), if_pos (by omega), haddress, hbytes]
    rfl

/-- The request bits of a frame control. -/
def RequestControl (fc : UInt16) : Prop := fc &&& 0x07 = 0x03 ∧ fc &&& bit16 3 = 0 ∧ fc &&& bit16 5 ≠ 0

theorem Framed.dataRequestSource {rest : Buf} (h : Framed frame fc (some d) (some s) rest) (hcontrol : RequestControl fc) :
    Mac.dataRequestSource frame =
      if s.panId = d.panId ∧ rest = [CMD_DATA_REQUEST] ∧ validAddress s = true then some s else none := by
  obtain ⟨hkind, hsecurity, hack⟩ := hcontrol
  obtain ⟨seq, hframe⟩ := h.parts
  have hd := h.dstMode
  have hs := h.srcMode
  have hdmode : dstModeOf fc = 2 ∨ dstModeOf fc = 3 := by
    rw [hd]
    exact mode_of_address d
  have hsmode : srcModeOf fc = 2 ∨ srcModeOf fc = 3 := by
    rw [hs]
    exact mode_of_address s
  have hdlen : d.bytes.length = if dstModeOf fc = 2 then 2 else 8 := by rw [addressLen_bytes, hd]
  have hdst : frame = (le16 fc ++ [seq]) ++ (le16 d.panId ++ (d.bytes ++ (srcField (panCompressOf fc) (some s) ++ rest))) := by
    rw [hframe, dstField]
    simp
  have hpre : frame = (le16 fc ++ [seq] ++ le16 d.panId ++ d.bytes) ++ (srcField (panCompressOf fc) (some s) ++ rest) := by
    rw [hdst]
    simp
  have hprelen : 3 + (2 + if dstModeOf fc = 2 then 2 else 8) = (le16 fc ++ [seq] ++ le16 d.panId ++ d.bytes).length := by
    rw [← hdlen]
    simp
    omega
  -- the command stands behind the source
  have hend : ∀ {offset : Nat} (pre : Buf), frame = pre ++ rest → offset = pre.length →
      ((frame.length ≠ offset + 1 ∨ u8At frame offset ≠ CMD_DATA_REQUEST ∨ validAddress s = false) ↔
        ¬ (rest = [CMD_DATA_REQUEST] ∧ validAddress s = true)) := by
    intro offset pre hsplit hoffset
    have hlen : frame.length = offset + rest.length := by rw [hsplit, List.length_append, hoffset]
    have hone : frame.length = offset + 1 ∧ u8At frame offset = CMD_DATA_REQUEST ↔ rest = [CMD_DATA_REQUEST] := by
      rw [u8At_of_eq hsplit hoffset]
      constructor
      · rintro ⟨hlength, hcommand⟩
        obtain ⟨b, rfl⟩ := List.length_eq_one_iff.mp (show rest.length = 1 by omega)
        rw [← hcommand]
        rfl
      · rintro rfl
        exact ⟨hlen, rfl⟩
    rw [← hone, ← Bool.not_eq_true, not_and_or, not_and_or, or_assoc]
  unfold Mac.dataRequestSource
  rw [readU16_of_eq [] (i := 0) hframe rfl, Option.bind_eq_bind, Option.bind_some, if_neg (by simp [hkind, hsecurity, hack]),
    if_neg (by simp [hdmode, hsmode]), readU16_of_eq (le16 fc ++ [seq]) (i := 3) hdst rfl, Option.bind_eq_bind, Option.bind_some, Option.bind_eq_bind, requestPanAt]
  cases hcompress : panCompressOf fc with
  | true =>
    obtain ⟨d', hd', hsame⟩ := h.samePan hcompress s rfl
    cases hd'
    rw [hcompress, srcField, if_pos rfl, List.nil_append] at hpre
    rw [if_pos ((compress_bit fc).mpr hcompress), Option.bind_some, if_neg (by simp),
      requestSourceAt_of_eq _ hpre hprelen hs hsame.symm, Option.bind_some]
    rw [if_congr (hend (le16 fc ++ [seq] ++ le16 d.panId ++ d.bytes ++ s.bytes) (by rw [hpre]; simp only [List.append_assoc])
      (by rw [List.length_append, ← hprelen])) rfl rfl, ite_not]
    simp [hsame]
  | false =>
    rw [hcompress, srcField, if_neg Bool.false_ne_true, List.append_assoc] at hpre
    have hsrc : frame = (le16 fc ++ [seq] ++ le16 d.panId ++ d.bytes ++ le16 s.panId) ++ (s.bytes ++ rest) := by
      rw [hpre]
      simp
    rw [if_neg (by rw [compress_bit, hcompress]; simp), readU16_of_eq _ hpre hprelen, Option.map_some, Option.bind_some]
    by_cases hpan : s.panId = d.panId
    case neg => rw [if_pos hpan, if_neg fun hc => hpan hc.1]
    case pos =>
      rw [if_neg (not_not.mpr hpan), requestSourceAt_of_eq _ hsrc (by rw [List.length_append, ← hprelen, le16_length]) hs rfl, Option.bind_some]
      rw [if_congr (hend (le16 fc ++ [seq] ++ le16 d.panId ++ d.bytes ++ le16 s.panId ++ s.bytes) (by rw [hsrc]; simp only [List.append_assoc])
        (by rw [List.length_append, List.length_append, ← hprelen, le16_length])) rfl rfl, ite_not]
      simp [hpan]

/-! ## The two parsers -/

theorem requestSourceAt_end {pan : PanId} {offset : Nat} (h : requestSourceAt frame fc pan offset = some (s, i)) :
    i = offset + if srcModeOf fc = 2 then 2 else 8 := by
  unfold requestSourceAt at h
  split at h
  · rename_i hmode
    obtain ⟨short, -, hpair⟩ := Option.map_eq_some_iff.mp h
    cases hpair
    rw [if_pos hmode]
  · rename_i hmode
    rw [if_neg hmode]
    split at h
    · cases h
      rfl
    · cases h

/-- A frame with a source has the parts of a Data Request. -/
theorem requestFrame_of_source (h : dataRequestSource frame = some s) : ∃ fc d, RequestFrame frame fc d s := by
  have hsource := h
  unfold dataRequestSource at h
  obtain ⟨fc, hfc, h⟩ := Option.bind_eq_some_iff.mp h
  have hat : u16At frame 0 = fc := by
    unfold readU16 at hfc
    split at hfc
    · exact Option.some.inj hfc
    · cases hfc
  split at h
  · cases h
  rename_i hbits
  push Not at hbits
  split at h
  · cases h
  rename_i hmodes
  rw [not_or, not_not, not_not] at hmodes
  obtain ⟨hdst, hsrc⟩ := hmodes
  obtain ⟨dstPan, -, h⟩ := Option.bind_eq_some_iff.mp h
  obtain ⟨⟨srcPan, offset⟩, hpan, h⟩ := Option.bind_eq_some_iff.mp h
  have hoffset : offset = 3 + (2 + if dstModeOf fc = 2 then 2 else 8) + if panCompressOf fc then 0 else 2 := by
    unfold requestPanAt at hpan
    split at hpan
    · rename_i hcompress
      cases hpan
      rw [(compress_bit fc).mp hcompress]
      rfl
    · rename_i hcompress
      obtain ⟨_, -, hpair⟩ := Option.map_eq_some_iff.mp hpan
      cases hpair
      rw [compress_bit, Bool.not_eq_true] at hcompress
      rw [hcompress]
      rfl
  dsimp only at h
  split at h
  · cases h
  obtain ⟨⟨source, i⟩, hat', h⟩ := Option.bind_eq_some_iff.mp h
  have hi := requestSourceAt_end hat'
  dsimp only at h
  split at h
  · cases h
  rename_i hend
  push Not at hend
  have hsize := addressingSize_two hdst hsrc
  obtain ⟨d, s', rest, hframed⟩ := exists_framed hat hdst hsrc (by omega)
  rw [hframed.dataRequestSource ⟨hbits.1, hbits.2.1, hbits.2.2⟩] at hsource
  split at hsource
  · rename_i hparts
    cases hsource
    obtain ⟨hpans, rfl, hvalid⟩ := hparts
    exact ⟨fc, d, hframed, hbits.1, hbits.2.1, hbits.2.2, hpans, hvalid⟩
  · cases hsource

theorem source_iff : dataRequestSource frame = some s ↔ ∃ fc d, RequestFrame frame fc d s := by
  refine ⟨requestFrame_of_source, fun ⟨fc, d, h⟩ => ?_⟩
  rw [h.framed.dataRequestSource ⟨h.command, h.unsecured, h.ackRequest⟩, if_pos ⟨h.onePan, rfl, h.valid⟩]

theorem validAddress_iff {a : MacAddress} : validAddress a = true ↔ a.panId ≠ PanId.BROADCAST ∧ isUnicastMacAddress a = true := by
  cases a <;> simp [validAddress, isUnicastMacAddress, MacAddress.panId]

/-- The parent answers the frames that also meet its further checks. -/
theorem RequestFrame.parse (h : RequestFrame frame fc d s) (hplain : PlainRequest fc d) (lqi : UInt8) :
    parseParentCommand frame lqi = .ok (.dataRequest s d lqi) := by
  obtain ⟨hversion, hreserved, hunicast⟩ := hplain
  obtain ⟨hpan, hsource⟩ := validAddress_iff.mp h.valid
  have hd := mode_of_address d
  have hs := mode_of_address s
  have hcontrol : parentControl fc = true := by
    refine decide_eq_true ⟨?_, ?_⟩
    · rintro (hkind | hsecurity)
      · exact hkind h.command
      · exact hsecurity h.unsecured
    · rintro (hv | hr | hdst | hsrc)
      · exact hversion hv
      · exact hr hreserved
      · rw [h.framed.dstMode] at hdst
        rcases hd with hd | hd <;> rw [hd] at hdst <;> exact absurd hdst (by decide)
      · rw [h.framed.srcMode] at hsrc
        rcases hs with hs | hs <;> rw [hs] at hsrc <;> exact absurd hsrc (by decide)
  have hlen := h.framed.length
  rw [List.length_singleton] at hlen
  rw [h.framed.parseParentCommand hcontrol, parentCommandAt, h.framed.index_rest, ok_bind]
  rw [if_neg (by simp [CMD_DATA_REQUEST]), if_neg (by simp [CMD_DATA_REQUEST]), if_pos]
  · rw [dataCommand, if_neg]
    · rfl
    · rintro (hbad | hbad | hbad | hbad)
      · rw [Option.getD_some, hsource] at hbad
        cases hbad
      · rw [Option.getD_some, hunicast] at hbad
        cases hbad
      · exact hbad h.onePan
      · exact hpan (h.onePan.trans hbad)
  · refine ⟨rfl, hlen, ?_, ?_, by simpa using h.ackRequest⟩
    · rw [h.framed.dstMode]
      exact hd
    · rw [h.framed.srcMode]
      exact hs

/-- A frame that the parent takes for a Data Request. -/
theorem requestFrame_of_parse {lqi : UInt8} (h : parseParentCommand frame lqi = .ok (.dataRequest s d lqi)) :
    ∃ fc, RequestFrame frame fc d s ∧ PlainRequest fc d := by
  have hparse := h
  unfold parseParentCommand at h
  obtain ⟨hshort, h⟩ := of_guard h
  obtain ⟨fc, hfc, h⟩ := bind_eq_ok h
  obtain ⟨hkind, h⟩ := of_guard h
  obtain ⟨hmodes, h⟩ := of_guard h
  obtain ⟨hroom, h⟩ := of_guard h
  obtain ⟨addresses, -, h⟩ := bind_eq_ok h
  obtain ⟨-, h⟩ := of_guard h
  push Not at hkind hmodes hroom
  have hat : u16At frame 0 = fc := by
    rw [u16Index_eq (by omega)] at hfc
    cases hfc
    rfl
  unfold parentCommandAt at h
  obtain ⟨command, hcommand, h⟩ := bind_eq_ok h
  split at h
  · cases h
  split at h
  · obtain ⟨capability, -, h⟩ := bind_eq_ok h
    unfold associationCommand at h
    split at h
    · cases h
    · obtain ⟨-, h⟩ := of_guard h
      cases h
  split at h
  · rename_i harm
    obtain ⟨rfl, hlen, hdst, hsrc, hack⟩ := harm
    obtain ⟨d', s', rest, hframed⟩ := exists_framed hat hdst hsrc (by omega)
    have hrest := hframed.length
    obtain ⟨b, rfl⟩ := List.length_eq_one_iff.mp (show rest.length = 1 by omega)
    rw [hframed.index_rest] at hcommand
    cases hcommand
    have hcontrol : parentControl fc = true := by
      refine decide_eq_true ⟨?_, ?_⟩
      · rintro (hk | hsecurity)
        · exact hk hkind.1
        · exact hsecurity hkind.2
      · rintro (hv | hr | hd | hs)
        · exact hmodes.1 hv
        · exact hr hmodes.2.1
        · exact hmodes.2.2.1 hd
        · exact hmodes.2.2.2 hs
    rw [hframed.parseParentCommand hcontrol, parentCommandAt, hframed.index_rest, ok_bind] at hparse
    rw [if_neg (by simp), if_neg (by simp), if_pos ⟨rfl, hlen, hdst, hsrc, hack⟩] at hparse
    obtain ⟨hparts, hparse⟩ := of_guard hparse
    cases hparse
    simp only [Option.getD_some, not_or, Bool.not_eq_false, not_not] at hparts
    obtain ⟨hsource, hunicast, hpans, hpan⟩ := hparts
    refine ⟨fc, ⟨hframed, hkind.1, hkind.2, by simpa using hack, hpans, ?_⟩, hmodes.1, hmodes.2.1, hunicast⟩
    exact validAddress_iff.mpr ⟨fun hbroadcast => hpan (hpans.symm.trans hbroadcast), hsource⟩
  split at h
  · obtain ⟨orphan, -, h⟩ := bind_eq_ok h
    cases h
  · cases h

/-- Whatever Data Request the frame is, its version is at most 1, its reserved bits are clear and it is sent to a
    unicast address. -/
def Plain (frame : Buf) : Prop := ∀ fc d s, RequestFrame frame fc d s → PlainRequest fc d

/-- The parsers agree about a frame. -/
def Agree (frame : Buf) : Prop :=
  ∀ (lqi : UInt8) (s : MacAddress), dataRequestSource frame = some s ↔ ∃ d, parseParentCommand frame lqi = .ok (.dataRequest s d lqi)

theorem agree_iff_plain (frame : Buf) : Agree frame ↔ Plain frame := by
  constructor
  · intro h fc d s hrequest
    obtain ⟨d', hparse⟩ := (h 0 s).mp (source_iff.mpr ⟨fc, d, hrequest⟩)
    obtain ⟨fc', hrequest', hplain⟩ := requestFrame_of_parse hparse
    obtain ⟨rfl, rfl, -⟩ := hrequest.framed.unique hrequest'.framed
    exact hplain
  · intro h lqi s
    rw [source_iff]
    constructor
    · rintro ⟨fc, d, hrequest⟩
      exact ⟨d, hrequest.parse (h fc d s hrequest) lqi⟩
    · rintro ⟨d, hparse⟩
      obtain ⟨fc, hrequest, -⟩ := requestFrame_of_parse hparse
      exact ⟨fc, d, hrequest⟩

/-! ## Runs of the table -/

/-- An operation on the table. -/
inductive AckOp where
  | set (address : MacAddress) (pending : Bool)
  | clear

namespace AckPendingTable

variable {N : Nat} {t t' : AckPendingTable N} {address : MacAddress}

def step (t : AckPendingTable N) : AckOp → AckPendingTable N
  | .set address pending =>
    match t.set address pending with
    | .ok t' => t'
    | .error _ => t
  | .clear => t.clear

/-- The sources are distinct and valid. -/
structure Sound (t : AckPendingTable N) : Prop where
  distinct : t.entries.Nodup
  valid : ∀ a ∈ t.entries, validAddress a = true

theorem new_sound : (new : AckPendingTable N).Sound := ⟨List.nodup_nil, fun _ ha => absurd ha List.not_mem_nil⟩

theorem contains_iff : t.contains address = true ↔ address ∈ t.entries := by
  rw [contains, position, List.findIdx?_isSome, List.any_eq_true]
  simp

theorem position_some (h : t.position address = some i) : t.entries[i]? = some address := by
  obtain ⟨a, ha, heq⟩ := Table.getElem?_of_findIdx? h
  rw [ha, beq_iff_eq.mp heq]

theorem position_none (h : t.position address = none) : address ∉ t.entries := by
  rw [← contains_iff, contains, h]
  simp

/-- Disarming takes out the source and nothing else. -/
theorem mem_disarmed (hsound : t.Sound) (h : t.position address = some i) (a : MacAddress) :
    a ∈ Table.swapRemove t.entries i ↔ a ∈ t.entries ∧ a ≠ address := by
  obtain ⟨hi, hat⟩ := List.getElem?_eq_some_iff.mp (position_some h)
  rw [(Table.swapRemove_perm hi).mem_iff, ← List.Nodup.erase_getElem hsound.distinct i hi, hsound.distinct.mem_erase_iff, hat, and_comm]

/-- **What an accepted operation does**: the source is armed or disarmed, and the others stay as they are. -/
theorem set_spec {pending : Bool} (hsound : t.Sound) (h : t.set address pending = .ok t') :
    t'.Sound ∧ ∀ a, a ∈ t'.entries ↔ if a = address then pending = true else a ∈ t.entries := by
  unfold set at h
  split at h
  · cases h
  rename_i hvalid
  split at h
  · -- armed already
    rename_i i hposition
    cases h
    refine ⟨hsound, fun a => ?_⟩
    split
    · rename_i heq
      rw [heq]
      exact iff_of_true (List.mem_of_getElem? (position_some hposition)) rfl
    · exact Iff.rfl
  · rename_i hposition
    cases h
    refine ⟨hsound, fun a => ?_⟩
    split
    · rename_i heq
      rw [heq]
      exact iff_of_false (position_none hposition) Bool.false_ne_true
    · exact Iff.rfl
  · rename_i i hposition
    cases h
    have hmem := mem_disarmed hsound hposition
    refine ⟨⟨?_, fun a ha => hsound.valid a ((hmem a).mp ha).1⟩, fun a => ?_⟩
    · have hnodup := @Table.nodup_swapRemove _ _ _ i id (by simpa using hsound.distinct)
      simpa using hnodup
    · rw [hmem]
      split
      · rename_i heq
        simp [heq]
      · rename_i hne
        simp [hne]
  · rename_i hposition
    have hnew := position_none hposition
    split at h
    · cases h
      refine ⟨⟨hsound.distinct.append (List.nodup_singleton _) (by simpa using hnew), ?_⟩, fun a => ?_⟩
      · intro a ha
        rcases List.mem_append.mp ha with ha | ha
        · exact hsound.valid a ha
        · rw [List.mem_singleton.mp ha]
          simpa using hvalid
      · rw [List.mem_append, List.mem_singleton]
        split
        · rename_i heq
          simp [heq]
        · rename_i hne
          simp [hne]
    · cases h

theorem step_sound (hsound : t.Sound) (op : AckOp) : (t.step op).Sound := by
  cases op with
  | clear => exact new_sound
  | set address pending =>
    rw [step]
    cases h : t.set address pending with
    | ok t' => exact (set_spec hsound h).1
    | error e => exact hsound

theorem run_sound (ops : List AckOp) : (Run.run step (new : AckPendingTable N) ops).Sound :=
  Run.run_invariant (I := Sound) (fun _ op h => step_sound h op) new_sound ops

end AckPendingTable

/-- **The parsers agree about exactly the plain frames.**  Over every sequence of operations the armed sources are
    distinct valid addresses, at most `N`, an accepted operation changes its own address only, and the acknowledgement
    of a plain frame announces data exactly when the parent answers it as a Data Request of an armed source. -/
theorem ack_agrees_iff {N : Nat} (ops : List AckOp) (frame : Buf) :
    let t := Run.run AckPendingTable.step (AckPendingTable.new : AckPendingTable N) ops
    (Agree frame ↔ Plain frame) ∧
    (t.entries.Nodup ∧ t.entries.length ≤ N ∧ ∀ a ∈ t.entries, validAddress a = true) ∧
    (∀ address pending t', t.set address pending = .ok t' →
      ∀ a, t'.contains a = if a = address then pending else t.contains a) ∧
    (Plain frame → ∀ lqi, t.framePending frame = true ↔
      ∃ s d, t.contains s = true ∧ parseParentCommand frame lqi = .ok (.dataRequest s d lqi)) := by
  intro t
  have hsound : t.Sound := AckPendingTable.run_sound ops
  refine ⟨agree_iff_plain frame, ⟨hsound.distinct, t.room, hsound.valid⟩, fun address pending t' h a => ?_, fun hplain lqi => ?_⟩
  · have hmem := (AckPendingTable.set_spec hsound h).2 a
    rw [Bool.eq_iff_iff, AckPendingTable.contains_iff, hmem]
    split
    · exact Iff.rfl
    · exact AckPendingTable.contains_iff.symm
  · rw [AckPendingTable.framePending, Option.any_eq_true]
    constructor
    · rintro ⟨s, hs, hcontains⟩
      obtain ⟨d, hparse⟩ := ((agree_iff_plain frame).mpr hplain lqi s).mp hs
      exact ⟨s, d, hcontains, hparse⟩
    · rintro ⟨s, d, hcontains, hparse⟩
      exact ⟨s, ((agree_iff_plain frame).mpr hplain lqi s).mpr ⟨d, hparse⟩, hcontains⟩

/-- A Data Request of frame version 2 from an armed child. -/
def versionTwoRequest : Buf := [0x63, 0xA8, 0x01, 0xE9, 0xDF, 0x01, 0x00, 0x44, 0x33, 0x04]

/-- The acknowledgement announces data, and the parent does not take the frame for a command. -/
theorem version_two_announced :
    ((AckPendingTable.new : AckPendingTable 4).step (.set (.short 0xDFE9 0x3344) true)).framePending versionTwoRequest = true ∧
      parseParentCommand versionTwoRequest 0 = .error () ∧ ¬ Agree versionTwoRequest := by
  have hsource : dataRequestSource versionTwoRequest = some (.short 0xDFE9 0x3344) := by decide
  have hparse : parseParentCommand versionTwoRequest 0 = .error () := by decide
  refine ⟨by decide, hparse, fun h => ?_⟩
  obtain ⟨d, hd⟩ := (h 0 _).mp hsource
  rw [hparse] at hd
  cases hd

end Zigbee.Mac
