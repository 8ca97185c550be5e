import Zigbee.Zdo.Messages

/-!
# Address responses

Model of `handle_addr_req` and `write_associated_devices` of `zigbee-zdo/src/handler.rs`: a node answers for
itself and, as a router, for its end-device children, and appends its children to an extended answer for
itself.  The response buffer is its length; what is emitted is the part of it that the handler returns.

* `AddrNode.handleAddrReq` — the handler.
* `AddrNode.answer` — what a response says, with the window of the children that it lists.
* `foldl_appendChild` — the loop over the children writes that window.
* `zdp_parsers_in_range` — no parser but one traps on any input, and an answer of the handler is read back as it
  was meant unless it ends behind its `NumAssocDev`.
-/

namespace Zigbee.Zdo

open Bytes Checked Indexed Nwk Outcome

/-- What the handler reads of its node. -/
structure AddrNode where
  /-- The `router` feature. -/
  router : Bool
  nwk : NwkLayer router
  localNwkAddr : ShortAddress
  localIeeeAddr : IeeeAddress

/-- A request as the handler reads it. -/
structure AddrQuery where
  byNwkAddr : Bool
  unicast : Bool
  requestType : UInt8
  startIndex : UInt8
  requestedIeee : IeeeAddress
  requestedShort : ShortAddress

def AddrQuery.keyLen (byNwkAddr : Bool) : Nat := if byNwkAddr then 2 else 8

def AddrQuery.read (byNwkAddr unicast : Bool) (payload : Buf) : Outcome ZdoError AddrQuery := do
  let requestType ← byteAt payload (keyLen byNwkAddr)
  let startIndex ← byteAt payload (keyLen byNwkAddr + 1)
  if byNwkAddr then do
    let short ← wordAt payload 0
    pure ⟨byNwkAddr, unicast, requestType, startIndex, Vector.replicate 8 0, short⟩
  else do
    let ieee ← arrayOf 8 payload 0
    pure ⟨byNwkAddr, unicast, requestType, startIndex, ieee, 0x0000⟩

namespace AddrNode

def localShortAddress (n : AddrNode) : ShortAddress :=
  if n.nwk.nib.networkAddress < 0xFFF8 then n.nwk.nib.networkAddress else n.localNwkAddr

/-- Address pair of an end-device child that a router answers for. -/
def endDeviceChildAddress (n : AddrNode) (q : AddrQuery) : Option (IeeeAddress × ShortAddress) :=
  if !n.router then none
  else
    (if q.byNwkAddr then n.nwk.neighbors.findByShort q.requestedShort
      else n.nwk.neighbors.findByIeee q.requestedIeee).bind fun entry =>
      if entry.relationship == .child && entry.deviceType == .endDevice then some (entry.ieeeAddress, entry.networkAddress)
      else none

def localMatch (n : AddrNode) (q : AddrQuery) : Bool :=
  if q.byNwkAddr then q.requestedShort == n.localShortAddress else q.requestedIeee == n.localIeeeAddr

def matched (n : AddrNode) (q : AddrQuery) : Option (IeeeAddress × ShortAddress) :=
  if n.localMatch q then some (n.localIeeeAddr, n.localShortAddress) else n.endDeviceChildAddress q

/-- The status and the addresses of the response. -/
def outcome (n : AddrNode) (q : AddrQuery) : ZdpStatus × IeeeAddress × ShortAddress :=
  match n.matched q with
  | some (ieee, short) =>
    if q.requestType ≤ RequestType.extended.toU8 then (.success, ieee, short) else (.invRequestType, ieee, short)
  | none =>
    if RequestType.extended.toU8 < q.requestType ∧ q.unicast = true then (.invRequestType, q.requestedIeee, q.requestedShort)
    else (.deviceNotFound, q.requestedIeee, q.requestedShort)

/-- The entries that `write_associated_devices` visits. -/
def children (n : AddrNode) : List NeighborEntry :=
  n.nwk.neighbors.entries.filter fun e => e.active && e.relationship == .child

/-- One child: the running total and the addresses written so far, into a response of `room` bytes. -/
def appendChild (startIndex : UInt8) (room : Nat) (w : UInt8 × List ShortAddress) (child : NeighborEntry) :
    UInt8 × List ShortAddress :=
  (if w.1 = 0xFF then 0xFF else w.1 + 1,
    if startIndex ≤ w.1 ∧ 2 ≤ room - (13 + 2 * w.2.length) then w.2 ++ [child.networkAddress] else w.2)

def writeAssociatedDevices (n : AddrNode) (startIndex : UInt8) (room : Nat) : Buf :=
  let (total, written) := n.children.foldl (appendChild startIndex room) (0, [])
  if total = 0 then [total] else [total, startIndex] ++ written.flatMap le16

def respond (n : AddrNode) (q : AddrQuery) (room : Nat) : Buf :=
  let (status, ieee, short) := n.outcome q
  let addresses := [status.toU8] ++ ieee.toList ++ le16 short
  if status ≠ .success ∨ q.requestType ≠ RequestType.extended.toU8 then addresses
  else if n.router && n.localMatch q then addresses ++ n.writeAssociatedDevices q.startIndex room
  -- an end device, or a parent that answers for a child: no StartIndex and no list
  else addresses ++ [0]

def handleAddrReq (n : AddrNode) (byNwkAddr unicast : Bool) (payload : Buf) (room : Nat) : Outcome ZdoError Buf :=
  if payload.length < AddrQuery.keyLen byNwkAddr + 2 then .error .invalidLength
  else if room < NwkAddrRsp.MIN_SIZE + 2 then .error .bufferTooSmall
  else do
    let q ← AddrQuery.read byNwkAddr unicast payload
    pure (n.respond q room)

/-! ## What a response says -/

/-- The children from the start index on, as many as fit. -/
def window (n : AddrNode) (startIndex : UInt8) (room : Nat) : List ShortAddress :=
  ((n.children.map (·.networkAddress)).drop startIndex.toNat).take ((room - 13) / 2)

/-- The response has a list: an extended answer of a router for itself, with a child. -/
def Lists (n : AddrNode) (q : AddrQuery) : Prop :=
  q.requestType = RequestType.extended.toU8 ∧ n.router = true ∧ n.localMatch q = true ∧ n.children ≠ []

/-- An extended answer without a list. -/
def AnswersBare (n : AddrNode) (q : AddrQuery) : Prop :=
  q.requestType = RequestType.extended.toU8 ∧ (n.matched q).isSome = true ∧
    ¬ (n.router = true ∧ n.localMatch q = true ∧ n.children ≠ [])

instance (n : AddrNode) (q : AddrQuery) : Decidable (n.Lists q) := inferInstanceAs (Decidable (_ ∧ _ ∧ _ ∧ _))

instance (n : AddrNode) (q : AddrQuery) : Decidable (n.AnswersBare q) := inferInstanceAs (Decidable (_ ∧ _ ∧ ¬ (_ ∧ _ ∧ _)))

/-- The message that a response means. -/
def answer (n : AddrNode) (q : AddrQuery) (room : Nat) : NwkAddrRsp :=
  let (status, ieee, short) := n.outcome q
  if n.Lists q then ⟨status, ieee, short, UInt8.ofNat (min 255 n.children.length), q.startIndex, n.window q.startIndex room⟩
  else ⟨status, ieee, short, 0, 0, []⟩

end AddrNode

/-! ## The list of a response -/

/-- The running total, after `k` children. -/
theorem total_succ (k : Nat) : (if UInt8.ofNat (min 255 k) = 0xFF then 0xFF else UInt8.ofNat (min 255 k) + 1) =
    UInt8.ofNat (min 255 (k + 1)) := by
  have hlt : min 255 k < 256 := by omega
  have hto : (UInt8.ofNat (min 255 k)).toNat = min 255 k := UInt8.toNat_ofNat_of_lt' hlt
  split
  · rename_i hfull
    rw [hfull] at hto
    have : (0xFF : UInt8).toNat = 255 := rfl
    rw [show min 255 (k + 1) = 255 by omega]
    rfl
  · rename_i hfull
    have hne : min 255 k ≠ 255 := fun h => hfull (by rw [h]; rfl)
    rw [show min 255 (k + 1) = min 255 k + 1 by omega, UInt8.ofNat_add]
    rfl

/-- **The loop over the children writes the window of the start index.** -/
theorem foldl_appendChild (startIndex : UInt8) {room : Nat} (hroom : 13 ≤ room) (children : List NeighborEntry) :
    children.foldl (AddrNode.appendChild startIndex room) (0, []) =
      (UInt8.ofNat (min 255 children.length),
        ((children.map (·.networkAddress)).drop startIndex.toNat).take ((room - 13) / 2)) := by
  induction children using List.reverseRecOn with
  | nil => simp
  | append_singleton pre child ih =>
    have hstart := startIndex.toNat_lt
    rw [List.foldl_append, ih, List.foldl_cons, List.foldl_nil, AddrNode.appendChild]
    refine Prod.ext ?_ ?_
    · rw [List.length_append, List.length_singleton]
      exact total_succ pre.length
    · have hreached : startIndex ≤ UInt8.ofNat (min 255 pre.length) ↔ startIndex.toNat ≤ pre.length := by
        rw [UInt8.le_iff_toNat_le, UInt8.toNat_ofNat_of_lt' (by change min 255 pre.length < 256; omega)]
        omega
      simp only [hreached, List.length_take, List.length_drop, List.length_map, List.map_append, List.map_cons, List.map_nil]
      split
      · rename_i hfits
        rw [List.drop_append_of_le_length (by rw [List.length_map]; omega), List.take_of_length_le, List.take_of_length_le]
        · simp only [List.length_append, List.length_drop, List.length_map, List.length_singleton]
          omega
        · simp only [List.length_drop, List.length_map]
          omega
      · rename_i hfull
        by_cases hbefore : startIndex.toNat ≤ pre.length
        · rw [List.drop_append_of_le_length (by rw [List.length_map]; omega), List.take_append_of_le_length]
          simp only [List.length_drop, List.length_map]
          omega
        · rw [List.drop_eq_nil_of_le, List.drop_eq_nil_of_le]
          · simp only [List.length_append, List.length_map, List.length_singleton]
            omega
          · rw [List.length_map]
            omega

theorem total_eq_zero (children : List NeighborEntry) : UInt8.ofNat (min 255 children.length) = 0 ↔ children = [] := by
  rw [← List.length_eq_zero_iff, ← UInt8.toNat_inj, UInt8.toNat_ofNat_of_lt' (by change min 255 children.length < 256; omega)]
  change min 255 children.length = 0 ↔ _
  omega

/-! ## Reading it back -/

theorem wordItem_of_eq (pre : Buf) {data post : Buf} {word : UInt16} {offset : Nat} (h : data = pre ++ (le16 word ++ post))
    (hoffset : offset = pre.length) : wordItem data offset = .ok (word, offset + 2) := by
  have hlen : data.length = pre.length + (2 + post.length) := by
    rw [h, List.length_append, List.length_append, le16_length]
  rw [wordItem, wordAt_eq (by omega), h, u16At_append_right (by omega), hoffset, Nat.sub_self, u16At_le16]
  rfl

theorem sum_map_two {α : Type} (l : List α) : (l.map fun _ => 2).sum = 2 * l.length := by
  induction l with
  | nil => rfl
  | cons a l ih =>
    rw [List.map_cons, List.sum_cons, ih, List.length_cons]
    omega

/-- Words that end the buffer are all collected, by a loop with at least as many passes. -/
theorem collect_words {data head : Buf} {words : List UInt16} {passes capacity : Nat} (h : data = head ++ words.flatMap le16)
    (hpasses : words.length ≤ passes) (hcapacity : words.length ≤ capacity) :
    collect (fun offset => data.length < offset + 2) (wordItem data) (pushUpTo capacity) passes head.length [] =
      .ok (words, head.length + 2 * words.length) := by
  have hlen : data.length = head.length + 2 * words.length := by
    rw [h, List.length_append, length_flatMap_le16]
  obtain ⟨rest, rfl⟩ := Nat.exists_eq_add_of_le hpasses
  have hcollect := @collect_eq ZdoError UInt16 (fun offset => data.length < offset + 2) (wordItem data) (pushUpTo capacity) (fun _ => 2)
    capacity words head.length [] ?_ ?_ (by simpa using hcapacity)
  · rw [collect_add, hcollect, ok_bind, sum_map_two, collect_stop (by simp only [decide_eq_true_eq]; omega), List.nil_append]
  · intro pre word post hwords
    rw [sum_map_two]
    have hsplit : data = (head ++ pre.flatMap le16) ++ (le16 word ++ post.flatMap le16) := by
      rw [h, hwords, List.flatMap_append, List.flatMap_cons]
      simp only [List.append_assoc]
    refine ⟨?_, wordItem_of_eq _ hsplit (by rw [List.length_append, length_flatMap_le16])⟩
    have hpost : words.length = pre.length + (post.length + 1) := by rw [hwords, List.length_append, List.length_cons]
    simp only [decide_eq_false_iff_not]
    omega
  · intro kept word hkept
    rw [pushUpTo, if_pos hkept]

section
variable {data rest : Buf} {status : ZdpStatus} {ieee : IeeeAddress} {short : ShortAddress}

/-- The parser of a response whose status and addresses are as they are written. -/
theorem parse_response (h : data = [status.toU8] ++ ieee.toList ++ le16 short ++ rest) :
    NwkAddrRsp.parse data =
      if rest.length = 1 then .trap
      else if rest = [] then .ok ⟨status, ieee, short, 0, 0, []⟩
      else
        collect (fun offset => data.length < offset + 2) (wordItem data) (pushUpTo MAX_LIST) (u8At rest 0).toNat 13 [] >>= fun r =>
          .ok ⟨status, ieee, short, u8At rest 0, u8At rest 1, r.1⟩ := by
  have hhead : ([status.toU8] ++ ieee.toList ++ le16 short).length = 11 := by simp
  have hlen : data.length = 11 + rest.length := by rw [h, List.length_append, hhead]
  have hstatus : u8At data 0 = status.toU8 := by
    rw [h]
    rfl
  have hieee : arrayAt 8 data 1 = ieee := by
    rw [h, List.append_assoc, List.append_assoc, arrayAt_append_right (by simp)]
    exact arrayAt_toList ieee _
  have hshort : u16At data 9 = short := by
    rw [h, List.append_assoc, u16At_append_right (by simp)]
    simpa using u16At_le16 short rest
  have hrest : ∀ k, u8At data (11 + k) = u8At rest k := u8At_add_of_eq h hhead.symm
  have hnum : u8At data 11 = u8At rest 0 := hrest 0
  have hstart : u8At data 12 = u8At rest 1 := hrest 1
  rw [NwkAddrRsp.parse_eq (show 11 ≤ data.length by omega), hstatus, ZdpStatus.fromU8_toU8, okOr_some, ok_bind, hieee, hshort, hnum,
    hstart]
  have hmin : NwkAddrRsp.MIN_SIZE = 11 := rfl
  by_cases hone : rest.length = 1
  · rw [if_pos hone, if_pos (by omega)]
  · rw [if_neg hone, if_neg (by omega)]
    by_cases hnil : rest = []
    · rw [if_pos hnil, if_neg (by rw [hmin, hlen, hnil]; exact Nat.lt_irrefl 11)]
    · have := List.length_pos_iff.mpr hnil
      rw [if_neg hnil, if_pos (by omega)]

/-- A response with a list is read back. -/
theorem parse_listed {total startIndex : UInt8} {words : List UInt16}
    (h : data = [status.toU8] ++ ieee.toList ++ le16 short ++ ([total, startIndex] ++ words.flatMap le16))
    (htotal : words.length ≤ total.toNat) (hfits : words.length ≤ MAX_LIST) :
    NwkAddrRsp.parse data = .ok ⟨status, ieee, short, total, startIndex, words⟩ := by
  have hhead : ([status.toU8] ++ ieee.toList ++ le16 short ++ [total, startIndex]).length = 13 := by simp
  have hwords := collect_words (h.trans (List.append_assoc _ _ _).symm) htotal hfits
  rw [hhead] at hwords
  rw [parse_response h, if_neg (by simp), if_neg (by simp)]
  simp only [List.cons_append, u8At_cons_zero, u8At_cons_succ, hwords, ok_bind]

end

/-! ## The answers of the handler -/

namespace AddrNode

variable {n : AddrNode} {q : AddrQuery} {room : Nat}

/-- The status of an extended request is that of a match. -/
theorem outcome_extended (h : q.requestType = RequestType.extended.toU8) : (n.outcome q).1 = .success ↔ (n.matched q).isSome = true := by
  unfold outcome
  rw [h]
  cases n.matched q with
  | none => simp [show ¬ RequestType.extended.toU8 < RequestType.extended.toU8 by decide]
  | some a => simp

theorem matched_of_localMatch (h : n.localMatch q = true) : (n.matched q).isSome = true := by
  rw [matched, if_pos h]
  rfl

theorem not_lists_of_answersBare (h : n.AnswersBare q) : ¬ n.Lists q := fun hlists => h.2.2 hlists.2

/-- **A response says what it means, or ends behind a `NumAssocDev` of zero.** -/
theorem respond_eq (n : AddrNode) (q : AddrQuery) (hroom : 13 ≤ room) :
    n.respond q room = [(n.outcome q).1.toU8] ++ (n.outcome q).2.1.toList ++ le16 (n.outcome q).2.2 ++
      (if n.Lists q then
        [UInt8.ofNat (min 255 n.children.length), q.startIndex] ++ (n.window q.startIndex room).flatMap le16
      else if n.AnswersBare q then [0] else []) := by
  unfold respond
  dsimp only
  by_cases htype : q.requestType = RequestType.extended.toU8
  · by_cases hmatched : (n.matched q).isSome = true
    · rw [if_neg (by simp [htype, outcome_extended htype, hmatched])]
      by_cases hown : (n.router && n.localMatch q) = true
      · have hown' := Bool.and_eq_true_iff.mp hown
        rw [if_pos hown, writeAssociatedDevices, foldl_appendChild q.startIndex hroom]
        dsimp only
        by_cases hnone : n.children = []
        · have hlists : ¬ n.Lists q := fun h => h.2.2.2 hnone
          rw [if_pos ((total_eq_zero _).mpr hnone), if_neg hlists, if_pos ⟨htype, hmatched, fun h => h.2.2 hnone⟩, hnone]
          rfl
        · rw [if_neg (mt (total_eq_zero _).mp hnone), if_pos ⟨htype, hown'.1, hown'.2, hnone⟩]
          rfl
      · have hother : ¬ (n.router = true ∧ n.localMatch q = true ∧ n.children ≠ []) := fun h => hown (by rw [h.1, h.2.1]; rfl)
        rw [if_neg hown, if_neg (fun h : n.Lists q => hother h.2), if_pos ⟨htype, hmatched, hother⟩]
    · have hlists : ¬ n.Lists q := fun h => hmatched (matched_of_localMatch h.2.2.1)
      rw [if_pos (Or.inl fun h => hmatched ((outcome_extended htype).mp h)), if_neg hlists, if_neg (fun h => hmatched h.2.1),
        List.append_nil]
  · rw [if_pos (Or.inr htype), if_neg (fun h : n.Lists q => htype h.1), if_neg (fun h : n.AnswersBare q => htype h.1),
      List.append_nil]

/-- **An answer is read back as it was meant, unless it is bare.** -/
theorem parse_respond (hroom : 13 ≤ room) (hlist : (n.window q.startIndex room).length ≤ MAX_LIST) :
    NwkAddrRsp.parse (n.respond q room) = .ok (n.answer q room) ↔ ¬ n.AnswersBare q := by
  have hrespond := respond_eq n q hroom
  unfold answer
  dsimp only
  by_cases hlists : n.Lists q
  · refine iff_of_true ?_ fun h => not_lists_of_answersBare h hlists
    rw [if_pos hlists] at hrespond ⊢
    refine parse_listed hrespond ?_ hlist
    have hlen : (n.window q.startIndex room).length ≤ n.children.length := by
      rw [window, List.length_take, List.length_drop, List.length_map]
      omega
    rw [UInt8.toNat_ofNat_of_lt' (by change min 255 n.children.length < 256; omega)]
    simp only [MAX_LIST] at hlist
    omega
  · rw [if_neg hlists] at hrespond ⊢
    by_cases hbare : n.AnswersBare q
    · rw [if_pos hbare] at hrespond
      rw [parse_response hrespond, if_pos (show [(0 : UInt8)].length = 1 from rfl)]
      exact iff_of_false nofun fun h => h hbare
    · rw [if_neg hbare] at hrespond
      rw [parse_response hrespond, if_neg (by decide), if_pos rfl]
      exact iff_of_true rfl hbare

end AddrNode

theorem AddrQuery.read_safe {byNwkAddr unicast : Bool} {payload : Buf} (h : keyLen byNwkAddr + 2 ≤ payload.length) :
    (read byNwkAddr unicast payload).Safe := by
  rw [read, byteAt_eq (by omega), ok_bind, byteAt_eq (by omega), ok_bind]
  cases byNwkAddr with
  | true =>
    have hlen : 2 + 2 ≤ payload.length := h
    rw [if_pos rfl, wordAt_eq (by omega)]
    exact safe_ok _
  | false =>
    have hlen : 8 + 2 ≤ payload.length := h
    rw [if_neg Bool.false_ne_true, arrayOf_eq (by omega)]
    exact safe_ok _

theorem AddrNode.handleAddrReq_safe (n : AddrNode) (byNwkAddr unicast : Bool) (payload : Buf) (room : Nat) :
    (n.handleAddrReq byNwkAddr unicast payload room).Safe := by
  refine safe_guard fun hlen => safe_guard fun _ => ?_
  exact (AddrQuery.read_safe (by omega)).bind fun _ _ => safe_ok _

/-- No parser reads past the end of `data`. -/
structure ParsersInRange (data : Buf) : Prop where
  nwkAddrReq : (NwkAddrReq.parse data).Safe
  nwkAddrRsp : (NwkAddrRsp.parse data).Safe
  ieeeAddrReq : (IeeeAddrReq.parse data).Safe
  nodeDescReq : (NodeDescReq.parse data).Safe
  nodeDescriptor : (NodeDescriptor.parse data).Safe
  nodeDescRsp : (NodeDescRsp.parse data).Safe
  powerDescriptor : (PowerDescriptor.parse data).Safe
  powerDescRsp : (PowerDescRsp.parse data).Safe
  simpleDescReq : (SimpleDescReq.parse data).Safe
  simpleDescriptor : (SimpleDescriptor.parse data).Safe
  simpleDescRsp : (SimpleDescRsp.parse data).Safe
  activeEpRsp : (ActiveEpRsp.parse data).Safe
  matchDescReq : (MatchDescReq.parse data).Safe
  matchDescRsp : (MatchDescRsp.parse data).Safe
  bindReq : (BindReq.parse data).Safe
  statusRsp : (StatusRsp.parse data).Safe
  mgmtLqiReq : (MgmtLqiReq.parse data).Safe
  neighborTableRecord : (NeighborTableRecord.parse data).Safe
  mgmtLqiRsp : (MgmtLqiRsp.parse data).Safe
  routingTableRecord : (RoutingTableRecord.parse data).Safe
  mgmtRtgRsp : (MgmtRtgRsp.parse data).Safe
  bindingTableRecord : (BindingTableRecord.parse data).Safe
  mgmtBindRsp : (MgmtBindRsp.parse data).Safe

theorem parsersInRange_iff (data : Buf) : ParsersInRange data ↔ ¬ NwkAddrRsp.Bare data := by
  refine ⟨fun h => (NwkAddrRsp.parse_safe_iff data).mp h.nwkAddrRsp, fun h => ?_⟩
  constructor
  case nwkAddrRsp => exact (NwkAddrRsp.parse_safe_iff data).mpr h
  case nwkAddrReq => exact NwkAddrReq.parse_safe data
  case ieeeAddrReq => exact IeeeAddrReq.parse_safe data
  case nodeDescReq => exact NodeDescReq.parse_safe data
  case nodeDescriptor => exact NodeDescriptor.parse_safe data
  case nodeDescRsp => exact NodeDescRsp.parse_safe data
  case powerDescriptor => exact PowerDescriptor.parse_safe data
  case powerDescRsp => exact PowerDescRsp.parse_safe data
  case simpleDescReq => exact SimpleDescReq.parse_safe data
  case simpleDescriptor => exact SimpleDescriptor.parse_safe data
  case simpleDescRsp => exact SimpleDescRsp.parse_safe data
  case activeEpRsp => exact ActiveEpRsp.parse_safe data
  case matchDescReq => exact MatchDescReq.parse_safe data
  case matchDescRsp => exact MatchDescRsp.parse_safe data
  case bindReq => exact BindReq.parse_safe data
  case statusRsp => exact StatusRsp.parse_safe data
  case mgmtLqiReq => exact MgmtLqiReq.parse_safe data
  case neighborTableRecord => exact NeighborTableRecord.parse_safe data
  case mgmtLqiRsp => exact MgmtLqiRsp.parse_safe data
  case routingTableRecord => exact RoutingTableRecord.parse_safe data
  case mgmtRtgRsp => exact MgmtRtgRsp.parse_safe data
  case bindingTableRecord => exact BindingTableRecord.parse_safe data
  case mgmtBindRsp => exact MgmtBindRsp.parse_safe data

/-- **The parsers stay in range, and read the answers of the handler back, but for bare address responses.** -/
theorem zdp_parsers_in_range (data : Buf) (n : AddrNode) (byNwkAddr unicast : Bool) (payload : Buf) (room : Nat) :
    (ParsersInRange data ↔ ¬ NwkAddrRsp.Bare data) ∧
      (n.handleAddrReq byNwkAddr unicast payload room).Safe ∧
      ∀ rsp, n.handleAddrReq byNwkAddr unicast payload room = .ok rsp →
        ∃ q, AddrQuery.read byNwkAddr unicast payload = .ok q ∧
          ((n.window q.startIndex room).length ≤ MAX_LIST →
            (NwkAddrRsp.parse rsp = .ok (n.answer q room) ↔ ¬ n.AnswersBare q)) := by
  refine ⟨parsersInRange_iff data, n.handleAddrReq_safe byNwkAddr unicast payload room, fun rsp hrsp => ?_⟩
  obtain ⟨-, hrsp⟩ := of_guard hrsp
  obtain ⟨hroom, hrsp⟩ := of_guard hrsp
  obtain ⟨q, hread, hrespond⟩ := bind_eq_ok hrsp
  cases hrespond
  have hmin : NwkAddrRsp.MIN_SIZE = 11 := rfl
  exact ⟨q, hread, fun hlist => AddrNode.parse_respond (by omega) hlist⟩

/-- An end device that is asked for the associated devices of its own address. -/
theorem end_device_answer_traps :
    ∃ (n : AddrNode) (rsp : Buf), n.handleAddrReq true true [0x34, 0x12, 0x01, 0x00] 80 = .ok rsp ∧
      NwkAddrRsp.parse rsp = .trap := by
  refine ⟨⟨false, { NwkLayer.new false .endDevice with nib := { Nib.new with networkAddress := 0x1234 } }, 0x1234,
    Vector.replicate 8 1⟩, _, rfl, ?_⟩
  decide

end Zigbee.Zdo
