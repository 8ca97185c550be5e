import Zigbee.Aps.Tables
import Zigbee.Lib.Returns

/-!
# Snapshot of the APS tables

Model of `PersistentApsTables` of `zigbee-runtime` (`aps_table_store.rs`): the binding and group tables
and the application link keys, bound to the extended PAN ID, and their encoding.

The first format ended after the groups; the reader takes such a snapshot as one without keys.  Bindings
and groups are read through the tables' own operations, so that no snapshot can hold one of them twice.
-/

namespace Zigbee.Runtime

open Bytes Records Aps

def BINDING_ENTRY_LEN : Nat := 21
def GROUP_ENTRY_MAX_LEN : Nat := 3 + MAX_ENDPOINTS_PER_GROUP
def APPLICATION_KEY_ENTRY_LEN : Nat := 33
def APPLICATION_KEY_LOW_WATER : UInt32 := 32
def APPLICATION_KEY_RESERVATION : UInt32 := 0x400

def MAX_ENCODED_APS_TABLES_LEN (f : Features) : Nat :=
  8 + 1 + MAX_BINDING_ENTRIES * BINDING_ENTRY_LEN + 1 + MAX_GROUPS f.router * GROUP_ENTRY_MAX_LEN + 1 +
    MAX_KEY_TABLE_ENTRIES f.trustCenter * APPLICATION_KEY_ENTRY_LEN

structure PersistentApplicationLinkKey where
  partnerAddress : IeeeAddress
  key : AesKey
  outgoingFrameCounterLimit : UInt32
  incomingFrameCounter : UInt32
  incomingFrameCounterValid : Bool
  deriving DecidableEq

inductive ApsTableStoreError where
  | persistenceRequired
  | corrupt
  | full
  | hardware
  | generationExhausted
  | foreignNetwork
  | counterExhausted
  deriving DecidableEq, Repr

structure PersistentApsTables (f : Features) where
  extendedPanId : IeeeAddress
  bindings : BindingTable
  groups : GroupTable f.router
  applicationKeys : Bounded PersistentApplicationLinkKey (MAX_KEY_TABLE_ENTRIES f.trustCenter)
  deriving DecidableEq

variable {t : PersistentApsTables f}

namespace PersistentApsTables

variable {f : Features}

def isEmpty (t : PersistentApsTables f) : Bool :=
  t.bindings.entries.isEmpty && t.groups.groups.isEmpty && t.applicationKeys.items.isEmpty

/-- An address that names neither a network nor a device. -/
def noAddress (address : IeeeAddress) : Bool := address == Vector.replicate 8 0 || address == Vector.replicate 8 0xFF

/-- `(1..=240).contains(&endpoint)` -/
def realEndpoint (endpoint : UInt8) : Bool := 1 ≤ endpoint && endpoint ≤ 240

def validateBinding (e : BindingEntry) : Bool :=
  e.srcAddr != Vector.replicate 8 0 && realEndpoint e.srcEndpoint &&
    match e.dstAddrMode, e.dst with
    | .group, .group _ => true
    | .extended, .unicast dstAddr dstEndpoint => !noAddress dstAddr && realEndpoint dstEndpoint
    | _, _ => false

def validateEndpoints : List UInt8 → Bool
  | [] => true
  | endpoint :: rest => realEndpoint endpoint && !rest.contains endpoint && validateEndpoints rest

def validateKeys : List PersistentApplicationLinkKey → Bool
  | [] => true
  | key :: rest =>
    !noAddress key.partnerAddress && key.outgoingFrameCounterLimit != 0 &&
      !rest.any (·.partnerAddress == key.partnerAddress) && validateKeys rest

def validate (t : PersistentApsTables f) : Except ApsTableStoreError Unit :=
  if !t.isEmpty && noAddress t.extendedPanId then .error .corrupt
  else if !t.bindings.entries.all validateBinding then .error .corrupt
  else if t.groups.groups.any fun g => g.endpointList.items.isEmpty || !validateEndpoints g.endpointList.items then
    .error .corrupt
  else if !validateKeys t.applicationKeys.items then .error .corrupt
  else .ok ()

theorem nodup_of_validateEndpoints {l : List UInt8} (h : validateEndpoints l = true) : l.Nodup := by
  induction l with
  | nil => exact List.nodup_nil
  | cons endpoint rest ih =>
    simp only [validateEndpoints, Bool.and_eq_true, Bool.not_eq_true'] at h
    refine List.nodup_cons.mpr ⟨?_, ih h.2⟩
    simpa using h.1.2

/-- What the decoder needs of a valid snapshot. -/
theorem tables_of_validate (h : t.validate = .ok ()) :
    (∀ e ∈ t.bindings.entries, validateBinding e = true) ∧
      ∀ g ∈ t.groups.groups, g.endpointList.items ≠ [] ∧ g.endpointList.items.Nodup := by
  simp only [validate, check_eq_ok] at h
  obtain ⟨-, hbindings, hgroups, -⟩ := h
  constructor
  · simpa using hbindings
  · intro g hg
    have hgroup : ¬ (g.endpointList.items.isEmpty || !validateEndpoints g.endpointList.items) = true :=
      fun hbad => hgroups (List.any_eq_true.mpr ⟨g, hg, hbad⟩)
    simp only [Bool.or_eq_true, Bool.not_eq_true', not_or, Bool.not_eq_false, List.isEmpty_iff] at hgroup
    exact ⟨hgroup.1, nodup_of_validateEndpoints hgroup.2⟩

theorem nodup_of_validateKeys {l : List PersistentApplicationLinkKey} (h : validateKeys l = true) :
    (l.map (·.partnerAddress)).Nodup := by
  induction l with
  | nil => exact List.nodup_nil
  | cons key rest ih =>
    simp only [validateKeys, Bool.and_eq_true, Bool.not_eq_true', List.any_eq_false, beq_iff_eq] at h
    refine List.nodup_cons.mpr ⟨fun hmem => ?_, ih h.2⟩
    obtain ⟨other, hother, heq⟩ := List.mem_map.mp hmem
    exact h.1.2 other hother heq

/-- A valid snapshot has one key for a partner. -/
theorem keys_of_validate (h : t.validate = .ok ()) : (t.applicationKeys.items.map (·.partnerAddress)).Nodup := by
  simp only [validate, check_eq_ok] at h
  obtain ⟨-, -, -, hkeys, -⟩ := h
  exact nodup_of_validateKeys (by simpa using hkeys)

/-! ## Encoding -/

def encodeDst : BindingDst → Buf
  | .group group => le16 group ++ List.replicate 7 0
  | .unicast dstAddr dstEndpoint => dstAddr.toList ++ [dstEndpoint]

def encodeBinding (e : BindingEntry) : Buf :=
  e.srcAddr.toList ++ ([e.srcEndpoint] ++ (le16 e.clusterId ++ ([e.dstAddrMode.toU8] ++ encodeDst e.dst)))

def encodeGroup (g : GroupEntry) : Buf :=
  le16 g.groupAddress ++ ([UInt8.ofNat g.endpointList.items.length] ++ g.endpointList.items)

def encodeKey (k : PersistentApplicationLinkKey) : Buf :=
  k.partnerAddress.toList ++ (k.key.toList ++ (le32 k.outgoingFrameCounterLimit ++ (le32 k.incomingFrameCounter ++
    [if k.incomingFrameCounterValid then 1 else 0])))

def encode (t : PersistentApsTables f) : Buf :=
  t.extendedPanId.toList ++ ([UInt8.ofNat t.bindings.entries.length] ++ (t.bindings.entries.flatMap encodeBinding ++
    ([UInt8.ofNat t.groups.groups.length] ++ (t.groups.groups.flatMap encodeGroup ++
      ([UInt8.ofNat t.applicationKeys.items.length] ++ t.applicationKeys.items.flatMap encodeKey)))))

/-- The binding of one entry. -/
def decodeBinding (entry : Buf) : Except ApsTableStoreError BindingEntry :=
  let srcAddr : IeeeAddress := arrayAt 8 entry 0
  let srcEndpoint := u8At entry 8
  let clusterId := u16At entry 9
  if u8At entry 11 = BindingDstMode.toU8 .group then
    if (slice entry 14 21).any (· != 0) then .error .corrupt
    else .ok (.group srcAddr srcEndpoint clusterId (u16At entry 12))
  else if u8At entry 11 = BindingDstMode.toU8 .extended then
    .ok (.unicast srcAddr srcEndpoint clusterId (arrayAt 8 entry 12) (u8At entry 20))
  else .error .corrupt

/-- One binding, read and added. -/
def readBinding (bindings : BindingTable) (bytes : Buf) : Except ApsTableStoreError (BindingTable × Buf) :=
  if bytes.length < BINDING_ENTRY_LEN then .error .corrupt
  else
    match decodeBinding (bytes.take BINDING_ENTRY_LEN) with
    | .error e => .error e
    | .ok binding =>
      match bindings.add binding with
      | none => .error .corrupt
      | some bindings => .ok (bindings, bytes.drop BINDING_ENTRY_LEN)

/-- The endpoints of a group, added one by one. -/
def addEndpoints (groups : GroupTable f.router) (groupAddress : UInt16) :
    List UInt8 → Except ApsTableStoreError (GroupTable f.router)
  | [] => .ok groups
  | endpoint :: rest =>
    if rest.contains endpoint then .error .corrupt
    else
      match groups.addGroup groupAddress endpoint with
      | none => .error .corrupt
      | some groups => addEndpoints groups groupAddress rest

/-- One group, read and added. -/
def readGroup (groups : GroupTable f.router) (bytes : Buf) : Except ApsTableStoreError (GroupTable f.router × Buf) :=
  if bytes.length < 3 then .error .corrupt
  else
    let groupAddress := u16At bytes 0
    let endpointCount := (u8At bytes 2).toNat
    if endpointCount = 0 ∨ MAX_ENDPOINTS_PER_GROUP < endpointCount ∨ (groups.find groupAddress).isSome then .error .corrupt
    else if bytes.length < 3 + endpointCount then .error .corrupt
    else
      match addEndpoints groups groupAddress ((bytes.drop 3).take endpointCount) with
      | .error e => .error e
      | .ok groups => .ok (groups, bytes.drop (3 + endpointCount))

/-- An application key; `bytes.get` fails behind the end. -/
def decodeKey (encoded : Buf) : Except ApsTableStoreError PersistentApplicationLinkKey :=
  if encoded.length < APPLICATION_KEY_ENTRY_LEN then .error .corrupt
  else if 1 < u8At encoded 32 then .error .corrupt
  else
    .ok {
      partnerAddress := arrayAt 8 encoded 0
      key := arrayAt 16 encoded 8
      outgoingFrameCounterLimit := u32At encoded 24
      incomingFrameCounter := u32At encoded 28
      incomingFrameCounterValid := u8At encoded 32 != 0 }

/-- The keys behind the groups, if the snapshot goes on. -/
def readKeys (bytes : Buf) :
    Except ApsTableStoreError (Bounded PersistentApplicationLinkKey (MAX_KEY_TABLE_ENTRIES f.trustCenter)) :=
  match bytes with
  | [] => .ok .empty
  | applicationKeyCount :: bytes =>
    if MAX_KEY_TABLE_ENTRIES f.trustCenter < applicationKeyCount.toNat then .error .corrupt
    else
      match readVec APPLICATION_KEY_ENTRY_LEN decodeKey .full applicationKeyCount.toNat bytes with
      | .error e => .error e
      | .ok (keys, rest) => if rest ≠ [] then .error .corrupt else .ok keys

/-- The snapshot, if it passes its checks. -/
def checked (t : PersistentApsTables f) : Except ApsTableStoreError (PersistentApsTables f) :=
  match t.validate with
  | .error e => .error e
  | .ok () => .ok t

/-- A count byte and its bound. -/
def readCount (most : Nat) : Buf → Except ApsTableStoreError (Nat × Buf)
  | [] => .error .corrupt
  | count :: bytes => if most < count.toNat then .error .corrupt else .ok (count.toNat, bytes)

def decode (bytes : Buf) : Except ApsTableStoreError (PersistentApsTables f) :=
  if bytes.length < 8 then .error .corrupt
  else do
    let (bindingCount, rest) ← readCount MAX_BINDING_ENTRIES (bytes.drop 8)
    let (bindings, rest) ← readMany readBinding bindingCount .new rest
    let (groupCount, rest) ← readCount (MAX_GROUPS f.router) rest
    let (groups, rest) ← readMany readGroup groupCount .new rest
    let applicationKeys ← readKeys rest
    checked { extendedPanId := arrayAt 8 bytes 0, bindings, groups, applicationKeys }

/-! ## Round trip -/

@[simp] theorem encodeDst_length (d : BindingDst) : (encodeDst d).length = 9 := by
  cases d <;> simp [encodeDst]

@[simp] theorem encodeBinding_length (e : BindingEntry) : (encodeBinding e).length = BINDING_ENTRY_LEN := by
  simp [encodeBinding, BINDING_ENTRY_LEN]

@[simp] theorem encodeKey_length (k : PersistentApplicationLinkKey) : (encodeKey k).length = APPLICATION_KEY_ENTRY_LEN := by
  simp [encodeKey, APPLICATION_KEY_ENTRY_LEN]

theorem encodeGroup_length (g : GroupEntry) : (encodeGroup g).length = 3 + g.endpointList.items.length := by
  simp [encodeGroup]
  omega

theorem groups_length_le (l : List GroupEntry) : (l.flatMap encodeGroup).length ≤ l.length * GROUP_ENTRY_MAX_LEN := by
  induction l with
  | nil => simp
  | cons g l ih =>
    have hg := encodeGroup_length g
    have hbounded := g.endpointList.bounded
    rw [List.flatMap_cons, List.length_append, List.length_cons, Nat.succ_mul]
    unfold GROUP_ENTRY_MAX_LEN at *
    omega

theorem encode_fits (t : PersistentApsTables f) : t.encode.length ≤ MAX_ENCODED_APS_TABLES_LEN f := by
  have h1 := Nat.mul_le_mul_right BINDING_ENTRY_LEN t.bindings.bounded
  have h2 := Nat.mul_le_mul_right GROUP_ENTRY_MAX_LEN t.groups.bounded
  have h3 := Nat.mul_le_mul_right APPLICATION_KEY_ENTRY_LEN t.applicationKeys.bounded
  have h4 := groups_length_le t.groups.groups
  unfold encode MAX_ENCODED_APS_TABLES_LEN
  simp only [List.length_append, List.length_singleton, Vector.length_toList, length_flatMap_of_width encodeBinding_length,
    length_flatMap_of_width encodeKey_length]
  omega

/-- The fields that the decoder reads of an encoded binding before its destination. -/
theorem encodeBinding_fields (e : BindingEntry) :
    arrayAt 8 (encodeBinding e) 0 = e.srcAddr ∧ u8At (encodeBinding e) 8 = e.srcEndpoint ∧
      u16At (encodeBinding e) 9 = e.clusterId ∧ u8At (encodeBinding e) 11 = e.dstAddrMode.toU8 := by
  unfold encodeBinding
  simp (disch := simp) only [u8At_append_right, u16At_append_right, le16_length, Vector.length_toList,
    List.length_cons, List.length_nil, Nat.reduceAdd, Nat.reduceSub, u16At_le16, arrayAt_toList]
  exact ⟨trivial, rfl, trivial, rfl⟩

/-- The destination of an encoded binding stands at offset 12. -/
theorem encodeBinding_dst (e : BindingEntry) :
    ∃ pre : Buf, encodeBinding e = pre ++ encodeDst e.dst ∧ pre.length = 12 :=
  ⟨e.srcAddr.toList ++ ([e.srcEndpoint] ++ (le16 e.clusterId ++ [e.dstAddrMode.toU8])), by simp [encodeBinding], by simp⟩

theorem decodeBinding_encodeBinding {e : BindingEntry} (h : validateBinding e = true) :
    decodeBinding (encodeBinding e) = .ok e := by
  obtain ⟨h1, h2, h3, h4⟩ := encodeBinding_fields e
  obtain ⟨pre, hpre, hlen⟩ := encodeBinding_dst e
  obtain ⟨srcAddr, srcEndpoint, clusterId, mode, dst⟩ := e
  simp only at h1 h2 h3 h4 hpre
  unfold decodeBinding
  simp only [h1, h2, h3, h4]
  cases dst with
  | group group =>
    cases mode with
    | extended => simp [validateBinding] at h
    | group =>
      have haddress : u16At (encodeBinding ⟨srcAddr, srcEndpoint, clusterId, .group, .group group⟩) 12 = group := by
        rw [hpre, u16At_append_right (by omega), hlen]
        exact u16At_le16 _ _
      have hzero : slice (encodeBinding ⟨srcAddr, srcEndpoint, clusterId, .group, .group group⟩) 14 21 =
          List.replicate 7 0 := by
        rw [hpre, slice_append_right (by omega), hlen]
        rfl
      rw [haddress, hzero]
      rfl
  | unicast dstAddr dstEndpoint =>
    cases mode with
    | group => simp [validateBinding] at h
    | extended =>
      have haddress : arrayAt 8 (encodeBinding ⟨srcAddr, srcEndpoint, clusterId, .extended, .unicast dstAddr dstEndpoint⟩) 12 =
          dstAddr := by
        rw [hpre, arrayAt_append_right (by omega), hlen]
        exact arrayAt_toList _ _
      have hendpoint : u8At (encodeBinding ⟨srcAddr, srcEndpoint, clusterId, .extended, .unicast dstAddr dstEndpoint⟩) 20 =
          dstEndpoint := by
        rw [hpre, u8At_append_right (by omega), hlen]
        unfold encodeDst
        rw [u8At_append_right (by simp), Vector.length_toList]
        rfl
      rw [haddress, hendpoint]
      rfl

/-- What has been read has room for the next element, and holds none of its key. -/
theorem next_new {α κ : Type} {key : α → κ} {n : Nat} {l pre post : List α} {e : α} (hnodup : (l.map key).Nodup) (hlen : l.length ≤ n)
    (hsplit : l = pre ++ e :: post) : pre.length < n ∧ ∀ x ∈ pre, key x ≠ key e := by
  rw [hsplit, List.length_append, List.length_cons] at hlen
  rw [hsplit, List.map_append, List.nodup_append] at hnodup
  exact ⟨by omega, fun x hx => hnodup.2.2 _ (List.mem_map_of_mem hx) _ (List.mem_map_of_mem List.mem_cons_self)⟩

theorem readBindings_encoded (t : BindingTable) (hvalid : ∀ e ∈ t.entries, validateBinding e = true) (rest : Buf) :
    readMany readBinding t.entries.length .new (t.entries.flatMap encodeBinding ++ rest) = .ok (t, rest) := by
  have hstep : ∀ pre e post (s : BindingTable) rest, t.entries = pre ++ e :: post → s.entries = pre →
      ∃ s', readBinding s (encodeBinding e ++ rest) = .ok (s', rest) ∧ s'.entries = pre ++ [e] := by
    intro pre e post s rest hsplit hs
    obtain ⟨hroom, hnew⟩ := hs ▸ next_new t.distinct t.bounded hsplit
    obtain ⟨s', hadd, hentries⟩ := BindingTable.add_eq_some hnew hroom
    refine ⟨s', ?_, by rw [hentries, hs]⟩
    have hlen := encodeBinding_length e
    unfold readBinding
    rw [if_neg (by rw [List.length_append]; omega), List.take_left' hlen, List.drop_left' hlen,
      decodeBinding_encodeBinding (hvalid e (by simp [hsplit]))]
    simp only [hadd]
  obtain ⟨s, hread, hs⟩ := readMany_encoded (R := fun l (s : BindingTable) => s.entries = l) (s := .new) rest hstep rfl
  rw [show s = t from BindingTable.ext hs] at hread
  exact hread

/-- The endpoints that follow the first one. -/
theorem addEndpoints_last {pre : List GroupEntry} {rest : List UInt8} {s : GroupTable f.router} {group : GroupEntry}
    (hs : s.groups = pre ++ [group]) (hnodup : (group.endpointList.items ++ rest).Nodup)
    (hroom : group.endpointList.items.length + rest.length ≤ MAX_ENDPOINTS_PER_GROUP) :
    ∃ s' list, addEndpoints s group.groupAddress rest = .ok s' ∧ s'.groups = pre ++ [⟨group.groupAddress, list⟩] ∧
      list.items = group.endpointList.items ++ rest := by
  induction rest generalizing s group with
  | nil => exact ⟨s, group.endpointList, rfl, hs, by simp⟩
  | cons endpoint rest ih =>
    rw [List.length_cons] at hroom
    obtain ⟨-, hrest, hdisjoint⟩ := List.nodup_append.mp hnodup
    have hout : endpoint ∉ group.endpointList.items := fun hmem => hdisjoint _ hmem _ List.mem_cons_self rfl
    obtain ⟨s', list, hadd, hgroups, hitems⟩ := GroupTable.addGroup_last hs hout (by omega)
    obtain ⟨s'', list', hrun, hgroups', hitems'⟩ := ih hgroups
      (by rw [hitems, List.append_assoc]; exact hnodup) (by simp only [hitems, List.length_append, List.length_singleton]; omega)
    refine ⟨s'', list', ?_, hgroups', by rw [hitems', hitems, List.append_assoc]; rfl⟩
    have hcontains : ¬ rest.contains endpoint = true := by
      rw [List.contains_iff_mem]
      exact (List.nodup_cons.mp hrest).1
    unfold addEndpoints
    rw [if_neg hcontains, hadd]
    exact hrun

theorem addEndpoints_new {s : GroupTable f.router} {groupAddress : UInt16} {list : Bounded UInt8 MAX_ENDPOINTS_PER_GROUP}
    (hnew : ∀ g ∈ s.groups, g.groupAddress ≠ groupAddress) (hroom : s.groups.length < MAX_GROUPS f.router)
    (hne : list.items ≠ []) (hnodup : list.items.Nodup) :
    ∃ s', addEndpoints s groupAddress list.items = .ok s' ∧ s'.groups = s.groups ++ [⟨groupAddress, list⟩] := by
  cases hlist : list.items with
  | nil => exact absurd hlist hne
  | cons endpoint rest =>
    have hbounded := list.bounded
    rw [hlist] at hnodup hbounded
    rw [List.length_cons] at hbounded
    obtain ⟨s', hadd, hgroups⟩ := GroupTable.addGroup_new hnew hroom endpoint
    obtain ⟨s'', list', hrun, hgroups', hitems⟩ := addEndpoints_last hgroups (by simpa [onlyEndpoint] using hnodup)
      (by simp only [onlyEndpoint, List.length_singleton]; omega)
    refine ⟨s'', ?_, ?_⟩
    · unfold addEndpoints
      rw [if_neg (by rw [List.contains_iff_mem]; exact (List.nodup_cons.mp hnodup).1), hadd]
      exact hrun
    · rw [hgroups', show list' = list from Bounded.ext (by rw [hitems, hlist]; rfl)]

theorem readGroups_encoded (t : GroupTable f.router)
    (hvalid : ∀ g ∈ t.groups, g.endpointList.items ≠ [] ∧ g.endpointList.items.Nodup) (rest : Buf) :
    readMany (readGroup (f := f)) t.groups.length .new (t.groups.flatMap encodeGroup ++ rest) = .ok (t, rest) := by
  have hstep : ∀ pre g post (s : GroupTable f.router) rest, t.groups = pre ++ g :: post → s.groups = pre →
      ∃ s', readGroup s (encodeGroup g ++ rest) = .ok (s', rest) ∧ s'.groups = pre ++ [g] := by
    intro pre g post s rest hsplit hs
    obtain ⟨hne, hnodup⟩ := hvalid g (by simp [hsplit])
    obtain ⟨hroom, hnew⟩ := hs ▸ next_new t.distinct t.bounded hsplit
    obtain ⟨s', hadd, hgroups⟩ := addEndpoints_new hnew hroom hne hnodup
    refine ⟨s', ?_, by rw [hgroups, hs]⟩
    have hbounded : g.endpointList.items.length ≤ 8 := g.endpointList.bounded
    have hpos := List.length_pos_iff.mpr hne
    have hlen := encodeGroup_length g
    have haddress : u16At (encodeGroup g ++ rest) 0 = g.groupAddress := by
      unfold encodeGroup
      rw [List.append_assoc]
      exact u16At_le16 _ _
    have hcount : (u8At (encodeGroup g ++ rest) 2).toNat = g.endpointList.items.length := by
      unfold encodeGroup
      rw [List.append_assoc, u8At_append_right (by simp)]
      change (UInt8.ofNat g.endpointList.items.length).toNat = _
      rw [UInt8.toNat_ofNat']
      omega
    have hfind : (s.find g.groupAddress).isSome = false := by
      unfold GroupTable.find
      rw [List.find?_eq_none.mpr fun x hx => by simpa using hnew x hx]
      rfl
    have hdrop : (encodeGroup g ++ rest).drop 3 = g.endpointList.items ++ rest := by
      have hsplit' : encodeGroup g ++ rest =
          (le16 g.groupAddress ++ [UInt8.ofNat g.endpointList.items.length]) ++ (g.endpointList.items ++ rest) := by
        simp [encodeGroup]
      exact drop_of_eq hsplit' (by simp)
    unfold readGroup
    simp only [haddress, hcount, hfind]
    rw [if_neg (by rw [List.length_append]; omega), if_neg (by simpa using And.intro hne g.endpointList.bounded),
      if_neg (by rw [List.length_append]; omega), hdrop, List.take_left' rfl, List.drop_left' hlen]
    simp only [hadd]
  obtain ⟨s, hread, hs⟩ := readMany_encoded (R := fun l (s : GroupTable f.router) => s.groups = l) (s := .new) rest hstep rfl
  rw [show s = t from GroupTable.ext hs] at hread
  exact hread

theorem decodeKey_encodeKey (k : PersistentApplicationLinkKey) : decodeKey (encodeKey k) = .ok k := by
  have hfields : arrayAt 8 (encodeKey k) 0 = k.partnerAddress ∧ arrayAt 16 (encodeKey k) 8 = k.key ∧
      u32At (encodeKey k) 24 = k.outgoingFrameCounterLimit ∧ u32At (encodeKey k) 28 = k.incomingFrameCounter ∧
      u8At (encodeKey k) 32 = if k.incomingFrameCounterValid then 1 else 0 := by
    unfold encodeKey
    simp (disch := simp) only [u8At_append_right, u32At_append_right, arrayAt_append_right, le32_length, Vector.length_toList,
      Nat.reduceSub, u32At_le32, arrayAt_toList, u8At_cons_zero, and_self]
  obtain ⟨h1, h2, h3, h4, h5⟩ := hfields
  unfold decodeKey
  rw [if_neg (by simp), h1, h2, h3, h4, h5]
  obtain ⟨partner, key, limit, counter, valid⟩ := k
  cases valid <;> rfl

theorem readCount_encoded {most n : Nat} (hn : n ≤ most) (hmost : most ≤ 32) (rest : Buf) :
    readCount most ([UInt8.ofNat n] ++ rest) = .ok (n, rest) := by
  have hcount : (UInt8.ofNat n).toNat = n := by
    rw [UInt8.toNat_ofNat']
    omega
  change (if most < (UInt8.ofNat n).toNat then _ else _) = _
  rw [hcount, if_neg (by omega)]
  rfl

theorem MAX_GROUPS_le (router : Bool) : MAX_GROUPS router ≤ 32 := by cases router <;> decide

theorem MAX_KEY_TABLE_ENTRIES_le (trustCenter : Bool) : MAX_KEY_TABLE_ENTRIES trustCenter ≤ 32 := by
  cases trustCenter <;> decide

theorem readKeys_encoded (v : Bounded PersistentApplicationLinkKey (MAX_KEY_TABLE_ENTRIES f.trustCenter)) :
    readKeys (f := f) ([UInt8.ofNat v.items.length] ++ v.items.flatMap encodeKey) = .ok v := by
  have hcount : (UInt8.ofNat v.items.length).toNat = v.items.length := by
    have := v.bounded.trans (MAX_KEY_TABLE_ENTRIES_le _)
    rw [UInt8.toNat_ofNat']
    omega
  have hread := readVec_encoded decodeKey ApsTableStoreError.full encodeKey v []
    fun k _ => ⟨encodeKey_length k, decodeKey_encodeKey k⟩
  rw [List.append_nil] at hread
  simp only [readKeys, List.singleton_append, hcount, hread]
  rw [if_neg (Nat.not_lt.mpr v.bounded)]
  rfl

theorem decode_encode (h : t.validate = .ok ()) : decode t.encode = .ok t := by
  obtain ⟨hbindings, hgroups⟩ := tables_of_validate h
  have hepid : arrayAt 8 t.encode 0 = t.extendedPanId := arrayAt_toList _ _
  have hdrop : t.encode.drop 8 = _ := drop_of_eq rfl (by simp)
  unfold decode
  rw [if_neg (by simp [encode]), hepid, hdrop, readCount_encoded t.bindings.bounded (by decide)]
  simp only [bind, Except.bind, readBindings_encoded t.bindings hbindings,
    readCount_encoded t.groups.bounded (MAX_GROUPS_le _), readGroups_encoded t.groups hgroups, readKeys_encoded, checked, h]

theorem decode_valid {bytes : Buf} (h : decode bytes = .ok t) : t.validate = .ok () := by
  have hchecked : ∀ t : PersistentApsTables f, Returns t.checked fun t => t.validate = .ok () := by
    intro t t' ht
    unfold checked at ht
    split at ht
    · cases ht
    · cases ht
      assumption
  have hreturns : Returns (decode bytes) fun t : PersistentApsTables f => t.validate = .ok () := by
    refine returns_ite (fun _ => returns_error _) fun _ => ?_
    refine returns_check fun _ => returns_check fun _ => returns_check fun _ => returns_check fun _ => ?_
    exact returns_check fun _ => hchecked _
  exact hreturns t h

/-- **The codec of the APS tables is exact.** -/
theorem codec_exact (f : Features) :
    ExactCodec (fun t : PersistentApsTables f => t.validate = .ok ()) encode (MAX_ENCODED_APS_TABLES_LEN f) decode [decode] := by
  refine ExactCodec.of_roundTrip List.mem_cons_self (fun t h => decode_encode h) (fun t _ => encode_fits t) ?_
  intro d hd bytes t h
  rw [List.mem_singleton.mp hd] at h
  exact decode_valid h

end PersistentApsTables

end Zigbee.Runtime
