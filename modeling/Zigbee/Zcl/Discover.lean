import Zigbee.Lib.Paging
import Zigbee.Zcl.Attribute

/-!
# Discovery of attributes and commands

Model of `zigbee-zcl/src/foundation/discover.rs`: a request names a start and a page size, and the answer
is cut off by the page size, by the capacity of the response and by the buffer it is written to.

* `processDiscoverExtendedDyn`, `processDiscoverDyn`, `processDiscoverCommands` — the selection.
* `serializeRecords` — the records that fit in the buffer.
* `answer` — an answer as the client receives it.
* `discovery_complete_iff` — repeated requests find every attribute exactly when there are at most 32.
-/

namespace Zigbee.Zcl

open Bytes Paging

def MAX_DISCOVER : Nat := 16
def MAX_DISCOVER_COMMANDS : Nat := 32
/-- `heapless::Vec<AttributeId, 32>` -/
def MAX_ALL_IDS : Nat := 32

namespace AttributeStore

variable {N : Nat}

/-- `all_ids`: a push without room is ignored. -/
def allIds (store : AttributeStore N) : List AttributeId :=
  store.attrs.foldl (fun ids a => if ids.length < MAX_ALL_IDS then ids ++ [a.definition.id] else ids) []

theorem allIds_eq (store : AttributeStore N) : store.allIds = (store.attrs.map (·.definition.id)).take MAX_ALL_IDS := by
  have hfold : ∀ (attrs : List AttributeValue) (ids : List AttributeId), ids.length ≤ MAX_ALL_IDS →
      attrs.foldl (fun ids a => if ids.length < MAX_ALL_IDS then ids ++ [a.definition.id] else ids) ids =
        ids ++ (attrs.map (·.definition.id)).take (MAX_ALL_IDS - ids.length) := by
    intro attrs
    induction attrs with
    | nil => intro ids _; simp
    | cons a rest ih =>
      intro ids hids
      rw [List.foldl_cons]
      by_cases hroom : ids.length < MAX_ALL_IDS
      · rw [if_pos hroom, ih _ (by simp; omega), List.map_cons,
          show MAX_ALL_IDS - ids.length = MAX_ALL_IDS - (ids ++ [a.definition.id]).length + 1 by simp; omega,
          List.take_succ_cons, List.append_assoc, List.singleton_append]
      · rw [if_neg hroom, ih _ hids, show MAX_ALL_IDS - ids.length = 0 by omega, List.take_zero, List.take_zero]
  rw [allIds, hfold _ _ (Nat.zero_le _)]
  rfl

end AttributeStore

/-! ## Requests -/

structure DiscoverAttributesRequest where
  startId : AttributeId
  maxResults : UInt8
  deriving DecidableEq

namespace DiscoverAttributesRequest

def parse (data : Buf) : Option DiscoverAttributesRequest :=
  if data.length < 3 then none else some ⟨u16At data 0, u8At data 2⟩

def serialize (request : DiscoverAttributesRequest) : Buf := le16 request.startId ++ [request.maxResults]

theorem parse_serialize (request : DiscoverAttributesRequest) : parse request.serialize = some request := by
  have hid := u16At_le16 request.startId [request.maxResults]
  have hmax : u8At (le16 request.startId ++ [request.maxResults]) 2 = request.maxResults := by
    simp [u8At, le16]
  rw [parse, serialize, if_neg (by simp), hid, hmax]

end DiscoverAttributesRequest

structure DiscoverCommandsRequest where
  startCommandId : UInt8
  maxResults : UInt8
  deriving DecidableEq

namespace DiscoverCommandsRequest

def parse (data : Buf) : Option DiscoverCommandsRequest :=
  if data.length < 2 then none else some ⟨u8At data 0, u8At data 1⟩

def serialize (request : DiscoverCommandsRequest) : Buf := [request.startCommandId, request.maxResults]

theorem parse_serialize (request : DiscoverCommandsRequest) : parse request.serialize = some request := rfl

end DiscoverCommandsRequest

/-! ## Responses -/

structure DiscoverAttributeInfo where
  id : AttributeId
  dataType : ZclDataType
  deriving DecidableEq

/-- Bit 0 of the access control: readable, bit 1: writable, bit 2: reportable. -/
structure DiscoverAttributeExtendedInfo where
  id : AttributeId
  dataType : ZclDataType
  accessControl : UInt8
  deriving DecidableEq

structure DiscoverAttributesResponse where
  complete : Bool
  attributes : List DiscoverAttributeInfo

structure DiscoverAttributesExtendedResponse where
  complete : Bool
  attributes : List DiscoverAttributeExtendedInfo

structure DiscoverCommandsResponse where
  complete : Bool
  commandIds : List UInt8

/-- The records that fit in a buffer of `room` bytes from `pos` on, and whether these are all. -/
def serializeRecords {α : Type} (recordLen : Nat) (encode : α → Buf) (room : Nat) : List α → Nat → Buf × Bool
  | [], _ => ([], true)
  | info :: rest, pos =>
    if pos + recordLen ≤ room then
      (encode info ++ (serializeRecords recordLen encode room rest (pos + recordLen)).1,
        (serializeRecords recordLen encode room rest (pos + recordLen)).2)
    else ([], false)

/-- The flag, and the records that fit. -/
def serializeResponse {α : Type} (recordLen : Nat) (encode : α → Buf) (complete : Bool) (records : List α) (room : Nat) : Buf :=
  if room = 0 then []
  else
    (if complete && (serializeRecords recordLen encode room records 1).2 then 1 else 0) ::
      (serializeRecords recordLen encode room records 1).1

def DiscoverAttributeInfo.encode (info : DiscoverAttributeInfo) : Buf := le16 info.id ++ [info.dataType.toU8]

def DiscoverAttributeExtendedInfo.encode (info : DiscoverAttributeExtendedInfo) : Buf :=
  le16 info.id ++ [info.dataType.toU8, info.accessControl]

def DiscoverAttributesResponse.serialize (response : DiscoverAttributesResponse) (room : Nat) : Buf :=
  serializeResponse 3 DiscoverAttributeInfo.encode response.complete response.attributes room

def DiscoverAttributesExtendedResponse.serialize (response : DiscoverAttributesExtendedResponse) (room : Nat) : Buf :=
  serializeResponse 4 DiscoverAttributeExtendedInfo.encode response.complete response.attributes room

def DiscoverCommandsResponse.serialize (response : DiscoverCommandsResponse) (room : Nat) : Buf :=
  if room = 0 then []
  else
    let n := min response.commandIds.length (room - 1)
    (if response.complete && n == response.commandIds.length then 1 else 0) :: response.commandIds.take n

/-! ## The selection -/

/-- The smallest id from `floor` on, `0x10000` if none is left. -/
def nextAttributeId (all : List AttributeId) (floor : Nat) : Nat :=
  all.foldl (fun next a => if floor ≤ a.toNat ∧ a.toNat < next then a.toNat else next) 0x10000

theorem nextAttributeId_eq (all : List AttributeId) (floor : Nat) :
    nextAttributeId all floor = Paging.next 0x10000 (all.map UInt16.toNat) floor := by
  rw [Paging.next, List.foldl_map]
  rfl

/-- `AC[def.access as usize]` -/
def AttributeAccess.control : AttributeAccess → UInt8
  | .readOnly => 0b101
  | .writeOnly => 0b010
  | .readWrite => 0b111
  | .reportable => 0b101

def extendedInfo (definition : AttributeDefinition) : DiscoverAttributeExtendedInfo :=
  ⟨definition.id, definition.dataType, definition.access.control⟩

variable {N : Nat}

/-- The loop: the attributes so far, and whether these are all. -/
def discoverFrom (store : AttributeStore N) (all : List AttributeId) (maxResults : UInt8) (floor : Nat)
    (attributes : List DiscoverAttributeExtendedInfo) : DiscoverAttributesExtendedResponse :=
  if _h : nextAttributeId all floor < 0x10000 then
    if attributes.length ≥ maxResults.toNat then ⟨false, attributes⟩
    else
      match store.find (UInt16.ofNat (nextAttributeId all floor)) with
      | some definition =>
        if attributes.length < MAX_DISCOVER then
          discoverFrom store all maxResults (nextAttributeId all floor + 1) (attributes ++ [extendedInfo definition])
        else ⟨false, attributes⟩
      | none => discoverFrom store all maxResults (nextAttributeId all floor + 1) attributes
  else ⟨true, attributes⟩
termination_by 0x10000 - floor
decreasing_by
  all_goals
    rw [nextAttributeId_eq] at _h ⊢
    have := (next_mem _ _ _h).2
    omega

def processDiscoverExtendedDyn (store : AttributeStore N) (request : DiscoverAttributesRequest) :
    DiscoverAttributesExtendedResponse :=
  discoverFrom store store.allIds request.maxResults request.startId.toNat []

def processDiscoverDyn (store : AttributeStore N) (request : DiscoverAttributesRequest) : DiscoverAttributesResponse :=
  let ext := processDiscoverExtendedDyn store request
  ⟨ext.complete, ext.attributes.map fun a => ⟨a.id, a.dataType⟩⟩

/-- The smallest command from `floor` on, `0x100` if none is left. -/
def nextCommandId (all : List UInt8) (floor : Nat) : Nat :=
  all.foldl (fun next c => if floor ≤ c.toNat ∧ c.toNat < next then c.toNat else next) 0x100

theorem nextCommandId_eq (all : List UInt8) (floor : Nat) :
    nextCommandId all floor = Paging.next 0x100 (all.map UInt8.toNat) floor := by
  rw [Paging.next, List.foldl_map]
  rfl

def discoverCommandsFrom (all : List UInt8) (maxResults : UInt8) (floor : Nat) (commandIds : List UInt8) :
    DiscoverCommandsResponse :=
  if _h : nextCommandId all floor < 0x100 then
    if commandIds.length ≥ maxResults.toNat ∨ ¬ commandIds.length < MAX_DISCOVER_COMMANDS then ⟨false, commandIds⟩
    else discoverCommandsFrom all maxResults (nextCommandId all floor + 1) (commandIds ++ [UInt8.ofNat (nextCommandId all floor)])
  else ⟨true, commandIds⟩
termination_by 0x100 - floor
decreasing_by
  rw [nextCommandId_eq] at _h ⊢
  have := (next_mem _ _ _h).2
  omega

def processDiscoverCommands (allCommands : List UInt8) (request : DiscoverCommandsRequest) : DiscoverCommandsResponse :=
  discoverCommandsFrom allCommands request.maxResults request.startCommandId.toNat []

/-! ## The selection is a page -/

section
variable {store : AttributeStore N}

/-- What is reported for an id. -/
def infoAt (store : AttributeStore N) (v : Nat) : DiscoverAttributeExtendedInfo :=
  extendedInfo ((store.find (UInt16.ofNat v)).getD ⟨0, .noData, .readOnly⟩)

theorem find_isSome_of_mem {id : AttributeId} (h : id ∈ store.allIds) : ∃ definition, store.find id = some definition := by
  rw [AttributeStore.allIds_eq] at h
  obtain ⟨a, ha, rfl⟩ := List.mem_map.mp (List.mem_of_mem_take h)
  cases hfind : store.attrs.find? (·.definition.id == a.definition.id) with
  | none =>
    have := List.find?_eq_none.mp hfind a ha
    simp at this
  | some b => exact ⟨b.definition, by rw [AttributeStore.find, hfind, Option.map_some]⟩

/-- The keys of the loop. -/
def idKeys (store : AttributeStore N) : List Nat := store.allIds.map UInt16.toNat

theorem idKeys_lt : ∀ v ∈ idKeys store, v < 0x10000 := by
  intro v hv
  obtain ⟨id, -, rfl⟩ := List.mem_map.mp hv
  exact id.toNat_lt

/-- **The loop selects in ascending order**, as many as the request and the response have room for. -/
theorem discoverFrom_eq (maxResults : UInt8) (floor : Nat) (attributes : List DiscoverAttributeExtendedInfo) :
    discoverFrom store store.allIds maxResults floor attributes =
      ⟨(select 0x10000 (idKeys store) (min maxResults.toNat MAX_DISCOVER - attributes.length) floor).2,
        attributes ++
          (select 0x10000 (idKeys store) (min maxResults.toNat MAX_DISCOVER - attributes.length) floor).1.map
            (infoAt store)⟩ := by
  have hkeys : ∀ floor, nextAttributeId store.allIds floor = Paging.next 0x10000 (idKeys store) floor :=
    nextAttributeId_eq store.allIds
  induction floor, attributes using discoverFrom.induct store store.allIds maxResults with
  | case1 floor attributes hnext hfull =>
    rw [discoverFrom, dif_pos hnext, if_pos hfull, show min maxResults.toNat MAX_DISCOVER - attributes.length = 0 by omega,
      select_full (hkeys floor ▸ hnext), List.map_nil, List.append_nil]
  | case2 floor attributes hnext hmore definition hfind hroom ih =>
    obtain ⟨n, hn⟩ : ∃ n, min maxResults.toNat MAX_DISCOVER - attributes.length = n + 1 :=
      ⟨min maxResults.toNat MAX_DISCOVER - attributes.length - 1, by omega⟩
    have hlimit : min maxResults.toNat MAX_DISCOVER - (attributes ++ [extendedInfo definition]).length = n := by
      rw [List.length_append, List.length_singleton]
      omega
    have hinfo : infoAt store (Paging.next 0x10000 (idKeys store) floor) = extendedInfo definition := by
      rw [infoAt, ← hkeys, hfind, Option.getD_some]
    rw [discoverFrom, dif_pos hnext, if_neg hmore, hfind]
    dsimp only
    rw [if_pos hroom, ih, hlimit, hn, select_more (hkeys floor ▸ hnext), hkeys, List.map_cons, hinfo,
      List.append_assoc, List.singleton_append]
  | case3 floor attributes hnext hmore definition hfind hfull =>
    rw [discoverFrom, dif_pos hnext, if_neg hmore, hfind]
    dsimp only
    rw [if_neg hfull, show min maxResults.toNat MAX_DISCOVER - attributes.length = 0 by omega,
      select_full (hkeys floor ▸ hnext), List.map_nil, List.append_nil]
  | case4 floor attributes hnext hmore hfind ih =>
    -- every id of the list is an attribute of the store
    obtain ⟨hmem, -⟩ := next_mem (idKeys store) 0x10000 (hkeys floor ▸ hnext)
    obtain ⟨id, hid, hkey⟩ := List.mem_map.mp hmem
    obtain ⟨definition, hdefinition⟩ := find_isSome_of_mem hid
    rw [hkeys, ← hkey, UInt16.ofNat_toNat, hdefinition] at hfind
    cases hfind
  | case5 floor attributes hnext =>
    rw [discoverFrom, dif_neg hnext, select_none (hkeys floor ▸ hnext), List.map_nil, List.append_nil]

theorem discoverCommandsFrom_eq (all : List UInt8) (maxResults : UInt8) (floor : Nat) (commandIds : List UInt8) :
    discoverCommandsFrom all maxResults floor commandIds =
      ⟨(select 0x100 (all.map UInt8.toNat) (min maxResults.toNat MAX_DISCOVER_COMMANDS - commandIds.length) floor).2,
        commandIds ++ (select 0x100 (all.map UInt8.toNat)
          (min maxResults.toNat MAX_DISCOVER_COMMANDS - commandIds.length) floor).1.map UInt8.ofNat⟩ := by
  have hkeys := nextCommandId_eq all
  induction floor, commandIds using discoverCommandsFrom.induct all maxResults with
  | case1 floor commandIds hnext hfull =>
    rw [discoverCommandsFrom, dif_pos hnext, if_pos hfull,
      show min maxResults.toNat MAX_DISCOVER_COMMANDS - commandIds.length = 0 by omega,
      select_full (hkeys floor ▸ hnext), List.map_nil, List.append_nil]
  | case2 floor commandIds hnext hmore ih =>
    obtain ⟨n, hn⟩ : ∃ n, min maxResults.toNat MAX_DISCOVER_COMMANDS - commandIds.length = n + 1 :=
      ⟨min maxResults.toNat MAX_DISCOVER_COMMANDS - commandIds.length - 1, by omega⟩
    have hlimit : min maxResults.toNat MAX_DISCOVER_COMMANDS -
        (commandIds ++ [UInt8.ofNat (nextCommandId all floor)]).length = n := by
      rw [List.length_append, List.length_singleton]
      omega
    rw [discoverCommandsFrom, dif_pos hnext, if_neg hmore, ih, hlimit, hn, select_more (hkeys floor ▸ hnext), hkeys,
      List.map_cons, List.append_assoc, List.singleton_append]
  | case3 floor commandIds hnext =>
    rw [discoverCommandsFrom, dif_neg hnext, select_none (hkeys floor ▸ hnext), List.map_nil, List.append_nil]

end

/-! ## The answer on the wire -/

section Wire

variable {α : Type} {recordLen : Nat} {encode : α → Buf}

/-- The records in the body of an answer. -/
def readRecords (recordLen : Nat) (body : Buf) : List Buf :=
  (List.range (body.length / recordLen)).map fun i => (body.drop (recordLen * i)).take recordLen

/-- What a client receives: the records, and the flag. -/
def received (recordLen : Nat) (payload : Buf) : List Buf × Bool := (readRecords recordLen payload.tail, payload.headD 0 != 0)

theorem serializeRecords_eq (hpos : 0 < recordLen) (room : Nat) (records : List α) (pos : Nat) :
    serializeRecords recordLen encode room records pos =
      ((records.take ((room - pos) / recordLen)).flatMap encode, decide (records.length ≤ (room - pos) / recordLen)) := by
  induction records generalizing pos with
  | nil => simp [serializeRecords]
  | cons info rest ih =>
    rw [serializeRecords]
    by_cases hfits : pos + recordLen ≤ room
    · have hcount : (room - pos) / recordLen = (room - (pos + recordLen)) / recordLen + 1 := by
        rw [show room - pos = room - (pos + recordLen) + recordLen by omega, Nat.add_div_right _ hpos]
      rw [if_pos hfits, ih, hcount, List.take_succ_cons, List.flatMap_cons, List.length_cons]
      simp
    · rw [if_neg hfits, Nat.div_eq_of_lt (by omega)]
      simp

theorem readRecords_flatMap (hpos : 0 < recordLen) (hlength : ∀ info, (encode info).length = recordLen) (records : List α) :
    readRecords recordLen (records.flatMap encode) = records.map encode := by
  induction records with
  | nil => simp [readRecords]
  | cons info rest ih =>
    have hcount : (encode info ++ rest.flatMap encode).length / recordLen = (rest.flatMap encode).length / recordLen + 1 := by
      rw [List.length_append, hlength, Nat.add_comm, Nat.add_div_right _ hpos]
    rw [List.flatMap_cons, List.map_cons, ← ih, readRecords, readRecords, hcount, List.range_succ_eq_map, List.map_cons,
      List.map_map, Nat.mul_zero, List.drop_zero, List.take_left' (hlength info)]
    congr 1
    refine List.map_congr_left fun i _ => ?_
    rw [Function.comp_apply, Nat.mul_succ, Nat.add_comm, ← List.drop_drop, List.drop_left' (hlength info)]

/-- The client receives the records that fit, and whether these are all. -/
theorem received_serializeResponse (hpos : 0 < recordLen) (hlength : ∀ info, (encode info).length = recordLen) {room : Nat}
    (hroom : 0 < room) (complete : Bool) (records : List α) :
    received recordLen (serializeResponse recordLen encode complete records room) =
      ((records.take ((room - 1) / recordLen)).map encode, complete && decide (records.length ≤ (room - 1) / recordLen)) := by
  rw [serializeResponse, if_neg (by omega), serializeRecords_eq hpos, received, List.tail_cons, List.headD_cons,
    readRecords_flatMap hpos hlength]
  congr 1
  split
  · rename_i hall
    rw [hall]
    rfl
  · rename_i hall
    rw [Bool.not_eq_true _ |>.mp hall]
    rfl

theorem DiscoverCommandsResponse.serialize_eq (response : DiscoverCommandsResponse) (room : Nat) :
    response.serialize room = serializeResponse 1 (fun c => [c]) response.complete response.commandIds room := by
  rw [DiscoverCommandsResponse.serialize, serializeResponse, serializeRecords_eq Nat.one_pos, Nat.div_one]
  split
  · rfl
  · have hbound : (min response.commandIds.length (room - 1) == response.commandIds.length) =
        decide (response.commandIds.length ≤ room - 1) := by
      rw [Bool.eq_iff_iff, beq_iff_eq, decide_eq_true_iff]
      omega
    have hflat : ∀ l : List UInt8, l.flatMap (fun c => [c]) = l := by
      intro l
      induction l with
      | nil => rfl
      | cons c rest ih => rw [List.flatMap_cons, ih, List.singleton_append]
    dsimp only
    rw [hbound, hflat]
    congr 1
    rw [List.take_eq_take_iff]
    omega

variable {ρ : Type} {key : α → Nat} {wireKey : Buf → Nat} {all : α → Prop} {floor : Nat} {complete : Bool} {records : List α}

/-- **A page on the wire is a page.** -/
theorem received_isPage (h : IsPage key all floor records complete) (hpos : 0 < recordLen)
    (hlength : ∀ info, (encode info).length = recordLen) (hkey : ∀ info, wireKey (encode info) = key info) {room : Nat}
    (hroom : recordLen + 1 ≤ room) :
    IsPage wireKey (fun r => ∃ info, all info ∧ r = encode info) floor
      (received recordLen (serializeResponse recordLen encode complete records room)).1
      (received recordLen (serializeResponse recordLen encode complete records room)).2 := by
  rw [received_serializeResponse hpos hlength (by omega)]
  exact (h.take _).map encode fun info _ => hkey info

theorem received_progress (hnonempty : complete = false → records ≠ []) (hpos : 0 < recordLen)
    (hlength : ∀ info, (encode info).length = recordLen) {room : Nat} (hroom : recordLen + 1 ≤ room)
    (h : (received recordLen (serializeResponse recordLen encode complete records room)).2 = false) :
    (received recordLen (serializeResponse recordLen encode complete records room)).1 ≠ [] := by
  rw [received_serializeResponse hpos hlength (by omega)] at h ⊢
  have hcount : 0 < (room - 1) / recordLen := Nat.div_pos (by omega) hpos
  intro hempty
  rcases List.take_eq_nil_iff.mp (List.map_eq_nil_iff.mp hempty) with hzero | hnil
  · omega
  · rw [hnil] at h
    simp at h
    exact hnonempty h hnil

end Wire

/-! ## The client -/

def attributeKey (r : Buf) : Nat := (u16At r 0).toNat

def commandKey (r : Buf) : Nat := (u8At r 0).toNat

section
variable (store : AttributeStore N) (maxResults : UInt8) (room : Nat)

/-- The answer to Discover Attributes from `start` on, in a buffer of `room` bytes. -/
def answerAttributes (start : Nat) : List Buf × Bool :=
  received 3 (((DiscoverAttributesRequest.parse (DiscoverAttributesRequest.serialize ⟨UInt16.ofNat start, maxResults⟩)).map
    fun request => (processDiscoverDyn store request).serialize room).getD [])

/-- The answer to Discover Attributes Extended. -/
def answerExtended (start : Nat) : List Buf × Bool :=
  received 4 (((DiscoverAttributesRequest.parse (DiscoverAttributesRequest.serialize ⟨UInt16.ofNat start, maxResults⟩)).map
    fun request => (processDiscoverExtendedDyn store request).serialize room).getD [])

/-- The answer to Discover Commands. -/
def answerCommands (all : List UInt8) (start : Nat) : List Buf × Bool :=
  received 1 (((DiscoverCommandsRequest.parse (DiscoverCommandsRequest.serialize ⟨UInt8.ofNat start, maxResults⟩)).map
    fun request => (processDiscoverCommands all request).serialize room).getD [])

end

/-- A client that repeats its request behind the last record receives every record once, in ascending order, and comes
    to an end. -/
def ReceivesAll (key : Buf → Nat) (bound : Nat) (respond : Nat → List Buf × Bool) (records : List Buf) : Prop :=
  ∃ fuel result, enumerate key bound respond fuel 0 = some result ∧
    result.Pairwise (fun a b => key a < key b) ∧ ∀ r, r ∈ result ↔ r ∈ records

section
variable {store : AttributeStore N} {maxResults : UInt8} {room : Nat}

theorem attributeKey_append (id : AttributeId) (l : Buf) : attributeKey (le16 id ++ l) = id.toNat := by
  rw [attributeKey, u16At_le16]

theorem infoAt_id {v : Nat} (hv : v ∈ idKeys store) : (infoAt store v).id.toNat = v := by
  obtain ⟨id, hid, rfl⟩ := List.mem_map.mp hv
  obtain ⟨definition, hfind⟩ := find_isSome_of_mem hid
  rw [infoAt, UInt16.ofNat_toNat, hfind, Option.getD_some]
  obtain ⟨a, ha, rfl⟩ := Option.map_eq_some_iff.mp hfind
  have hsame := List.find?_some ha
  exact congrArg UInt16.toNat (beq_iff_eq.mp hsame)

theorem processDiscoverExtendedDyn_isPage (store : AttributeStore N) (request : DiscoverAttributesRequest) :
    IsPage (fun info => info.id.toNat) (fun info => ∃ v, v ∈ idKeys store ∧ info = infoAt store v)
      request.startId.toNat (processDiscoverExtendedDyn store request).attributes
      (processDiscoverExtendedDyn store request).complete := by
  rw [processDiscoverExtendedDyn, discoverFrom_eq, List.nil_append]
  exact (select_isPage idKeys_lt _ _).map (infoAt store) fun v hv => infoAt_id hv

theorem processDiscoverExtendedDyn_progress {request : DiscoverAttributesRequest} (hmax : 1 ≤ request.maxResults.toNat)
    (h : (processDiscoverExtendedDyn store request).complete = false) :
    (processDiscoverExtendedDyn store request).attributes ≠ [] := by
  rw [processDiscoverExtendedDyn, discoverFrom_eq, List.nil_append] at h ⊢
  have hlimit : 0 < min request.maxResults.toNat MAX_DISCOVER - ([] : List DiscoverAttributeExtendedInfo).length := by
    simp only [List.length_nil, MAX_DISCOVER]
    omega
  intro hempty
  exact select_ne_nil hlimit h (List.map_eq_nil_iff.mp hempty)

theorem find_of_mem (hids : (store.attrs.map (·.definition.id)).Nodup) {a : AttributeValue} (ha : a ∈ store.attrs) :
    store.find a.definition.id = some a.definition := by
  rw [AttributeStore.find]
  cases hfind : store.attrs.find? (·.definition.id == a.definition.id) with
  | none =>
    have := List.find?_eq_none.mp hfind a ha
    simp at this
  | some b =>
    have hid := List.find?_some hfind
    rw [Option.map_some, List.inj_on_of_nodup_map hids (List.mem_of_find?_eq_some hfind) ha (beq_iff_eq.mp hid)]

/-- What the ids of a store say about it. -/
theorem exists_key_iff (hids : (store.attrs.map (·.definition.id)).Nodup) (info : DiscoverAttributeExtendedInfo) :
    (∃ v, v ∈ idKeys store ∧ info = infoAt store v) ↔
      ∃ a ∈ store.attrs.take MAX_ALL_IDS, info = extendedInfo a.definition := by
  have hinfo : ∀ a ∈ store.attrs.take MAX_ALL_IDS, infoAt store a.definition.id.toNat = extendedInfo a.definition := by
    intro a ha
    rw [infoAt, UInt16.ofNat_toNat, find_of_mem hids (List.mem_of_mem_take ha), Option.getD_some]
  have hkeys : idKeys store = (store.attrs.take MAX_ALL_IDS).map (·.definition.id.toNat) := by
    rw [idKeys, AttributeStore.allIds_eq, ← List.map_take, List.map_map]
    rfl
  rw [hkeys]
  constructor
  · rintro ⟨v, hv, rfl⟩
    obtain ⟨a, ha, rfl⟩ := List.mem_map.mp hv
    exact ⟨a, ha, hinfo a ha⟩
  · rintro ⟨a, ha, rfl⟩
    exact ⟨_, List.mem_map_of_mem ha, (hinfo a ha).symm⟩

/-- What both kinds of answers have in common: the selection, with records of `recordLen` bytes. -/
def answerWith (recordLen : Nat) (encode : DiscoverAttributeExtendedInfo → Buf) (store : AttributeStore N) (maxResults : UInt8)
    (room start : Nat) : List Buf × Bool :=
  let response := processDiscoverExtendedDyn store ⟨UInt16.ofNat start, maxResults⟩
  received recordLen (serializeResponse recordLen encode response.complete response.attributes room)

theorem answerExtended_eq : answerExtended store maxResults room = answerWith 4 DiscoverAttributeExtendedInfo.encode store maxResults room := by
  funext start
  rw [answerExtended, DiscoverAttributesRequest.parse_serialize]
  rfl

/-- The record of Discover Attributes is that of the extended answer without the access flags. -/
def encodeShort (info : DiscoverAttributeExtendedInfo) : Buf := DiscoverAttributeInfo.encode ⟨info.id, info.dataType⟩

theorem answerAttributes_eq : answerAttributes store maxResults room = answerWith 3 encodeShort store maxResults room := by
  funext start
  rw [answerAttributes, DiscoverAttributesRequest.parse_serialize, answerWith]
  simp only [Option.map_some, Option.getD_some, DiscoverAttributesResponse.serialize, processDiscoverDyn]
  congr 1
  unfold serializeResponse
  rw [serializeRecords_eq (by decide), serializeRecords_eq (by decide), ← List.map_take, List.flatMap_map, List.length_map]
  rfl

/-- **Every attribute is received exactly when there are at most 32.** -/
theorem receivesAll_iff {recordLen : Nat} {encode : DiscoverAttributeExtendedInfo → Buf} (hpos : 0 < recordLen)
    (hlength : ∀ info, (encode info).length = recordLen) (hkey : ∀ info, attributeKey (encode info) = info.id.toNat)
    (hroom : recordLen + 1 ≤ room) (hmax : 1 ≤ maxResults.toNat) (hids : (store.attrs.map (·.definition.id)).Nodup) :
    ReceivesAll attributeKey 0x10000 (answerWith recordLen encode store maxResults room)
      (store.attrs.map fun a => encode (extendedInfo a.definition)) ↔ store.attrs.length ≤ MAX_ALL_IDS := by
  have hpage : ∀ start, start < 0x10000 → IsPage attributeKey
      (fun r => ∃ info, (∃ v, v ∈ idKeys store ∧ info = infoAt store v) ∧ r = encode info) start
      (answerWith recordLen encode store maxResults room start).1 (answerWith recordLen encode store maxResults room start).2 := by
    intro start hstart
    have h := processDiscoverExtendedDyn_isPage store ⟨UInt16.ofNat start, maxResults⟩
    rw [show (UInt16.ofNat start).toNat = start from UInt16.toNat_ofNat_of_lt' hstart] at h
    exact received_isPage h hpos hlength hkey hroom
  have hbound : ∀ r, (∃ info, (∃ v, v ∈ idKeys store ∧ info = infoAt store v) ∧ r = encode info) → attributeKey r < 0x10000 := by
    rintro _ ⟨info, -, rfl⟩
    rw [hkey]
    exact info.id.toNat_lt
  have hlowest : 0 < 0x10000 := by decide
  obtain ⟨result, hrun, hlisting⟩ := enumerate_listing hbound hpage
    (fun start h => received_progress (processDiscoverExtendedDyn_progress hmax) hpos hlength hroom h) 0x10000
    hlowest (by decide)
  have hmem : ∀ r, r ∈ result ↔ ∃ a ∈ store.attrs.take MAX_ALL_IDS, r = encode (extendedInfo a.definition) := by
    intro r
    rw [hlisting.mem_iff]
    constructor
    · rintro ⟨⟨info, hinfo, rfl⟩, -⟩
      obtain ⟨a, ha, rfl⟩ := (exists_key_iff hids info).mp hinfo
      exact ⟨a, ha, rfl⟩
    · rintro ⟨a, ha, rfl⟩
      exact ⟨⟨_, (exists_key_iff hids _).mpr ⟨a, ha, rfl⟩, rfl⟩, Nat.zero_le _⟩
  constructor
  · rintro ⟨fuel, result', hrun', -, hall⟩
    obtain rfl := enumerate_unique hrun hrun'
    by_contra hlong
    -- the attribute behind the first 32
    have hin : MAX_ALL_IDS < store.attrs.length := Nat.not_le.mp hlong
    have hdrop : store.attrs[MAX_ALL_IDS] ∈ store.attrs.drop MAX_ALL_IDS := by
      rw [List.drop_eq_getElem_cons hin]
      exact List.mem_cons_self
    obtain ⟨a, ha, hsame⟩ := (hmem _).mp ((hall _).mpr (List.mem_map_of_mem (List.mem_of_mem_drop hdrop)))
    have hid := congrArg attributeKey hsame
    rw [hkey, hkey] at hid
    rw [← List.take_append_drop MAX_ALL_IDS store.attrs, List.map_append] at hids
    exact (List.nodup_append.mp hids).2.2 _ (List.mem_map_of_mem ha) _ (List.mem_map_of_mem hdrop) (UInt16.toNat_inj.mp hid).symm
  · intro hshort
    refine ⟨_, result, hrun, hlisting.ascending, fun r => ?_⟩
    rw [hmem, List.take_of_length_le hshort, List.mem_map]
    exact exists_congr fun a => and_congr_right fun _ => eq_comm

/-- **Every command is received.** -/
theorem receivesAll_commands (all : List UInt8) (hmax : 1 ≤ maxResults.toNat) (hroom : 2 ≤ room) :
    ReceivesAll commandKey 0x100 (answerCommands maxResults room all) (all.map fun c => [c]) := by
  have hkeys : ∀ v ∈ all.map UInt8.toNat, v < 0x100 := by
    intro v hv
    obtain ⟨c, -, rfl⟩ := List.mem_map.mp hv
    exact c.toNat_lt
  have hanswer : ∀ start, answerCommands maxResults room all start = received 1 (serializeResponse 1 (fun c => [c])
      (processDiscoverCommands all ⟨UInt8.ofNat start, maxResults⟩).complete
      (processDiscoverCommands all ⟨UInt8.ofNat start, maxResults⟩).commandIds room) := by
    intro start
    rw [answerCommands, DiscoverCommandsRequest.parse_serialize, Option.map_some, Option.getD_some,
      DiscoverCommandsResponse.serialize_eq]
  have hselect : ∀ request : DiscoverCommandsRequest, IsPage UInt8.toNat
      (fun c => ∃ v, v ∈ all.map UInt8.toNat ∧ c = UInt8.ofNat v) request.startCommandId.toNat
      (processDiscoverCommands all request).commandIds (processDiscoverCommands all request).complete := by
    intro request
    rw [processDiscoverCommands, discoverCommandsFrom_eq, List.nil_append]
    exact (select_isPage hkeys _ _).map UInt8.ofNat fun v hv => UInt8.toNat_ofNat_of_lt' (hkeys v hv)
  have hnonempty : ∀ request : DiscoverCommandsRequest, 1 ≤ request.maxResults.toNat →
      (processDiscoverCommands all request).complete = false → (processDiscoverCommands all request).commandIds ≠ [] := by
    intro request hlimit h hempty
    rw [processDiscoverCommands, discoverCommandsFrom_eq, List.nil_append] at h hempty
    exact select_ne_nil (by simp only [List.length_nil, MAX_DISCOVER_COMMANDS]; omega) h (List.map_eq_nil_iff.mp hempty)
  have hpage : ∀ start, start < 0x100 → IsPage commandKey
      (fun r => ∃ c, (∃ v, v ∈ all.map UInt8.toNat ∧ c = UInt8.ofNat v) ∧ r = [c]) start
      (answerCommands maxResults room all start).1 (answerCommands maxResults room all start).2 := by
    intro start hstart
    have h := hselect ⟨UInt8.ofNat start, maxResults⟩
    rw [show (UInt8.ofNat start).toNat = start from UInt8.toNat_ofNat_of_lt' hstart] at h
    rw [hanswer]
    exact received_isPage h Nat.one_pos (fun _ => rfl) (fun _ => rfl) hroom
  have hbound : ∀ r, (∃ c, (∃ v, v ∈ all.map UInt8.toNat ∧ c = UInt8.ofNat v) ∧ r = [c]) → commandKey r < 0x100 := by
    rintro _ ⟨c, -, rfl⟩
    exact c.toNat_lt
  have hprogress : ∀ start, (answerCommands maxResults room all start).2 = false →
      (answerCommands maxResults room all start).1 ≠ [] := by
    intro start h
    rw [hanswer] at h ⊢
    exact received_progress (hnonempty _ hmax) Nat.one_pos (fun _ => rfl) hroom h
  have hlowest : 0 < 0x100 := by decide
  obtain ⟨result, hrun, hlisting⟩ := enumerate_listing hbound hpage hprogress 0x100 hlowest (by decide)
  refine ⟨_, result, hrun, hlisting.ascending, fun r => ?_⟩
  rw [hlisting.mem_iff, List.mem_map]
  constructor
  · rintro ⟨⟨c, ⟨v, hv, rfl⟩, rfl⟩, -⟩
    obtain ⟨d, hd, rfl⟩ := List.mem_map.mp hv
    exact ⟨d, hd, by rw [UInt8.ofNat_toNat]⟩
  · rintro ⟨c, hc, rfl⟩
    exact ⟨⟨c, ⟨c.toNat, List.mem_map_of_mem hc, UInt8.ofNat_toNat.symm⟩, rfl⟩, Nat.zero_le _⟩

theorem attributes_received_iff (hmax : 1 ≤ maxResults.toNat) (hids : (store.attrs.map (·.definition.id)).Nodup)
    (hroom : 4 ≤ room) :
    ReceivesAll attributeKey 0x10000 (answerAttributes store maxResults room)
      (store.attrs.map fun a => encodeShort (extendedInfo a.definition)) ↔ store.attrs.length ≤ MAX_ALL_IDS := by
  rw [answerAttributes_eq]
  exact receivesAll_iff (by decide) (fun _ => rfl) (fun info => attributeKey_append info.id _) hroom hmax hids

/-- Repeated requests receive every attribute of a store with distinct ids, once and in ascending order, exactly when
    there are at most 32; and every command of any list. -/
theorem discovery_complete_iff (store : AttributeStore N) (maxResults : UInt8) (room : Nat)
    (hids : (store.attrs.map (·.definition.id)).Nodup) (hmax : 1 ≤ maxResults.toNat) :
    (4 ≤ room →
      (ReceivesAll attributeKey 0x10000 (answerAttributes store maxResults room)
        (store.attrs.map fun a => encodeShort (extendedInfo a.definition)) ↔ store.attrs.length ≤ MAX_ALL_IDS)) ∧
    (5 ≤ room →
      (ReceivesAll attributeKey 0x10000 (answerExtended store maxResults room)
        (store.attrs.map fun a => (extendedInfo a.definition).encode) ↔ store.attrs.length ≤ MAX_ALL_IDS)) ∧
    (2 ≤ room → ∀ all : List UInt8,
      ReceivesAll commandKey 0x100 (answerCommands maxResults room all) (all.map fun c => [c])) := by
  refine ⟨attributes_received_iff hmax hids, fun hroom => ?_, fun hroom all => receivesAll_commands all hmax hroom⟩
  rw [answerExtended_eq]
  exact receivesAll_iff (by decide) (fun _ => rfl) (fun info => attributeKey_append info.id _) hroom hmax hids

end

/-! ## A large store -/

/-- A store with the attributes `0 … n - 1`. -/
def countedStore (n : Nat) : AttributeStore n where
  attrs := (List.range n).map fun i => ⟨⟨UInt16.ofNat i, .u8, .readOnly⟩, .u8 0⟩
  room := by rw [List.length_map, List.length_range]

/-- With two attributes, one at a time, all are received. -/
theorem two_attributes_received : ReceivesAll attributeKey 0x10000 (answerAttributes (countedStore 2) 1 4)
    ((countedStore 2).attrs.map fun a => encodeShort (extendedInfo a.definition)) :=
  ((discovery_complete_iff (countedStore 2) 1 4 (by decide) (by decide)).1 (by decide)).mpr (by decide)

/-- With 33 attributes, the last one is never received. -/
theorem large_store_incomplete : ¬ ReceivesAll attributeKey 0x10000 (answerAttributes (countedStore 33) 255 80)
    ((countedStore 33).attrs.map fun a => encodeShort (extendedInfo a.definition)) := by
  intro h
  have hfew := (attributes_received_iff (by decide) (by decide +kernel) (by decide)).mp h
  exact absurd hfew (by decide)

end Zigbee.Zcl
