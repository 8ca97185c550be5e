import Zigbee.Lib.Crash
import Zigbee.Lib.KeyValueLog
import Zigbee.Lib.NorFlash
import Zigbee.Lib.SnapshotRecord

/-!
# The log-structured NV store

Model of `LogStructuredNv` of `zigbee-runtime/src/log_nv.rs`.  One of two flash pages is active and
takes items one behind the other; when it is full, the latest value of every item is copied to the other
page, whose header is committed last, and the old page is erased.  A page without a header is read from
its first byte on.

* `pageState`, `scanItems`, `findLatest` — what is read from a page.
* `chooseActive`, `new` — the page that a boot takes up.
* `appendItem`, `compact`, `write`, `delete` — the operations.
* `Page`, `Holds` — what a page reachable by them holds; `Holds.readItem` — reads return the map of its
  items.
-/

namespace Zigbee.Runtime.LogNv

open Bytes NorFlash Crash Crash.Prog SnapshotRecord KeyValueLog

def ITEM_MAGIC : UInt16 := 0xA55A
def HEADER_SIZE : Nat := 8
def MAX_ITEM_SIZE : Nat := 128
def PAGE_HEADER_SIZE : Nat := 16
def PAGE_MAGIC : Buf := [0x4C, 0x4E, 0x56, 0x31]
def PAGE_COMMIT : Buf := [0x43, 0x4D, 0x49, 0x54]
/-- Capacity of `seen_ids`. -/
def MAX_SEEN_IDS : Nat := 32

inductive NvItemId where
  | nwkPanId | nwkChannel | nwkShortAddress | nwkExtendedPanId | nwkIeeeAddress | nwkKey | nwkKeySeqNum
  | nwkFrameCounter | nwkDepth | nwkParentAddress | nwkUpdateId
  | apsTrustCenterAddress | apsLinkKey | apsBindingTable | apsGroupTable
  | bdbNodeIsOnNetwork | bdbCommissioningMode | bdbPrimaryChannelSet | bdbSecondaryChannelSet
  | bdbCommissioningGroupId
  | appEndpoint1 | appEndpoint2 | appEndpoint3 | appCustomBase
  deriving DecidableEq, Repr

namespace NvItemId

/-- `id as u16` -/
def toU16 : NvItemId → UInt16
  | nwkPanId => 0x0001
  | nwkChannel => 0x0002
  | nwkShortAddress => 0x0003
  | nwkExtendedPanId => 0x0004
  | nwkIeeeAddress => 0x0005
  | nwkKey => 0x0006
  | nwkKeySeqNum => 0x0007
  | nwkFrameCounter => 0x0008
  | nwkDepth => 0x0009
  | nwkParentAddress => 0x000A
  | nwkUpdateId => 0x000B
  | apsTrustCenterAddress => 0x0020
  | apsLinkKey => 0x0021
  | apsBindingTable => 0x0022
  | apsGroupTable => 0x0023
  | bdbNodeIsOnNetwork => 0x0040
  | bdbCommissioningMode => 0x0041
  | bdbPrimaryChannelSet => 0x0042
  | bdbSecondaryChannelSet => 0x0043
  | bdbCommissioningGroupId => 0x0044
  | appEndpoint1 => 0x0100
  | appEndpoint2 => 0x0101
  | appEndpoint3 => 0x0102
  | appCustomBase => 0x0200

def all : List NvItemId :=
  [nwkPanId, nwkChannel, nwkShortAddress, nwkExtendedPanId, nwkIeeeAddress, nwkKey, nwkKeySeqNum, nwkFrameCounter,
    nwkDepth, nwkParentAddress, nwkUpdateId, apsTrustCenterAddress, apsLinkKey, apsBindingTable, apsGroupTable,
    bdbNodeIsOnNetwork, bdbCommissioningMode, bdbPrimaryChannelSet, bdbSecondaryChannelSet, bdbCommissioningGroupId,
    appEndpoint1, appEndpoint2, appEndpoint3, appCustomBase]

theorem mem_all (id : NvItemId) : id ∈ all := by cases id <;> decide

end NvItemId

def rawToNvItemId (raw : UInt16) : Option NvItemId :=
  match NvItemId.all.find? fun id => id.toU16 == raw with
  | some id => some id
  -- `_ if raw >= 0x0200`
  | none => if 0x0200 ≤ raw then some .appCustomBase else none

theorem rawToNvItemId_toU16 (id : NvItemId) : rawToNvItemId id.toU16 = some id := by cases id <;> decide

theorem toU16_injective {id id' : NvItemId} (h : id.toU16 = id'.toU16) : id = id' := by
  have h1 := rawToNvItemId_toU16 id
  rw [h, rawToNvItemId_toU16] at h1
  exact (Option.some.inj h1).symm

inductive NvError where
  | notFound
  | full
  | bufferTooSmall
  | hardwareError
  | corrupt
  deriving DecidableEq, Repr

inductive PageState where
  | empty
  | legacy
  | committed (generation : UInt32)
  | invalid
  deriving DecidableEq, Repr

/-- Flash parameters and the offsets of the two pages. -/
structure Config where
  page : Fin 2 → Nat
  readSize : Nat
  writeSize : Nat
  eraseSize : Nat
  capacity : Nat

/-- The volatile part of a store. -/
structure Nv where
  active : Fin 2
  writeOffset : Nat
  generation : UInt32
  deriving DecidableEq, Repr

/-- `(n + 3) & !3` -/
def align4 (n : Nat) : Nat := (n + 3) / 4 * 4

/-- What an item takes of a page. -/
def recordSize (len : Nat) : Nat := HEADER_SIZE + align4 len

variable (c : Config)

/-- The layouts that `new` accepts. -/
def layoutOk : Bool :=
  decide (c.readSize ≠ 0 ∧ c.writeSize ≠ 0 ∧ c.eraseSize ≠ 0 ∧
    c.readSize ∣ HEADER_SIZE ∧ c.writeSize ∣ HEADER_SIZE ∧ c.readSize ∣ PAGE_HEADER_SIZE ∧
    c.writeSize ∣ PAGE_HEADER_SIZE ∧ c.readSize ∣ 4 ∧ c.writeSize ∣ 4 ∧ c.page 0 ≠ c.page 1 ∧
    c.eraseSize ∣ c.page 0 ∧ c.eraseSize ∣ c.page 1 ∧
    c.page 0 + c.eraseSize ≤ c.capacity ∧ c.page 1 + c.eraseSize ≤ c.capacity)

/-! ## Reading pages -/

/-- What `page_state` makes of the header it has read. -/
def headerState (header : Buf) : PageState :=
  if isErased header then .empty
  else if slice header 0 4 = PAGE_MAGIC ∧ slice header 12 16 = PAGE_COMMIT then
    if u32At header 4 ^^^ u32At header 8 = 0xFFFFFFFF then .committed (u32At header 4) else .invalid
  else if u16At header 0 = ITEM_MAGIC then .legacy
  else .invalid

def pageState (f : Flash) (page : Nat) : PageState := headerState (read f page PAGE_HEADER_SIZE)

def validGeneration : PageState → Option UInt32
  | .legacy => some 0
  | .committed generation => some generation
  | .empty | .invalid => none

def isNewerGeneration (candidate current : UInt32) : Bool := candidate != current && candidate - current < 0x80000000

def pageDataStart (f : Flash) (page : Nat) : Except NvError Nat :=
  match pageState f page with
  | .committed _ => .ok PAGE_HEADER_SIZE
  | .empty | .legacy => .ok 0
  | .invalid => .error .corrupt

/-- The loop over the items of a page that the searches share: `visit` is given the offset, raw
    identifier and length of each.  It stops at the first header without the magic, and returns where. -/
def scanItems {α : Type} (f : Flash) (page : Nat) (visit : α → Nat → UInt16 → Nat → Except NvError α) :
    Nat → Nat → α → Except NvError (α × Nat)
  | 0, offset, acc => .ok (acc, offset)
  | fuel + 1, offset, acc =>
    if c.eraseSize < offset + HEADER_SIZE then .ok (acc, offset)
    else
      let hdr := read f (page + offset) HEADER_SIZE
      if u16At hdr 0 ≠ ITEM_MAGIC then .ok (acc, offset)
      else
        let len := (u16At hdr 4).toNat
        match visit acc offset (u16At hdr 2) len with
        | .error e => .error e
        | .ok acc =>
          if c.eraseSize < offset + recordSize len then .error .corrupt
          else scanItems f page visit fuel (offset + recordSize len) acc

/-- The loop from the start of a page's data. -/
def scanPage {α : Type} (f : Flash) (page : Nat) (visit : α → Nat → UInt16 → Nat → Except NvError α) (acc : α) :
    Except NvError (α × Nat) :=
  match pageDataStart f page with
  | .error e => .error e
  | .ok start => scanItems c f page visit c.eraseSize start acc

def findWriteOffset (f : Flash) (page : Nat) : Except NvError Nat :=
  (scanPage c f page (fun _ _ _ _ => .ok ()) ()).map (·.2)

/-- One item of `find_latest_entry`. -/
def visitEntry (page : Nat) (id : NvItemId) (found : Option (Nat × Nat)) (offset : Nat) (itemId : UInt16) (len : Nat) :
    Except NvError (Option (Nat × Nat)) :=
  .ok (if itemId = id.toU16 then some (page + (offset + HEADER_SIZE), len) else found)

def findLatestEntry (f : Flash) (page : Nat) (id : NvItemId) : Except NvError (Option (Nat × Nat)) :=
  (scanPage c f page (visitEntry page id) none).map (·.1)

/-- `find_latest` into a buffer of `bufLen` bytes. -/
def findLatest (f : Flash) (page : Nat) (id : NvItemId) (bufLen : Nat) : Except NvError (Option Buf) :=
  match findLatestEntry c f page id with
  | .error e => .error e
  | .ok none => .ok none
  | .ok (some (dataOffset, len)) =>
    if len = 0 then .ok none
    else if MAX_ITEM_SIZE < len then .error .corrupt
    else if bufLen < len then .error .bufferTooSmall
    else .ok (some ((read f dataOffset (align4 len)).take len))

/-- `read` into a buffer of `bufLen` bytes: the bytes that it fills. -/
def readItem (f : Flash) (nv : Nv) (id : NvItemId) (bufLen : Nat) : Except NvError Buf :=
  match findLatest c f (c.page nv.active) id bufLen with
  | .error e => .error e
  | .ok none => .error .notFound
  | .ok (some data) => .ok data

def itemExists (f : Flash) (nv : Nv) (id : NvItemId) : Except NvError Bool :=
  (findLatest c f (c.page nv.active) id MAX_ITEM_SIZE).map (·.isSome)

def itemLength (f : Flash) (nv : Nv) (id : NvItemId) : Except NvError Nat :=
  match findLatestEntry c f (c.page nv.active) id with
  | .error e => .error e
  | .ok none => .error .notFound
  | .ok (some (_, len)) => if len ≠ 0 then .ok len else .error .notFound

/-! ## Operations -/

/-- The bytes that `append_item_to_active` writes. -/
def encodeItem (id : NvItemId) (data : Buf) : Buf :=
  le16 ITEM_MAGIC ++ (le16 id.toU16 ++ (le16 (UInt16.ofNat data.length) ++ ([0, 0] ++
    (data ++ blank (align4 data.length - data.length)))))

def flashWrite (address : Nat) (data : Buf) : Prog Flash Nv NvError Unit :=
  command .hardwareError fun f => program f address data

def erasePage (page : Fin 2) : Prog Flash Nv NvError Unit :=
  command .hardwareError fun f => erase f (c.page page) (c.page page + c.eraseSize)

def commitPage (page : Fin 2) (generation : UInt32) : Prog Flash Nv NvError Unit := do
  flashWrite (c.page page) (PAGE_MAGIC ++ (le32 generation ++ le32 (~~~generation)))
  flashWrite (c.page page + 12) PAGE_COMMIT

def appendItemToActive (id : NvItemId) (data : Buf) : Prog Flash Nv NvError Unit := do
  let nv ← getRam
  if c.eraseSize < nv.writeOffset + recordSize data.length then fail .full
  else do
    flashWrite (c.page nv.active + nv.writeOffset) (encodeItem id data)
    modifyRam fun nv => { nv with writeOffset := nv.writeOffset + recordSize data.length }

/-- One item of `compact`'s first loop. -/
def visitSeen (seen : List UInt16) (_ : Nat) (itemId : UInt16) (_ : Nat) : Except NvError (List UInt16) :=
  if seen.contains itemId then .ok seen
  else if seen.length < MAX_SEEN_IDS then .ok (seen ++ [itemId])
  else .error .full

/-- One item of `compact`'s second loop. -/
def copyItem (old scratch : Fin 2) (itemId : UInt16) : Prog Flash Nv NvError Unit := do
  modifyRam fun nv => { nv with active := old }
  match rawToNvItemId itemId with
  | none => modifyRam fun nv => { nv with active := scratch }
  | some id => do
    let f ← getDisk
    let latest ← ofExcept (findLatest c f (c.page old) id MAX_ITEM_SIZE)
    modifyRam fun nv => { nv with active := scratch }
    match latest with
    | none => pure ()
    | some data => appendItemToActive c id data

def copyItems (old scratch : Fin 2) : List UInt16 → Prog Flash Nv NvError Unit
  | [] => pure ()
  | itemId :: rest => do
    copyItem c old scratch itemId
    copyItems old scratch rest

/-- The generation of the page to come. -/
def nextGeneration (generation : UInt32) : UInt32 := if generation + 1 = 0 then 1 else generation + 1

/-- `m`, or the old state and its error. -/
def orRestore (nv : Nv) (m : Prog Flash Nv NvError Unit) : Prog Flash Nv NvError Unit := do
  match ← attempt m with
  | .ok () => pure ()
  | .error e =>
    modifyRam fun _ => nv
    fail e

/-- `compact` behind its scan: copy, commit, erase the old page. -/
def compactSeen (nv : Nv) (seen : List UInt16) : Prog Flash Nv NvError Unit := do
  let scratch := 1 - nv.active
  modifyRam fun nv => { nv with active := scratch, writeOffset := PAGE_HEADER_SIZE }
  orRestore nv (copyItems c nv.active scratch seen)
  modifyRam fun nv => { nv with active := scratch }
  orRestore nv (commitPage c scratch (nextGeneration nv.generation))
  modifyRam fun now => { now with generation := nextGeneration nv.generation }
  -- an error leaves the new page active
  erasePage c nv.active

def compact : Prog Flash Nv NvError Unit := do
  let nv ← getRam
  erasePage c (1 - nv.active)
  let f ← getDisk
  let seen ← ofExcept ((scanPage c f (c.page nv.active) visitSeen []).map (·.1))
  compactSeen c nv seen

/-- The compaction in front of an item that does not fit. -/
def makeRoom (len : Nat) : Prog Flash Nv NvError Unit := do
  let nv ← getRam
  if c.eraseSize < nv.writeOffset + recordSize len then compact c else pure ()

def appendItem (id : NvItemId) (data : Buf) : Prog Flash Nv NvError Unit :=
  if MAX_ITEM_SIZE < data.length then fail .bufferTooSmall
  else do
    makeRoom c data.length
    appendItemToActive c id data

def write (id : NvItemId) (data : Buf) : Prog Flash Nv NvError Unit := appendItem c id data

def delete (id : NvItemId) : Prog Flash Nv NvError Unit := appendItem c id []

/-- The page that `init` takes up, and what it erases. -/
def chooseActive : Prog Flash Nv NvError Unit := do
  let f ← getDisk
  let aState := pageState f (c.page 0)
  let bState := pageState f (c.page 1)
  match validGeneration aState, validGeneration bState with
  | some a, some b =>
    if isNewerGeneration b a then do
      modifyRam fun nv => { nv with active := 1, generation := b }
      erasePage c 0
    else do
      modifyRam fun nv => { nv with active := 0, generation := a }
      erasePage c 1
  | some a, none => do
    modifyRam fun nv => { nv with active := 0, generation := a }
    if bState = .invalid then erasePage c 1 else pure ()
  | none, some b => do
    modifyRam fun nv => { nv with active := 1, generation := b }
    if aState = .invalid then erasePage c 0 else pure ()
  | none, none =>
    if aState = .empty ∧ bState = .empty then modifyRam fun nv => { nv with active := 0, generation := 0 }
    else fail .corrupt

def init : Prog Flash Nv NvError Unit := do
  chooseActive c
  let f ← getDisk
  let nv ← getRam
  let offset ← ofExcept (findWriteOffset c f (c.page nv.active))
  modifyRam fun nv => { nv with writeOffset := offset }

/-- `new`, run with the fields that the source initialises. -/
def new : Prog Flash Nv NvError Unit :=
  if layoutOk c = false then fail .hardwareError
  else do
    modifyRam fun _ => ⟨0, 0, 0⟩
    init c

/-! ## Page images -/

abbrev Item := NvItemId × Buf

def encodeItems (items : List Item) : Buf := items.flatMap fun item => encodeItem item.1 item.2

/-- What precedes the items of a page: nothing, a header yet to be written, one without its commit word,
    a whole one. -/
inductive Heading where
  | plain
  | unwritten
  | half (generation : UInt32)
  | committed (generation : UInt32)

def Heading.bytes : Heading → Buf
  | .plain => []
  | .unwritten => blank PAGE_HEADER_SIZE
  | .half g => PAGE_MAGIC ++ (le32 g ++ (le32 (~~~g) ++ blank 4))
  | .committed g => PAGE_MAGIC ++ (le32 g ++ (le32 (~~~g) ++ PAGE_COMMIT))

structure Page where
  heading : Heading
  items : List Item

namespace Page

def used (p : Page) : Nat := p.heading.bytes.length + (encodeItems p.items).length

def render (size : Nat) (p : Page) : Buf := p.heading.bytes ++ (encodeItems p.items ++ blank (size - p.used))

def state (p : Page) : PageState :=
  match p.heading with
  | .plain => if p.items = [] then .empty else .legacy
  | .unwritten => .empty
  | .half _ => .invalid
  | .committed g => .committed g

/-- The map of the items; an empty value deletes. -/
def contents (p : Page) : Map NvItemId Buf :=
  replay (p.items.map fun item => (item.1, if item.2 = [] then none else some item.2))

/-- The page with one item more. -/
def push (p : Page) (id : NvItemId) (data : Buf) : Page := { p with items := p.items ++ [(id, data)] }

end Page

/-- The flash page holds `p`. -/
structure Holds (f : Flash) (page : Fin 2) (p : Page) : Prop where
  content : read f (c.page page) c.eraseSize = p.render c.eraseSize
  fits : p.used ≤ c.eraseSize
  short : ∀ item ∈ p.items, item.2.length ≤ MAX_ITEM_SIZE

theorem le_align4 (n : Nat) : n ≤ align4 n := by
  unfold align4
  omega

@[simp] theorem encodeItem_length (id : NvItemId) (data : Buf) : (encodeItem id data).length = recordSize data.length := by
  have := le_align4 data.length
  simp only [encodeItem, List.length_append, le16_length, List.length_cons, List.length_nil, blank_length, recordSize, HEADER_SIZE]
  omega

@[simp] theorem encodeItems_nil : encodeItems [] = [] := rfl

@[simp] theorem encodeItems_cons (item : Item) (items : List Item) :
    encodeItems (item :: items) = encodeItem item.1 item.2 ++ encodeItems items := rfl

theorem encodeItems_append (items items' : List Item) :
    encodeItems (items ++ items') = encodeItems items ++ encodeItems items' := List.flatMap_append

theorem push_used (p : Page) (id : NvItemId) (data : Buf) : (p.push id data).used = p.used + recordSize data.length := by
  unfold Page.used Page.push
  simp only [encodeItems_append, encodeItems_cons, encodeItems_nil, List.append_nil, List.length_append, encodeItem_length]
  omega

theorem push_contents (p : Page) (id : NvItemId) (data : Buf) :
    (p.push id data).contents = Function.update p.contents id (if data = [] then none else some data) := by
  unfold Page.contents Page.push
  rw [List.map_append, List.map_singleton, replay_snoc]

/-- Every item takes room. -/
theorem items_length_le (items : List Item) : items.length ≤ (encodeItems items).length := by
  induction items with
  | nil => exact Nat.le_refl _
  | cons item items ih =>
    rw [encodeItems_cons, List.length_append, List.length_cons, encodeItem_length]
    unfold recordSize HEADER_SIZE
    omega

/-! ## The state of a page -/

theorem headerState_item (rest : Buf) : headerState (0x5A :: 0xA5 :: rest) = .legacy := by
  unfold headerState
  rw [if_neg (by simp [isErased]), if_neg (by simp [slice, PAGE_MAGIC]), if_pos (by simp [u16At, u8At, ITEM_MAGIC])]

theorem headerState_half (g : UInt32) : headerState (Heading.half g).bytes = .invalid := by
  have hcommit : slice (Heading.half g).bytes 12 16 = blank 4 := rfl
  have hfirst : u16At (Heading.half g).bytes 0 = 0x4E4C := by
    unfold u16At
    rw [show u8At (Heading.half g).bytes 0 = 0x4C from rfl, show u8At (Heading.half g).bytes (0 + 1) = 0x4E from rfl]
    decide
  unfold headerState
  rw [hcommit, hfirst, if_neg (by simp [Heading.bytes, isErased, PAGE_MAGIC]), if_neg (fun h => absurd h.2 (by decide)),
    if_neg (by decide)]

theorem headerState_committed (g : UInt32) : headerState (Heading.committed g).bytes = .committed g := by
  have hmagic : slice (Heading.committed g).bytes 0 4 = PAGE_MAGIC := rfl
  have hcommit : slice (Heading.committed g).bytes 12 16 = PAGE_COMMIT := rfl
  have hgeneration : u32At (Heading.committed g).bytes 4 = g := by
    rw [Heading.bytes, u32At_append_right (by decide)]
    exact u32At_le32 g _
  have hinverse : u32At (Heading.committed g).bytes 8 = ~~~g := by
    rw [Heading.bytes, u32At_append_right (by decide), u32At_append_right (by simp [PAGE_MAGIC])]
    exact u32At_le32 _ _
  have hxor : g ^^^ ~~~g = 0xFFFFFFFF := by
    apply UInt32.toBitVec_inj.mp
    rw [UInt32.toBitVec_xor, UInt32.toBitVec_not, ← BitVec.not_xor_right, BitVec.xor_self]
    rfl
  unfold headerState
  rw [hmagic, hcommit, hgeneration, hinverse, hxor, if_neg (by simp [Heading.bytes, isErased, PAGE_MAGIC]),
    if_pos ⟨rfl, rfl⟩, if_pos rfl]

variable {c}

theorem Holds.state {f : Flash} {page : Fin 2} {p : Page} (h : Holds c f page p) (hsize : PAGE_HEADER_SIZE ≤ c.eraseSize) :
    pageState f (c.page page) = p.state := by
  have hheader : read f (c.page page) PAGE_HEADER_SIZE = slice (p.render c.eraseSize) 0 PAGE_HEADER_SIZE := by
    rw [← h.content]
    exact read_slice f (show 0 + PAGE_HEADER_SIZE ≤ c.eraseSize by omega)
  unfold pageState
  rw [hheader]
  obtain ⟨heading, items⟩ := p
  unfold Page.render Page.state
  cases heading with
  | plain =>
    cases items with
    | nil =>
      show headerState (slice (blank c.eraseSize) 0 PAGE_HEADER_SIZE) = .empty
      rw [slice_blank hsize]
      decide
    | cons item items => exact headerState_item _
  | unwritten =>
    rw [slice_init (show PAGE_HEADER_SIZE = Heading.unwritten.bytes.length from rfl)]
    show headerState Heading.unwritten.bytes = .empty
    decide
  | half g =>
    rw [slice_init (show PAGE_HEADER_SIZE = (Heading.half g).bytes.length from rfl)]
    exact headerState_half g
  | committed g =>
    rw [slice_init (show PAGE_HEADER_SIZE = (Heading.committed g).bytes.length from rfl)]
    exact headerState_committed g

theorem Holds.start {f : Flash} {page : Fin 2} {p : Page} (h : Holds c f page p) (hsize : PAGE_HEADER_SIZE ≤ c.eraseSize)
    (hready : p.heading = .plain ∨ ∃ g, p.heading = .committed g) :
    pageDataStart f (c.page page) = .ok p.heading.bytes.length := by
  unfold pageDataStart
  rw [h.state hsize]
  obtain ⟨heading, items⟩ := p
  obtain rfl | ⟨g, rfl⟩ := hready
  · cases items <;> rfl
  · rfl

/-! ## Scanning a page -/

variable {items : List Item}

section

variable {α : Type} {f : Flash} {address : Nat} {visit : α → Nat → UInt16 → Nat → Except NvError α}

/-- `visit` over a list of items, the first of which stands at `offset`. -/
def visitItems (visit : α → Nat → UInt16 → Nat → Except NvError α) : Nat → List Item → α → Except NvError α
  | _, [], acc => .ok acc
  | offset, item :: items, acc =>
    match visit acc offset item.1.toU16 item.2.length with
    | .error e => .error e
    | .ok acc => visitItems visit (offset + recordSize item.2.length) items acc

/-- The header of an item. -/
theorem item_header (id : NvItemId) {data : Buf} (hdata : data.length ≤ MAX_ITEM_SIZE) (rest : Buf) :
    let hdr := slice (encodeItem id data ++ rest) 0 HEADER_SIZE
    u16At hdr 0 = ITEM_MAGIC ∧ u16At hdr 2 = id.toU16 ∧ (u16At hdr 4).toNat = data.length := by
  have hhdr : slice (encodeItem id data ++ rest) 0 HEADER_SIZE =
      le16 ITEM_MAGIC ++ (le16 id.toU16 ++ (le16 (UInt16.ofNat data.length) ++ [0, 0])) := rfl
  rw [hhdr]
  refine ⟨u16At_le16 _ _, ?_, ?_⟩
  · rw [u16At_append_right (by simp), le16_length]
    exact u16At_le16 _ _
  · rw [u16At_append_right (by simp), le16_length, u16At_append_right (by simp), le16_length]
    rw [u16At_le16]
    unfold MAX_ITEM_SIZE at hdata
    exact UInt16.toNat_ofNat_of_lt' (show data.length < 2 ^ 16 by omega)

/-- The loop over items goes on behind them. -/
theorem scanItems_append {pre rest : Buf} {fuel : Nat} (hcontent : read f address c.eraseSize = pre ++ (encodeItems items ++ rest))
    (hshort : ∀ item ∈ items, item.2.length ≤ MAX_ITEM_SIZE) (acc : α) :
    scanItems c f address visit (items.length + fuel) pre.length acc =
      match visitItems visit pre.length items acc with
      | .error e => .error e
      | .ok acc => scanItems c f address visit fuel (pre.length + (encodeItems items).length) acc := by
  induction items generalizing pre acc with
  | nil => simp [visitItems]
  | cons item items ih =>
    obtain ⟨id, data⟩ := item
    have hdata : data.length ≤ MAX_ITEM_SIZE := hshort (id, data) List.mem_cons_self
    rw [encodeItems_cons, List.append_assoc] at hcontent
    have hlen := congrArg List.length hcontent
    simp only [read_length, List.length_append, encodeItem_length] at hlen
    have hroom : recordSize data.length = HEADER_SIZE + align4 data.length := rfl
    have hheader : read f (address + pre.length) HEADER_SIZE = slice (encodeItem id data ++ (encodeItems items ++ rest)) 0 HEADER_SIZE := by
      rw [read_slice f (show pre.length + HEADER_SIZE ≤ c.eraseSize by omega), hcontent, slice_append_right (Nat.le_refl _),
        Nat.sub_self, Nat.add_sub_cancel_left]
    obtain ⟨hmagic, hid, hsize⟩ := item_header id hdata (encodeItems items ++ rest)
    rw [List.length_cons, show items.length + 1 + fuel = (items.length + fuel) + 1 by omega, scanItems, visitItems,
      if_neg (by omega)]
    simp only [hheader, hmagic, hid, hsize, ne_eq, not_true_eq_false, if_false]
    cases visit acc pre.length id.toU16 data.length with
    | error e => rfl
    | ok acc' =>
      simp only
      rw [if_neg (by omega)]
      have hpre : (pre ++ encodeItem id data).length = pre.length + recordSize data.length := by
        rw [List.length_append, encodeItem_length]
      rw [← hpre, ih (by rw [hcontent, List.append_assoc]) (fun item hitem => hshort item (List.mem_cons_of_mem _ hitem)), hpre]
      simp only [encodeItems_cons, List.length_append, encodeItem_length, Nat.add_assoc]

/-- **The loop visits the items of a page**, and ends behind them. -/
theorem scanItems_eq {pre : Buf} {n : Nat} (hcontent : read f address c.eraseSize = pre ++ (encodeItems items ++ blank n))
    (hshort : ∀ item ∈ items, item.2.length ≤ MAX_ITEM_SIZE) {fuel : Nat} (hfuel : items.length ≤ fuel) (acc : α) :
    scanItems c f address visit fuel pre.length acc =
      (visitItems visit pre.length items acc).map fun acc => (acc, pre.length + (encodeItems items).length) := by
  obtain ⟨left, rfl⟩ := Nat.exists_eq_add_of_le hfuel
  rw [scanItems_append hcontent hshort]
  cases visitItems visit pre.length items acc with
  | error e => rfl
  | ok acc =>
    rw [← List.append_assoc] at hcontent
    rw [← List.length_append]
    generalize pre ++ encodeItems items = pre at hcontent
    cases left with
    | zero => rfl
    | succ left =>
      unfold scanItems
      dsimp only
      by_cases hend : c.eraseSize < pre.length + HEADER_SIZE
      · exact if_pos hend
      · have hblank : read f (address + pre.length) HEADER_SIZE = blank HEADER_SIZE := by
          have hlen := congrArg List.length hcontent
          simp only [read_length, List.length_append, blank_length] at hlen
          rw [read_slice f (show pre.length + HEADER_SIZE ≤ c.eraseSize by omega), hcontent,
            slice_append_right (Nat.le_refl _), Nat.sub_self, Nat.add_sub_cancel_left, slice_blank (by omega), Nat.sub_zero]
        rw [if_neg hend, hblank]
        exact if_pos (by decide)

/-- The loop over a page that is read from its data on. -/
theorem Holds.scan {page : Fin 2} {p : Page} (h : Holds c f page p) (hsize : PAGE_HEADER_SIZE ≤ c.eraseSize)
    (hready : p.heading = .plain ∨ ∃ g, p.heading = .committed g) (acc : α) :
    scanPage c f (c.page page) visit acc =
      (visitItems visit p.heading.bytes.length p.items acc).map fun acc => (acc, p.used) := by
  unfold scanPage
  rw [h.start hsize hready]
  refine scanItems_eq h.content h.short ?_ acc
  have hitems := items_length_le p.items
  have hfits := h.fits
  unfold Page.used at hfits
  omega

theorem visitItems_append (offset : Nat) (items items' : List Item) (acc : α) :
    visitItems visit offset (items ++ items') acc =
      match visitItems visit offset items acc with
      | .error e => .error e
      | .ok acc => visitItems visit (offset + (encodeItems items).length) items' acc := by
  induction items generalizing offset acc with
  | nil => rfl
  | cons item items ih =>
    rw [List.cons_append, visitItems, visitItems]
    cases visit acc offset item.1.toU16 item.2.length with
    | error e => rfl
    | ok acc' =>
      simp only
      rw [ih, encodeItems_cons, List.length_append, encodeItem_length, Nat.add_assoc]

end

/-! ## Reading items -/

/-- The data of the last item `id`. -/
def latest (items : List Item) (id : NvItemId) : Option Buf :=
  items.foldl (fun found item => if item.1 = id then some item.2 else found) none

theorem latest_snoc (items : List Item) (item : Item) (id : NvItemId) :
    latest (items ++ [item]) id = if item.1 = id then some item.2 else latest items id := by
  unfold latest
  rw [List.foldl_append]
  rfl

theorem contents_apply (p : Page) (id : NvItemId) :
    p.contents id = (latest p.items id).bind fun data => if data = [] then none else some data := by
  obtain ⟨heading, items⟩ := p
  unfold Page.contents
  induction items using List.reverseRecOn with
  | nil => rfl
  | append_singleton items item ih =>
    rw [List.map_append, List.map_singleton, replay_snoc, latest_snoc]
    by_cases hid : item.1 = id
    · subst hid
      rw [if_pos rfl, Function.update_self]
      rfl
    · rw [if_neg hid, Function.update_of_ne (Ne.symm hid)]
      exact ih

theorem latest_mem {id : NvItemId} {data : Buf} (h : latest items id = some data) : (id, data) ∈ items := by
  induction items using List.reverseRecOn with
  | nil => cases h
  | append_singleton items item ih =>
    rw [latest_snoc] at h
    split at h
    · rename_i hid
      cases h
      rw [← hid]
      exact List.mem_append_right _ (List.mem_singleton.mpr rfl)
    · exact List.mem_append_left _ (ih h)

/-- An address and length at which the flash has the data. -/
def Points (f : Flash) : Option (Nat × Nat) → Option Buf → Prop
  | none, none => True
  | some (address, len), some data => len = data.length ∧ (read f address (align4 len)).take len = data
  | _, _ => False

theorem visitEntry_points {f : Flash} {address : Nat} {pre rest : Buf}
    (hcontent : read f address c.eraseSize = pre ++ (encodeItems items ++ rest)) (id : NvItemId) :
    ∃ found, visitItems (visitEntry address id) pre.length items none = .ok found ∧ Points f found (latest items id) := by
  induction items using List.reverseRecOn generalizing rest with
  | nil => exact ⟨none, rfl, trivial⟩
  | append_singleton items item ih =>
    obtain ⟨id', data⟩ := item
    rw [encodeItems_append, encodeItems_cons, encodeItems_nil, List.append_nil, List.append_assoc] at hcontent
    obtain ⟨found, hfound, hpoints⟩ := ih hcontent
    rw [visitItems_append, hfound, latest_snoc]
    simp only [visitItems, visitEntry]
    by_cases hid : id' = id
    · subst hid
      refine ⟨_, rfl, ?_⟩
      rw [if_pos rfl, if_pos rfl]
      refine ⟨rfl, ?_⟩
      have hlen := congrArg List.length hcontent
      simp only [read_length, List.length_append, encodeItem_length] at hlen
      have hroom : recordSize data.length = HEADER_SIZE + align4 data.length := rfl
      have halign := le_align4 data.length
      rw [read_slice f (show pre.length + (encodeItems items).length + HEADER_SIZE + align4 data.length ≤ c.eraseSize by omega),
        hcontent, ← List.append_assoc, ← List.length_append, slice_append_right (by omega)]
      rw [Nat.add_sub_cancel_left, show (pre ++ encodeItems items).length + HEADER_SIZE + align4 data.length -
        (pre ++ encodeItems items).length = HEADER_SIZE + align4 data.length by omega]
      -- the data stands behind the item's header
      show ((data ++ blank (align4 data.length - data.length) ++ rest).take
        (HEADER_SIZE + align4 data.length - HEADER_SIZE)).take data.length = data
      rw [Nat.add_sub_cancel_left, List.take_take, Nat.min_eq_left halign, List.append_assoc]
      exact List.take_left
    · refine ⟨found, ?_, ?_⟩
      · rw [if_neg fun h => hid (toU16_injective h)]
      · rw [if_neg hid]
        exact hpoints

variable {f : Flash} {page : Fin 2} {p : Page}

theorem Holds.entry (h : Holds c f page p) (hsize : PAGE_HEADER_SIZE ≤ c.eraseSize)
    (hready : p.heading = .plain ∨ ∃ g, p.heading = .committed g) (id : NvItemId) :
    ∃ found, findLatestEntry c f (c.page page) id = .ok found ∧ Points f found (latest p.items id) := by
  obtain ⟨found, hfound, hpoints⟩ := visitEntry_points h.content id
  refine ⟨found, ?_, hpoints⟩
  unfold findLatestEntry
  rw [h.scan hsize hready, hfound]
  rfl

/-- What a search makes of the entry that it has found. -/
theorem findLatest_of_points {address bufLen : Nat} {id : NvItemId} {found : Option (Nat × Nat)} {o : Option Buf}
    (hfound : findLatestEntry c f address id = .ok found) (hpoints : Points f found o)
    (hshort : ∀ data, o = some data → data.length ≤ MAX_ITEM_SIZE) :
    findLatest c f address id bufLen =
      match o.bind fun data => if data = [] then none else some data with
      | none => .ok none
      | some data => if bufLen < data.length then .error .bufferTooSmall else .ok (some data) := by
  unfold findLatest
  rw [hfound]
  cases o with
  | none =>
    cases found with
    | none => rfl
    | some r => exact hpoints.elim
  | some data =>
    cases found with
    | none => exact hpoints.elim
    | some r =>
      obtain ⟨address, len⟩ := r
      obtain ⟨rfl, hread⟩ := hpoints
      rw [Option.bind_some]
      by_cases hdata : data = []
      · rw [if_pos hdata]
        subst hdata
        rfl
      · simp only [List.length_eq_zero_iff, if_neg hdata, if_neg (Nat.not_lt.mpr (hshort data rfl)), hread]

/-- **A search returns what the map of the page has.** -/
theorem Holds.latest (h : Holds c f page p) (hsize : PAGE_HEADER_SIZE ≤ c.eraseSize)
    (hready : p.heading = .plain ∨ ∃ g, p.heading = .committed g) (id : NvItemId) (bufLen : Nat) :
    findLatest c f (c.page page) id bufLen =
      match p.contents id with
      | none => .ok none
      | some data => if bufLen < data.length then .error .bufferTooSmall else .ok (some data) := by
  obtain ⟨found, hfound, hpoints⟩ := h.entry hsize hready id
  rw [findLatest_of_points hfound hpoints fun data hdata => h.short _ (latest_mem hdata), contents_apply]

theorem Holds.readItem (h : Holds c f page p) (hsize : PAGE_HEADER_SIZE ≤ c.eraseSize)
    (hready : p.heading = .plain ∨ ∃ g, p.heading = .committed g) {nv : Nv} (hnv : nv.active = page) (id : NvItemId)
    (bufLen : Nat) :
    readItem c f nv id bufLen =
      match p.contents id with
      | none => .error .notFound
      | some data => if bufLen < data.length then .error .bufferTooSmall else .ok data := by
  unfold LogNv.readItem
  rw [hnv, h.latest hsize hready]
  cases p.contents id with
  | none => rfl
  | some data =>
    by_cases hlen : bufLen < data.length
    · simp only [if_pos hlen]
    · simp only [if_neg hlen]

theorem contents_short (h : Holds c f page p) {id : NvItemId} {data : Buf} (hdata : p.contents id = some data) :
    data ≠ [] ∧ data.length ≤ MAX_ITEM_SIZE := by
  rw [contents_apply] at hdata
  obtain ⟨data', hlatest, heq⟩ := Option.bind_eq_some_iff.mp hdata
  split at heq
  · cases heq
  · rename_i hne
    cases heq
    exact ⟨hne, h.short _ (latest_mem hlatest)⟩

theorem Holds.itemExists (h : Holds c f page p) (hsize : PAGE_HEADER_SIZE ≤ c.eraseSize)
    (hready : p.heading = .plain ∨ ∃ g, p.heading = .committed g) {nv : Nv} (hnv : nv.active = page) (id : NvItemId) :
    itemExists c f nv id = .ok (p.contents id).isSome := by
  unfold LogNv.itemExists
  rw [hnv, h.latest hsize hready]
  cases hc : p.contents id with
  | none => rfl
  | some data => simp only [if_neg (Nat.not_lt.mpr (contents_short h hc).2), Except.map, Option.isSome]

theorem Holds.itemLength (h : Holds c f page p) (hsize : PAGE_HEADER_SIZE ≤ c.eraseSize)
    (hready : p.heading = .plain ∨ ∃ g, p.heading = .committed g) {nv : Nv} (hnv : nv.active = page) (id : NvItemId) :
    itemLength c f nv id =
      match p.contents id with
      | none => .error .notFound
      | some data => .ok data.length := by
  obtain ⟨found, hfound, hpoints⟩ := h.entry hsize hready id
  unfold LogNv.itemLength
  rw [hnv, hfound, contents_apply]
  cases hl : LogNv.latest p.items id with
  | none =>
    rw [hl] at hpoints
    cases found with
    | none => rfl
    | some r => exact hpoints.elim
  | some data =>
    rw [hl] at hpoints
    cases found with
    | none => exact hpoints.elim
    | some r =>
      obtain ⟨address, len⟩ := r
      obtain ⟨rfl, -⟩ := hpoints
      cases data <;> rfl

end Zigbee.Runtime.LogNv
