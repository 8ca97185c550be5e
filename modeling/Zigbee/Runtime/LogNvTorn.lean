import Zigbee.Runtime.LogNvRefinement

/-!
# Torn appends of the log-structured NV store

An append is one program of the flash, which can stop behind any of its words of four bytes.

* `tornAppend` — the flash that it leaves.
* `tornAppend_eq` — behind the header, it is an item whose last bytes are still erased.
* `Usable` — what is asked of the flash: a boot succeeds, the items are there, another one can be written.
* `torn_append_usable_iff` — **when that is so**.
* `torn_length_refused` — a length that is still erased makes `new` refuse the store.
-/

namespace Zigbee.Runtime.LogNv

open Bytes NorFlash Crash Crash.Prog SnapshotRecord KeyValueLog

/-- The flash after the first `words` words of an item have been programmed. -/
def tornAppend (f : Flash) (address : Nat) (id : NvItemId) (data : Buf) (words : Nat) : Flash :=
  program f address ((encodeItem id data).take (4 * words))

/-- What stands in the place of the data then, once the header is whole. -/
def tornData (data : Buf) (words : Nat) : Buf :=
  data.take (4 * (words - 2)) ++ blank (data.length - 4 * (words - 2))

variable (c : Config)

/-- A boot succeeds, the items can be read, and an item that fits behind the others can be written and read. -/
def Usable (f : Flash) (map : Map NvItemId Buf) : Prop :=
  ∃ w, new c ⟨f, ⟨0, 0, 0⟩, []⟩ = .ok () w ∧
    (∀ id data, map id = some data → readItem c w.disk w.ram id MAX_ITEM_SIZE = .ok data) ∧
    ∀ id data, data ≠ [] → data.length ≤ MAX_ITEM_SIZE → w.ram.writeOffset + recordSize data.length ≤ c.eraseSize →
      ∃ w', write c id data ⟨w.disk, w.ram, []⟩ = .ok () w' ∧ readItem c w'.disk w'.ram id MAX_ITEM_SIZE = .ok data

/-- What the item may be of which an append stops behind `words` words. -/
def Bearable (p : Page) (id : NvItemId) (data : Buf) (words : Nat) : Prop :=
  words = 0 ∨ (words = 1 ∧ p.contents id = none ∧ p.used + recordSize 0xFFFF ≤ c.eraseSize) ∨
    (2 ≤ words ∧ (p.contents id = none ∨ p.contents id = some (tornData data words)))

variable {c} {f : Flash} {active : Fin 2} {p q : Page} {id : NvItemId} {data : Buf} {words : Nat}

/-! ## Booting without faults -/

/-- The flash after a boot that may have erased the other page. -/
def booted (c : Config) (f : Flash) (active : Fin 2) (erases : Bool) : Flash :=
  if erases then erase f (c.page (1 - active)) (c.page (1 - active) + c.eraseSize) else f

theorem booted_active (hlayout : layoutOk c = true) (f : Flash) (active : Fin 2) (erases : Bool) :
    read (booted c f active erases) (c.page active) c.eraseSize = read f (c.page active) c.eraseSize := by
  unfold booted
  split
  · exact read_erase_disjoint f (pages_apart hlayout (other_page active).symm).symm
  · rfl

/-- **A boot** is the choice of a page and a scan for its end. -/
theorem new_eq (hlayout : layoutOk c = true) (hp : pageState f (c.page active) = p.state)
    (hq : pageState f (c.page (1 - active)) = q.state) (hready : p.Ready) (hpreferred : Preferred active p q) :
    ∃ erases, new c ⟨f, ⟨0, 0, 0⟩, []⟩ =
      match findWriteOffset c (booted c f active erases) (c.page active) with
      | .ok offset => .ok () ⟨booted c f active erases, ⟨active, offset, p.generation⟩, []⟩
      | .error e => .err e ⟨booted c f active erases, ⟨active, 0, p.generation⟩, []⟩ := by
  obtain ⟨erases, hchoose⟩ := chooseActive_of_states (w := ⟨f, ⟨0, 0, 0⟩, []⟩) hp hq hready hpreferred
  refine ⟨erases, ?_⟩
  have htake : takeUp c active p.generation erases ⟨f, ⟨0, 0, 0⟩, []⟩ =
      .ok () ⟨booted c f active erases, ⟨active, 0, p.generation⟩, []⟩ := by
    cases erases <;> rfl
  have hnew : new c ⟨f, ⟨0, 0, 0⟩, []⟩ = Prog.bind (chooseActive c) (fun _ => do
      let f ← getDisk
      let nv ← getRam
      let offset ← ofExcept (findWriteOffset c f (c.page nv.active))
      modifyRam fun nv => { nv with writeOffset := offset }) ⟨f, ⟨0, 0, 0⟩, []⟩ := by
    unfold new
    rw [if_neg (by simp [hlayout])]
    rfl
  rw [hnew, Prog.bind, hchoose, htake]
  change Prog.bind (Prog.ofExcept (findWriteOffset c (booted c f active erases) (c.page active)))
    (fun offset => (modifyRam fun nv => { nv with writeOffset := offset } : Prog Flash Nv NvError Unit))
    (World.mk (booted c f active erases) (Nv.mk active 0 p.generation) []) = _
  cases findWriteOffset c (booted c f active erases) (c.page active) <;> rfl

/-- A write of an item that fits. -/
theorem write_eq {w : World Flash Nv} (hdata : data.length ≤ MAX_ITEM_SIZE)
    (hroom : w.ram.writeOffset + recordSize data.length ≤ c.eraseSize) :
    write c id data ⟨w.disk, w.ram, []⟩ =
      .ok () ⟨program w.disk (c.page w.ram.active + w.ram.writeOffset) (encodeItem id data),
        { w.ram with writeOffset := w.ram.writeOffset + recordSize data.length }, []⟩ := by
  have hfits : ¬ c.eraseSize < w.ram.writeOffset + recordSize data.length := Nat.not_lt.mpr hroom
  have hmake : makeRoom c data.length ⟨w.disk, w.ram, []⟩ = .ok () ⟨w.disk, w.ram, []⟩ := by
    show (if c.eraseSize < w.ram.writeOffset + recordSize data.length then compact c else pure ()) _ = _
    rw [if_neg hfits]
    rfl
  unfold write appendItem
  rw [if_neg (Nat.not_lt.mpr hdata)]
  show Prog.bind (makeRoom c data.length) (fun _ => appendItemToActive c id data) _ = _
  rw [Prog.bind, hmake]
  show (if c.eraseSize < w.ram.writeOffset + recordSize data.length then fail .full else _ : Prog Flash Nv NvError Unit) _ = _
  rw [if_neg hfits]
  rfl

/-! ## A page of whole records -/

theorem Stored.boots (hlayout : layoutOk c = true) (hsize : PAGE_HEADER_SIZE ≤ c.eraseSize) (h : Stored c f active p q) :
    ∃ f', new c ⟨f, ⟨0, 0, 0⟩, []⟩ = .ok () ⟨f', nvOf active p, []⟩ ∧ Holds c f' active p := by
  obtain ⟨erases, hnew⟩ := new_eq hlayout (h.taken.state hsize) (h.other.state hsize) h.ready h.preferred
  have hholds : Holds c (booted c f active erases) active p :=
    ⟨(booted_active hlayout f active erases).trans h.taken.content, h.taken.fits, h.taken.short⟩
  refine ⟨_, ?_, hholds⟩
  rw [hnew, hholds.writeOffset hsize h.ready]
  rfl

/-- Where every record of the page is whole, the items are all that matters. -/
theorem Stored.usable_iff (hlayout : layoutOk c = true) (hsize : PAGE_HEADER_SIZE ≤ c.eraseSize) (h : Stored c f active p q)
    (map : Map NvItemId Buf) : Usable c f map ↔ ∀ id data, map id = some data → p.contents id = some data := by
  obtain ⟨f', hnew, hholds⟩ := h.boots hlayout hsize
  have hread : ∀ id, readItem c f' (nvOf active p) id MAX_ITEM_SIZE =
      (p.contents id).elim (.error .notFound) .ok := by
    intro id
    rw [hholds.readItem hsize h.ready rfl]
    cases hc : p.contents id with
    | none => rfl
    | some data => exact if_neg (Nat.not_lt.mpr (contents_short hholds hc).2)
  constructor
  · rintro ⟨w, hw, hitems, -⟩ id data hmap
    rw [hnew] at hw
    obtain rfl := (Outcome.ok.inj hw).2
    have hitem := hitems id data hmap
    rw [hread] at hitem
    cases hc : p.contents id with
    | none =>
      rw [hc] at hitem
      cases hitem
    | some data' =>
      rw [hc] at hitem
      rw [Except.ok.inj hitem]
  · intro hkept
    refine ⟨_, hnew, fun id data hmap => ?_, fun id data hne hdata hroom => ?_⟩
    · rw [hread, hkept id data hmap, Option.elim_some]
    · refine ⟨_, write_eq hdata hroom, ?_⟩
      have hpush := hholds.push id (show p.used + recordSize data.length ≤ c.eraseSize from hroom) hdata
      refine (hpush.readItem hsize h.ready rfl id MAX_ITEM_SIZE).trans ?_
      rw [push_contents, Function.update_self, if_neg hne]
      exact if_neg (Nat.not_lt.mpr hdata)

/-! ## A tear behind the header -/

/-- Erased bytes are not programmed. -/
theorem program_blank (f : Flash) (address : Nat) (bytes : Buf) (n : Nat) :
    program f address (bytes ++ blank n) = program f address bytes := by
  funext a
  unfold program
  rw [List.length_append, blank_length]
  by_cases hin : address ≤ a ∧ a < address + bytes.length
  · rw [if_pos hin, if_pos ⟨hin.1, by omega⟩, u8At_append_left (by omega)]
  · rw [if_neg hin]
    split
    · rw [u8At_append_right (by omega)]
      have hbyte : u8At (blank n) (a - address - bytes.length) = 0xFF := by
        unfold u8At blank
        rw [List.getD_eq_getElem?_getD, List.getElem?_replicate, if_pos (by omega)]
        rfl
      rw [hbyte]
      exact UInt8.toBitVec_inj.mp (by rw [UInt8.toBitVec_and]; exact BitVec.and_allOnes)
    · rfl

theorem length_tornData (data : Buf) (words : Nat) : (tornData data words).length = data.length := by
  unfold tornData
  rw [List.length_append, List.length_take, blank_length]
  omega

/-- **Behind its header a torn item is an item**, whose last bytes are still erased. -/
theorem tornAppend_eq (hwords : 2 ≤ words) (hlt : 4 * words < recordSize data.length) (address : Nat) :
    tornAppend f address id data words = program f address (encodeItem id (tornData data words)) := by
  have hlen : recordSize data.length = HEADER_SIZE + align4 data.length := rfl
  have halign := le_align4 data.length
  have hheader : HEADER_SIZE = 8 := rfl
  have hrest : ((data ++ blank (align4 data.length - data.length)).take (4 * (words - 2))) ++
      blank (align4 data.length - 4 * (words - 2)) =
      tornData data words ++ blank (align4 data.length - data.length) := by
    unfold tornData
    by_cases hinside : 4 * (words - 2) ≤ data.length
    · rw [List.take_append_of_le_length hinside, List.append_assoc, ← blank_add]
      congr 2
      omega
    · have hblank : data.length - 4 * (words - 2) = 0 := by omega
      rw [List.take_append, List.take_of_length_le (by omega), List.append_assoc, hblank, List.append_assoc]
      congr 1
      unfold blank
      rw [List.take_replicate, List.replicate_append_replicate, List.replicate_append_replicate]
      congr 1
      omega
  have hitem : encodeItem id (tornData data words) =
      (encodeItem id data).take (4 * words) ++ blank (align4 data.length - 4 * (words - 2)) := by
    obtain ⟨k, rfl⟩ : ∃ k, words = k + 2 := ⟨words - 2, by omega⟩
    have hsplit : ∀ d : Buf, encodeItem id d = (le16 ITEM_MAGIC ++ (le16 id.toU16 ++ (le16 (UInt16.ofNat d.length) ++ [0, 0]))) ++
        (d ++ blank (align4 d.length - d.length)) := by
      intro d
      unfold encodeItem
      simp only [List.append_assoc]
    have hfront : ∀ n : UInt16, (le16 ITEM_MAGIC ++ (le16 id.toU16 ++ (le16 n ++ [0, 0]))).length = 8 := fun n => rfl
    rw [hsplit, hsplit data, length_tornData, List.take_append, hfront, List.take_of_length_le (by rw [hfront]; omega),
      show 4 * (k + 2) - 8 = 4 * (k + 2 - 2) by omega, List.append_assoc _ (List.take _ _), hrest]
  unfold tornAppend
  rw [hitem, program_blank]

theorem Stored.torn_header (hlayout : layoutOk c = true) (h : Stored c f active p q) (hwords : 2 ≤ words)
    (hlt : 4 * words < recordSize data.length) (hdata : data.length ≤ MAX_ITEM_SIZE)
    (hroom : p.used + recordSize data.length ≤ c.eraseSize) :
    Stored c (tornAppend f (c.page active + p.used) id data words) active (p.push id (tornData data words)) q := by
  rw [tornAppend_eq hwords hlt]
  exact h.push hlayout id (by rw [length_tornData]; exact hroom) (by rw [length_tornData]; exact hdata)

/-! ## A tear in front of the length -/

/-- The word of a header that holds no length. -/
def stub (id : NvItemId) : Buf := le16 ITEM_MAGIC ++ le16 id.toU16

section Scan

variable {α : Type} {g : Flash} {address fuel : Nat} {visit : α → Nat → UInt16 → Nat → Except NvError α} {pre rest : Buf}

/-- **A length that is still erased** is one of 65535 bytes. -/
theorem scanItems_stub {id : NvItemId} (hcontent : read g address c.eraseSize = pre ++ (stub id ++ (blank 4 ++ rest))) (acc : α) :
    scanItems c g address visit (fuel + 1) pre.length acc =
      match visit acc pre.length id.toU16 0xFFFF with
      | .error e => .error e
      | .ok acc =>
        if c.eraseSize < pre.length + recordSize 0xFFFF then .error .corrupt
        else scanItems c g address visit fuel (pre.length + recordSize 0xFFFF) acc := by
  have hlen := congrArg List.length hcontent
  simp only [read_length, List.length_append, blank_length, show (stub id).length = 4 from rfl] at hlen
  have hheader : read g (address + pre.length) HEADER_SIZE = stub id ++ blank 4 := by
    rw [read_slice g (show pre.length + HEADER_SIZE ≤ c.eraseSize by unfold HEADER_SIZE; omega), hcontent,
      slice_append_right (Nat.le_refl _), Nat.sub_self, Nat.add_sub_cancel_left]
    rfl
  have hmagic : u16At (stub id ++ blank 4) 0 = ITEM_MAGIC := u16At_le16 _ _
  have hid : u16At (stub id ++ blank 4) 2 = id.toU16 := by
    unfold stub
    rw [List.append_assoc, u16At_append_right (by simp), le16_length]
    exact u16At_le16 _ _
  have hsize : (u16At (stub id ++ blank 4) 4).toNat = 0xFFFF := by
    rw [u16At_append_right (show (stub id).length ≤ 4 from Nat.le_refl 4)]
    show (u16At (blank 4) 0).toNat = 0xFFFF
    decide
  rw [scanItems, if_neg (by unfold HEADER_SIZE; omega)]
  cases hvisit : visit acc pre.length id.toU16 0xFFFF with
  | error e => simp only [hheader, hmagic, hid, hsize, hvisit, ne_eq, not_true_eq_false, if_false]
  | ok acc' => simp only [hheader, hmagic, hid, hsize, hvisit, ne_eq, not_true_eq_false, if_false]

end Scan

/-- The page has an item without a length behind its items. -/
structure Stubbed (c : Config) (g : Flash) (page : Fin 2) (p : Page) (id : NvItemId) (rest : Buf) : Prop where
  content : read g (c.page page) c.eraseSize = p.heading.bytes ++ (encodeItems p.items ++ (stub id ++ (blank 4 ++ rest)))
  short : ∀ item ∈ p.items, item.2.length ≤ MAX_ITEM_SIZE
  ready : p.Ready
  size : PAGE_HEADER_SIZE ≤ c.eraseSize

namespace Stubbed

variable {g : Flash} {rest : Buf}

theorem state (h : Stubbed c g active p id rest) : pageState g (c.page active) = (p.push id []).state := by
  have hheader : read g (c.page active) PAGE_HEADER_SIZE =
      slice (p.heading.bytes ++ (encodeItems p.items ++ (stub id ++ (blank 4 ++ rest)))) 0 PAGE_HEADER_SIZE := by
    rw [← h.content]
    exact read_slice g (show 0 + PAGE_HEADER_SIZE ≤ c.eraseSize from (Nat.zero_add _).le.trans h.size)
  unfold pageState
  rw [hheader]
  obtain ⟨heading, items⟩ := p
  obtain hplain | ⟨gen, hcommitted⟩ := h.ready
  · obtain rfl : heading = .plain := hplain
    cases items <;> exact headerState_item _
  · obtain rfl : heading = .committed gen := hcommitted
    rw [slice_init (show PAGE_HEADER_SIZE = (Heading.committed gen).bytes.length from rfl)]
    exact headerState_committed gen

theorem start (h : Stubbed c g active p id rest) : pageDataStart g (c.page active) = .ok p.heading.bytes.length := by
  unfold pageDataStart
  rw [h.state]
  obtain ⟨heading, items⟩ := p
  obtain hplain | ⟨gen, hcommitted⟩ := h.ready
  · obtain rfl : heading = .plain := hplain
    cases items <;> rfl
  · obtain rfl : heading = .committed gen := hcommitted
    rfl

theorem used_le (h : Stubbed c g active p id rest) : p.used + 8 + rest.length = c.eraseSize := by
  have hlen := congrArg List.length h.content
  simp only [read_length, List.length_append, blank_length, show (stub id).length = 4 from rfl] at hlen
  unfold Page.used
  omega

/-- The loop over the page, up to where the missing length points. -/
theorem scan {α : Type} (visit : α → Nat → UInt16 → Nat → Except NvError α) (h : Stubbed c g active p id rest) (acc : α) :
    ∃ fuel, p.items.length + 1 + fuel = c.eraseSize ∧ scanPage c g (c.page active) visit acc =
      match visitItems visit p.heading.bytes.length p.items acc with
      | .error e => .error e
      | .ok acc =>
        match visit acc p.used id.toU16 0xFFFF with
        | .error e => .error e
        | .ok acc =>
          if c.eraseSize < p.used + recordSize 0xFFFF then .error .corrupt
          else scanItems c g (c.page active) visit fuel (p.used + recordSize 0xFFFF) acc := by
  have hitems := items_length_le p.items
  have hfits := h.used_le
  have hused : p.used = p.heading.bytes.length + (encodeItems p.items).length := rfl
  obtain ⟨fuel, hfuel⟩ : ∃ fuel, p.items.length + 1 + fuel = c.eraseSize := ⟨c.eraseSize - p.items.length - 1, by omega⟩
  refine ⟨fuel, hfuel, ?_⟩
  have hpre : (p.heading.bytes ++ encodeItems p.items).length = p.used := List.length_append
  have hstub : ∀ acc, scanItems c g (c.page active) visit (fuel + 1) p.used acc =
      match visit acc p.used id.toU16 0xFFFF with
      | .error e => .error e
      | .ok acc =>
        if c.eraseSize < p.used + recordSize 0xFFFF then .error .corrupt
        else scanItems c g (c.page active) visit fuel (p.used + recordSize 0xFFFF) acc := by
    intro acc
    rw [← hpre]
    exact scanItems_stub (by rw [h.content, List.append_assoc]) acc
  unfold scanPage
  rw [h.start]
  dsimp only
  conv_lhs => rw [show c.eraseSize = p.items.length + (fuel + 1) by omega]
  rw [scanItems_append h.content h.short]
  cases visitItems visit p.heading.bytes.length p.items acc with
  | error e => rfl
  | ok acc' =>
    dsimp only
    rw [← hused, hstub]

theorem writeOffset (h : Stubbed c g active p id rest) (hsmall : c.eraseSize < p.used + recordSize 0xFFFF) :
    findWriteOffset c g (c.page active) = .error .corrupt := by
  obtain ⟨fuel, -, hscan⟩ := h.scan (fun _ _ _ _ => .ok ()) ()
  unfold findWriteOffset
  rw [hscan, visit_nothing]
  dsimp only
  rw [if_pos hsmall]
  rfl

/-- The boot keeps the page. -/
theorem booted (hlayout : layoutOk c = true) (h : Stubbed c g active p id rest) (erases : Bool) :
    Stubbed c (LogNv.booted c g active erases) active p id rest where
  content := (booted_active hlayout g active erases).trans h.content
  short := h.short
  ready := h.ready
  size := h.size

/-- A boot finds the page as if the item were there. -/
theorem new_eq (hlayout : layoutOk c = true) (h : Stubbed c g active p id rest) (hq : pageState g (c.page (1 - active)) = q.state)
    (hpreferred : Preferred active p q) :
    ∃ erases, new c ⟨g, ⟨0, 0, 0⟩, []⟩ =
      match findWriteOffset c (LogNv.booted c g active erases) (c.page active) with
      | .ok offset => .ok () ⟨LogNv.booted c g active erases, ⟨active, offset, (p.push id []).generation⟩, []⟩
      | .error e => .err e ⟨LogNv.booted c g active erases, ⟨active, 0, (p.push id []).generation⟩, []⟩ :=
  LogNv.new_eq hlayout h.state hq (show (p.push id []).Ready from h.ready) (hpreferred.push h.ready id [])

/-- **Where 65535 bytes do not fit, no boot succeeds.** -/
theorem not_usable (hlayout : layoutOk c = true) (h : Stubbed c g active p id rest)
    (hq : pageState g (c.page (1 - active)) = q.state) (hpreferred : Preferred active p q)
    (hsmall : c.eraseSize < p.used + recordSize 0xFFFF) (map : Map NvItemId Buf) : ¬ Usable c g map := by
  rintro ⟨w, hw, -, -⟩
  obtain ⟨erases, hnew⟩ := h.new_eq hlayout hq hpreferred
  rw [(h.booted hlayout erases).writeOffset hsmall] at hnew
  rw [hnew] at hw
  cases hw

/-! ### Sectors with room for 65535 bytes -/

section Later

variable {gap n : Nat} {later : List Item} {generation : UInt32}

/-- The loop goes on behind the 65535 bytes. -/
theorem scan_later {α : Type} {visit : α → Nat → UInt16 → Nat → Except NvError α}
    (h : Stubbed c g active p id (blank gap ++ (encodeItems later ++ blank n))) (hgap : 8 + gap = recordSize 0xFFFF)
    (hlater : ∀ item ∈ later, item.2.length ≤ MAX_ITEM_SIZE) (acc : α) :
    scanPage c g (c.page active) visit acc =
      match visitItems visit p.heading.bytes.length p.items acc with
      | .error e => .error e
      | .ok acc =>
        match visit acc p.used id.toU16 0xFFFF with
        | .error e => .error e
        | .ok acc => (visitItems visit (p.used + recordSize 0xFFFF) later acc).map fun acc =>
          (acc, p.used + recordSize 0xFFFF + (encodeItems later).length) := by
  obtain ⟨fuel, hfuel, hscan⟩ := h.scan visit acc
  have hfits := h.used_le
  simp only [List.length_append, blank_length] at hfits
  have hitems := items_length_le p.items
  have hlen := items_length_le later
  have hused : p.used = p.heading.bytes.length + (encodeItems p.items).length := rfl
  have hpre : (p.heading.bytes ++ (encodeItems p.items ++ (stub id ++ (blank 4 ++ blank gap)))).length =
      p.used + recordSize 0xFFFF := by
    simp only [List.length_append, blank_length, show (stub id).length = 4 from rfl]
    omega
  rw [hscan]
  cases visitItems visit p.heading.bytes.length p.items acc with
  | error e => rfl
  | ok acc' =>
    dsimp only
    cases visit acc' p.used id.toU16 0xFFFF with
    | error e => rfl
    | ok acc'' =>
      dsimp only
      rw [if_neg (by omega), ← hpre]
      exact scanItems_eq (n := n) (by rw [h.content]; simp only [List.append_assoc]) hlater (by omega) acc''

theorem writeOffset_later (h : Stubbed c g active p id (blank gap ++ (encodeItems later ++ blank n)))
    (hgap : 8 + gap = recordSize 0xFFFF) (hlater : ∀ item ∈ later, item.2.length ≤ MAX_ITEM_SIZE) :
    findWriteOffset c g (c.page active) = .ok (p.used + recordSize 0xFFFF + (encodeItems later).length) := by
  unfold findWriteOffset
  rw [h.scan_later hgap hlater, visit_nothing]
  dsimp only
  rw [visit_nothing]
  rfl

/-- Other items read as before. -/
theorem read_other (h : Stubbed c g active p id (blank gap ++ (encodeItems [] ++ blank n))) (hgap : 8 + gap = recordSize 0xFFFF)
    {offset : Nat} {id' : NvItemId} (hid : id ≠ id') :
    readItem c g ⟨active, offset, generation⟩ id' MAX_ITEM_SIZE =
      match p.contents id' with
      | none => .error .notFound
      | some data => .ok data := by
  obtain ⟨found, hfound, hpoints⟩ := visitEntry_points h.content id'
  have hentry : findLatestEntry c g (c.page active) id' = .ok found := by
    unfold findLatestEntry
    rw [h.scan_later hgap (fun item hitem => absurd hitem List.not_mem_nil), hfound]
    dsimp only [visitEntry]
    rw [if_neg fun heq => hid (toU16_injective heq)]
    rfl
  have hlatest := @findLatest_of_points c g (c.page active) MAX_ITEM_SIZE id' found _ hentry hpoints fun data hdata =>
    h.short _ (latest_mem hdata)
  rw [← contents_apply p id'] at hlatest
  unfold readItem
  rw [show c.page (Nv.mk active offset generation).active = c.page active from rfl, hlatest]
  cases hc : p.contents id' with
  | none => rfl
  | some data =>
    rw [contents_apply] at hc
    obtain ⟨data', hdata', heq⟩ := Option.bind_eq_some_iff.mp hc
    have hshort : data.length ≤ MAX_ITEM_SIZE := by
      split at heq
      · cases heq
      · cases heq
        exact h.short _ (latest_mem hdata')
    dsimp only
    rw [if_neg (Nat.not_lt.mpr hshort)]

/-- The item itself is refused. -/
theorem read_torn (h : Stubbed c g active p id (blank gap ++ (encodeItems [] ++ blank n))) (hgap : 8 + gap = recordSize 0xFFFF)
    {offset : Nat} : readItem c g ⟨active, offset, generation⟩ id MAX_ITEM_SIZE = .error .corrupt := by
  obtain ⟨found, hfound, -⟩ := visitEntry_points h.content id
  have hentry : findLatestEntry c g (c.page active) id = .ok (some (c.page active + (p.used + HEADER_SIZE), 0xFFFF)) := by
    unfold findLatestEntry
    rw [h.scan_later hgap (fun item hitem => absurd hitem List.not_mem_nil), hfound]
    dsimp only [visitEntry]
    rw [if_pos rfl]
    rfl
  unfold readItem findLatest
  rw [show c.page (Nv.mk active offset generation).active = c.page active from rfl, hentry]
  rfl

/-- An item behind the 65535 bytes can be read. -/
theorem read_later {id' : NvItemId} {data : Buf} (h : Stubbed c g active p id (blank gap ++ (encodeItems [(id', data)] ++ blank n)))
    (hgap : 8 + gap = recordSize 0xFFFF) (hne : data ≠ []) (hdata : data.length ≤ MAX_ITEM_SIZE) {offset : Nat} :
    readItem c g ⟨active, offset, generation⟩ id' MAX_ITEM_SIZE = .ok data := by
  have hcontent : read g (c.page active) c.eraseSize =
      (p.heading.bytes ++ (encodeItems p.items ++ (stub id ++ (blank 4 ++ blank gap)))) ++
        (encodeItems [(id', data)] ++ blank n) := by
    rw [h.content]
    simp only [List.append_assoc]
  have hpre : (p.heading.bytes ++ (encodeItems p.items ++ (stub id ++ (blank 4 ++ blank gap)))).length =
      p.used + recordSize 0xFFFF := by
    simp only [List.length_append, blank_length, show (stub id).length = 4 from rfl]
    unfold Page.used
    omega
  obtain ⟨before, hbefore, -⟩ := visitEntry_points h.content id'
  obtain ⟨found, hfound, hpoints⟩ := visitEntry_points hcontent id'
  rw [hpre] at hfound
  have hlast : ∀ acc, visitItems (visitEntry (c.page active) id') (p.used + recordSize 0xFFFF) [(id', data)] acc = .ok found := by
    intro acc
    rw [← hfound]
    simp only [visitItems, visitEntry, if_pos]
  have hentry : findLatestEntry c g (c.page active) id' = .ok found := by
    unfold findLatestEntry
    rw [h.scan_later hgap (by simpa using hdata), hbefore]
    dsimp only [visitEntry]
    rw [show visitItems _ _ _ _ = _ from hlast _]
    rfl
  have hlatest := @findLatest_of_points c g (c.page active) MAX_ITEM_SIZE id' found _ hentry hpoints fun data' hdata' => by
    cases hdata'.symm.trans (show latest [(id', data)] id' = some data from if_pos rfl)
    exact hdata
  rw [show latest [(id', data)] id' = some data from if_pos rfl, Option.bind_some, if_neg hne] at hlatest
  unfold readItem
  rw [show c.page (Nv.mk active offset generation).active = c.page active from rfl, hlatest]
  dsimp only
  rw [if_neg (Nat.not_lt.mpr hdata)]

/-- The next item is written behind the 65535 bytes. -/
theorem append_later {id' : NvItemId} {data : Buf} (h : Stubbed c g active p id (blank gap ++ (encodeItems [] ++ blank n)))
    (hgap : 8 + gap = recordSize 0xFFFF) (hroom : p.used + recordSize 0xFFFF + recordSize data.length ≤ c.eraseSize) :
    Stubbed c (program g (c.page active + (p.used + recordSize 0xFFFF)) (encodeItem id' data)) active p id
      (blank gap ++ (encodeItems [(id', data)] ++ blank (n - recordSize data.length))) where
  content := by
    have hfits := h.used_le
    simp only [List.length_append, blank_length, encodeItems_nil, List.length_nil] at hfits
    have hblank : blank n = blank (recordSize data.length) ++ blank (n - recordSize data.length) := by
      rw [← blank_add]
      congr 1
      omega
    have hpre : p.used + recordSize 0xFFFF =
        (p.heading.bytes ++ (encodeItems p.items ++ (stub id ++ (blank 4 ++ blank gap)))).length := by
      simp only [List.length_append, blank_length, show (stub id).length = 4 from rfl]
      unfold Page.used
      omega
    have hcontent : p.heading.bytes ++ (encodeItems p.items ++ (stub id ++ (blank 4 ++ (blank gap ++ (encodeItems [] ++ blank n))))) =
        (p.heading.bytes ++ (encodeItems p.items ++ (stub id ++ (blank 4 ++ blank gap)))) ++
          (blank (recordSize data.length) ++ blank (n - recordSize data.length)) := by
      rw [← hblank]
      simp only [encodeItems_nil, List.nil_append, List.append_assoc]
    rw [read_program_within g (by rw [encodeItem_length]; exact hroom), h.content, hcontent, hpre,
      overlay_blank (encodeItem_length id' data).symm]
    simp only [encodeItems_cons, encodeItems_nil, List.append_nil, List.append_assoc]
  short := h.short
  ready := h.ready
  size := h.size

/-- **Where 65535 bytes fit**, only the item itself is lost. -/
theorem usable_iff (hlayout : layoutOk c = true) (h : Stubbed c g active p id (blank gap ++ (encodeItems [] ++ blank n)))
    (hq : pageState g (c.page (1 - active)) = q.state) (hpreferred : Preferred active p q) (hgap : 8 + gap = recordSize 0xFFFF) :
    Usable c g p.contents ↔ p.contents id = none := by
  obtain ⟨erases, hnew⟩ := h.new_eq hlayout hq hpreferred
  have hbooted := h.booted hlayout erases
  rw [hbooted.writeOffset_later hgap (fun item hitem => absurd hitem List.not_mem_nil)] at hnew
  constructor
  · rintro ⟨w, hw, hitems, -⟩
    rw [hnew] at hw
    obtain rfl := (Outcome.ok.inj hw).2
    cases hc : p.contents id with
    | none => rfl
    | some data =>
      have hitem := hitems id data hc
      rw [hbooted.read_torn hgap] at hitem
      cases hitem
  · intro habsent
    refine ⟨_, hnew, fun id' data hmap => ?_, fun id' data hne hdata hroom => ?_⟩
    · have hid : id ≠ id' := by
        rintro rfl
        rw [habsent] at hmap
        cases hmap
      rw [hbooted.read_other hgap hid, hmap]
    · exact ⟨_, write_eq hdata hroom, (hbooted.append_later hgap hroom).read_later hgap hne hdata⟩

end Later

end Stubbed

/-! ## Every tear -/

/-- The first word of an item, and nothing else. -/
theorem Stored.stubbed (hsize : PAGE_HEADER_SIZE ≤ c.eraseSize) (h : Stored c f active p q) (id : NvItemId)
    (hroom : p.used + recordSize data.length ≤ c.eraseSize) :
    Stubbed c (tornAppend f (c.page active + p.used) id data 1) active p id (blank (c.eraseSize - p.used - 8)) where
  content := by
    have hrecord : recordSize data.length = 8 + align4 data.length := rfl
    have hblank : blank (c.eraseSize - p.used) = blank 4 ++ (blank 4 ++ blank (c.eraseSize - p.used - 8)) := by
      rw [← blank_add, ← blank_add]
      congr 1
      omega
    have hused : p.used = (p.heading.bytes ++ encodeItems p.items).length := List.length_append.symm
    have htake : (encodeItem id data).take (4 * 1) = stub id := rfl
    unfold tornAppend
    rw [htake, read_program_within f (show p.used + (stub id).length ≤ c.eraseSize from by rw [show (stub id).length = 4 from rfl]; omega),
      h.taken.content]
    unfold Page.render
    rw [hblank, ← List.append_assoc]
    conv_lhs => rw [hused]
    rw [overlay_blank (show 4 = (stub id).length from rfl), List.append_assoc, ← hused]
  short := h.taken.short
  ready := h.ready
  size := hsize

/-- **An append that stops leaves the store usable** just where its item is bearable. -/
theorem torn_append_usable_iff (hlayout : layoutOk c = true) (hsize : PAGE_HEADER_SIZE ≤ c.eraseSize) (h : Stored c f active p q)
    (id : NvItemId) (data : Buf) (hdata : data.length ≤ MAX_ITEM_SIZE) (hroom : p.used + recordSize data.length ≤ c.eraseSize)
    (words : Nat) (hwords : 4 * words < recordSize data.length) :
    Usable c (tornAppend f (c.page active + p.used) id data words) p.contents ↔ Bearable c p id data words := by
  unfold Bearable
  by_cases hnone : words = 0
  · -- nothing has been programmed
    subst hnone
    have hsame : tornAppend f (c.page active + p.used) id data 0 = f := by
      funext a
      unfold tornAppend program
      rw [if_neg (by rw [Nat.mul_zero, List.take_zero, List.length_nil]; omega)]
    rw [hsame, h.usable_iff hlayout hsize]
    exact ⟨fun _ => Or.inl rfl, fun _ id data hmap => hmap⟩
  by_cases hone : words = 1
  · subst hone
    have hstubbed := h.stubbed hsize id hroom
    have hother : pageState (tornAppend f (c.page active + p.used) id data 1) (c.page (1 - active)) = q.state := by
      have hlen : ((encodeItem id data).take (4 * 1)).length ≤ recordSize data.length := by
        rw [List.length_take, encodeItem_length]
        omega
      exact (h.other.program_other hlayout (other_page active) (by omega)).state hsize
    by_cases hsmall : c.eraseSize < p.used + recordSize 0xFFFF
    · have hnot := hstubbed.not_usable hlayout hother h.preferred hsmall p.contents
      constructor
      · exact fun husable => absurd husable hnot
      · rintro (hbad | ⟨-, -, hfits⟩ | ⟨hbad, -⟩)
        · omega
        · omega
        · omega
    · obtain ⟨gap, hgap⟩ : ∃ gap, 8 + gap = recordSize 0xFFFF := ⟨align4 0xFFFF, rfl⟩
      have hrest : blank (c.eraseSize - p.used - 8) =
          blank gap ++ (encodeItems [] ++ blank (c.eraseSize - p.used - recordSize 0xFFFF)) := by
        rw [encodeItems_nil, List.nil_append, ← blank_add]
        apply congrArg blank
        omega
      rw [hrest] at hstubbed
      rw [hstubbed.usable_iff hlayout hother h.preferred hgap]
      constructor
      · exact fun habsent => Or.inr (Or.inl ⟨rfl, habsent, Nat.not_lt.mp hsmall⟩)
      · rintro (hbad | ⟨-, habsent, -⟩ | ⟨hbad, -⟩)
        · omega
        · exact habsent
        · omega
  · -- the item is there, with some of its data
    have htwo : 2 ≤ words := by omega
    have hne : tornData data words ≠ [] := by
      intro hempty
      have hlen := length_tornData data words
      have hrecord : recordSize data.length = 8 + (data.length + 3) / 4 * 4 := rfl
      rw [hempty, List.length_nil] at hlen
      omega
    rw [(h.torn_header hlayout htwo hwords hdata hroom).usable_iff hlayout hsize, push_contents, if_neg hne]
    constructor
    · intro hkept
      refine Or.inr (Or.inr ⟨htwo, ?_⟩)
      cases hc : p.contents id with
      | none => exact Or.inl rfl
      | some old =>
        have hold := hkept id old hc
        rw [Function.update_self] at hold
        exact Or.inr hold.symm
    · rintro (hbad | ⟨hbad, -⟩ | ⟨-, hcases⟩) id' data' hmap
      · omega
      · omega
      · by_cases hid : id' = id
        · subst hid
          rw [Function.update_self]
          rcases hcases with hnone' | hsame
          · rw [hnone'] at hmap
            cases hmap
          · rw [← hsame, hmap]
        · rw [Function.update_of_ne hid, hmap]

/-! ## Runs -/

/-- A flash on which a channel has been written. -/
def channelFlash : Flash := program erased 0 (encodeItem .nwkChannel [15])

theorem channelFlash_stored :
    Stored smallPages channelFlash 0 ⟨.plain, [(.nwkChannel, [15])]⟩ ⟨.plain, []⟩ :=
  (stored_erased smallPages).push (by decide) .nwkChannel (by decide) (by decide)

/-- A depth is written behind the channel, and the program stops behind its first word: the length is still
    erased, and `new` returns `Corrupt`. -/
theorem torn_length_refused :
    ¬ ∀ (c : Config) (f : Flash) (active : Fin 2) (p q : Page), layoutOk c = true → PAGE_HEADER_SIZE ≤ c.eraseSize →
      Stored c f active p q → ∀ (id : NvItemId) (data : Buf), data.length ≤ MAX_ITEM_SIZE →
        p.used + recordSize data.length ≤ c.eraseSize → ∀ words, 4 * words < recordSize data.length →
          Usable c (tornAppend f (c.page active + p.used) id data words) p.contents := by
  intro hall
  have husable := hall smallPages _ 0 _ _ (by decide) (by decide) channelFlash_stored .nwkDepth [1] (by decide) (by decide) 1
    (by decide)
  have hroom : 12 + (stub .nwkDepth).length ≤ smallPages.eraseSize := by decide
  have hother := channelFlash_stored.other.program_other (by decide) (other_page 0) hroom
  exact (channelFlash_stored.stubbed (by decide) .nwkDepth (by decide)).not_usable (by decide) (hother.state (by decide))
    channelFlash_stored.preferred (by decide) _ husable

/-- A word later the depth is there, with its data still erased. -/
theorem torn_data_usable :
    Usable smallPages (tornAppend channelFlash (smallPages.page 0 + 12) .nwkDepth [1] 2)
      (Page.contents ⟨.plain, [(.nwkChannel, [15])]⟩) :=
  (torn_append_usable_iff (by decide) (by decide) channelFlash_stored .nwkDepth [1] (by decide) (by decide) 2
    (by decide)).mpr (Or.inr (Or.inr ⟨Nat.le_refl 2, Or.inl (by decide)⟩))

end Zigbee.Runtime.LogNv
