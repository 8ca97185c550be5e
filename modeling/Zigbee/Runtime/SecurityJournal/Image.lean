import Zigbee.Runtime.SecurityJournal.Journal

/-!
# Slot images

The journal only ever leaves three kinds of slots in flash: erased ones, state records with or
without their commit marker, and replay slots whose programmed cells come first.  An `Image` says
which slot holds what; `Rep` says that flash contents are an image.

* `Slot.render` — the bytes of a slot; `decodeRecord_render`, `header_render`, `entries_render`, … —
  what the scans read from it.
* `Rep.write`, `Rep.erase` — flash commands as slot updates; `render_header`, `render_entry`,
  `render_entry_commit`, `render_record`, `render_record_commit` — the updates the writers make.
-/

namespace Zigbee.Runtime.SecurityJournal

open Bytes NorFlash Config Cell

/-- Contents of one slot. -/
inductive Slot where
  | erased
  | record (generation : UInt32) (state : PersistentSecurityState) (tag : UInt16) (committed : Bool)
      (valid : state.validate = .ok ())
  | replay (generation : UInt32) (cells : List Cell) (fits : cells.length ≤ 4)

/-- `n` erased bytes. -/
def blank (n : Nat) : Buf := List.replicate n 0xFF

@[simp] theorem blank_length (n : Nat) : (blank n).length = n := by simp [blank]

theorem isErased_blank (n : Nat) : isErased (blank n) = true := by simp [isErased, blank]

theorem blank_add (m n : Nat) : blank (m + n) = blank m ++ blank n :=
  List.replicate_append_replicate.symm

variable (cells : List Cell) (g : UInt32)

namespace Slot

def render : Slot → Buf
  | erased => blank 128
  | record g st tag committed _ => recordSlot g st tag committed
  | replay g cells _ => replayHeader g ++ (cells.flatMap bytes ++ blank (112 - 28 * cells.length))

def isErased : Slot → Bool
  | erased => true
  | _ => false

/-- The committed record of a slot of `sector`. -/
def located (sector : Fin 2) : Slot → Option LocatedState
  | record g st tag true _ => some ⟨g, sector, st, tag⟩
  | _ => none

/-- The generation of a replay slot. -/
def header : Slot → Option UInt32
  | replay g _ _ => some g
  | _ => none

/-- The replay entries the scans read. -/
def entries : Slot → List PersistentReplayCounter
  | replay _ cells _ => (cells.takeWhile good).map Cell.replay
  | _ => []

/-- The next free entry of a replay slot whose entries are all readable. -/
def freeIndex : Slot → Option Nat
  | replay _ cells _ => if cells.all good ∧ cells.length < 4 then some cells.length else none
  | _ => none

/-! ## Replay slots -/

theorem flatMap_bytes_length : (cells.flatMap bytes).length = 28 * cells.length := by
  induction cells with
  | nil => rfl
  | cons c cells ih =>
    rw [List.flatMap_cons, List.length_append, ih, bytes_length, List.length_cons]
    omega

@[simp] theorem render_length (s : Slot) : s.render.length = 128 := by
  cases s with
  | erased => exact blank_length 128
  | record g st tag committed h => exact recordSlot_length g st tag committed
  | replay g cells h =>
    simp only [render, List.length_append, replayHeader_length, flatMap_bytes_length, blank_length]
    omega

/-- Entry `i` of a sequence of cells followed by erased bytes. -/
theorem slice_cells (n i : Nat) (hi : cells.length ≤ i → i < cells.length + n) :
    slice (cells.flatMap bytes ++ blank (28 * n)) (i * 28) (i * 28 + 28) =
      if h : i < cells.length then cells[i].bytes else blank 28 := by
  induction cells generalizing i with
  | nil =>
    have hn : i < n := by simpa using hi
    simp only [List.flatMap_nil, List.nil_append, List.length_nil, Nat.not_lt_zero, dite_false,
      slice, blank, List.drop_replicate, List.take_replicate]
    congr 1
    omega
  | cons c cells ih =>
    rw [List.flatMap_cons, List.append_assoc]
    cases i with
    | zero => simpa using slice_init (bytes_length c).symm
    | succ i =>
      rw [slice_append_right (by simp), bytes_length,
        show (i + 1) * 28 - 28 = i * 28 by omega,
        show (i + 1) * 28 + 28 - 28 = i * 28 + 28 by omega, ih i (by simp at hi; omega)]
      simp

theorem replayEntryAt_render {g : UInt32} {cells : List Cell} {h : cells.length ≤ 4} {i : Nat}
    (hi : i < 4) :
    replayEntryAt (render (.replay g cells h)) i =
      if h : i < cells.length then cells[i].bytes else blank 28 := by
  unfold replayEntryAt REPLAY_HEADER_LEN REPLAY_ENTRY_LEN render
  rw [slice_append_right (by simp), replayHeader_length,
    show 16 + i * 28 - 16 = i * 28 by omega, show 16 + i * 28 + 28 - 16 = i * 28 + 28 by omega,
    show 112 - 28 * cells.length = 28 * (4 - cells.length) by omega]
  exact slice_cells cells (4 - cells.length) i (by omega)

theorem replayEntries_render (cells : List Cell) (h : cells.length ≤ 4) :
    replayEntries (render (.replay g cells h)) =
      cells.map bytes ++ List.replicate (4 - cells.length) (blank 28) := by
  apply List.ext_getElem
  · simp [replayEntries, REPLAY_ENTRIES_PER_SLOT]; omega
  · intro i h1 _
    have hi : i < 4 := by simpa [replayEntries, REPLAY_ENTRIES_PER_SLOT] using h1
    simp only [replayEntries, List.getElem_map, List.getElem_range, replayEntryAt_render hi]
    by_cases hc : i < cells.length
    · rw [dif_pos hc, List.getElem_append_left (by simpa using hc)]
      simp
    · rw [dif_neg hc, List.getElem_append_right (by simp; omega)]
      simp

theorem committedEntries_cells (n : Nat) :
    committedEntries (cells.map bytes ++ List.replicate n (blank 28)) =
      (cells.takeWhile good).map Cell.replay := by
  induction cells with
  | nil => cases n <;> simp [committedEntries, List.replicate_succ, isErased_blank]
  | cons c cells ih =>
    simp only [List.map_cons, List.cons_append, committedEntries, isErased_bytes,
      decodeReplayEntry_bytes, List.takeWhile_cons]
    cases c.good <;> simp [ih]

theorem appendIndex_cells (n i : Nat) :
    appendIndex (cells.map bytes ++ List.replicate n (blank 28)) i =
      if cells.all good ∧ 0 < n then some (i + cells.length) else none := by
  induction cells generalizing i with
  | nil => cases n <;> simp [appendIndex, List.replicate_succ, isErased_blank]
  | cons c cells ih =>
    simp only [List.map_cons, List.cons_append, appendIndex, isErased_bytes,
      decodeReplayEntry_bytes, List.all_cons]
    by_cases hc : c.good = true
    · simp [hc, ih, Nat.add_assoc, Nat.add_comm 1]
    · simp [hc]

theorem replay_fields (l : Buf) :
    slice (replayHeader g ++ l) 0 4 = REPLAY_RECORD_MAGIC ∧
    u8At (replayHeader g ++ l) 4 = REPLAY_RECORD_VERSION ∧ u8At (replayHeader g ++ l) 5 = 28 ∧
    u8At (replayHeader g ++ l) 6 = 4 ∧ u8At (replayHeader g ++ l) 7 = 0 ∧
    u32At (replayHeader g ++ l) 8 = g := by
  have hm : REPLAY_RECORD_MAGIC.length = 4 := rfl
  refine ⟨?_, ?_, ?_, ?_, ?_, ?_⟩
  all_goals simp only [replayHeader, replayHeaderBody, List.append_assoc]
  · exact slice_init hm.symm
  · rw [u8At_append_right (by omega), hm]; rfl
  · rw [u8At_append_right (by omega), hm]; rfl
  · rw [u8At_append_right (by omega), hm]; rfl
  · rw [u8At_append_right (by omega), hm]; rfl
  · rw [u32At_append_right (by omega), hm, u32At_append_right (by simp)]
    exact u32At_le32 g _

theorem replayHeaderGeneration_header (l : Buf) :
    replayHeaderGeneration (replayHeader g ++ l) = some g := by
  obtain ⟨hmagic, hversion, hlen, hper, hzero, hgen⟩ := replay_fields g l
  have hcrc : crc32 (slice (replayHeader g ++ l) 0 12) = u32At (replayHeader g ++ l) 12 := by
    simp only [replayHeader, List.append_assoc]
    rw [slice_init (by simp), u32At_append_right (by simp), replayHeaderBody_length, Nat.sub_self,
      u32At_le32]
  unfold replayHeaderGeneration
  rw [hmagic, hversion, hlen, hper, hzero, hgen, hcrc, if_neg (by decide), if_neg (by simp)]

/-! ## What the scans read -/

theorem isErased_render (s : Slot) : SecurityJournal.isErased s.render = s.isErased := by
  cases s with
  | erased => exact isErased_blank 128
  | record g st tag committed h => exact isErased_recordSlot g st tag committed
  | replay g cells h =>
    simp [render, isErased, SecurityJournal.isErased, replayHeader, replayHeaderBody,
      REPLAY_RECORD_MAGIC]

theorem header_render (s : Slot) : replayHeaderGeneration s.render = s.header := by
  cases s with
  | erased => decide
  | record g st tag committed h => exact replayHeaderGeneration_recordSlot g st tag committed
  | replay g cells h => exact replayHeaderGeneration_header g _

theorem located_render (s : Slot) (sector : Fin 2) :
    (decodeRecord s.render).map (fun d => ⟨d.1, sector, d.2, recordTag s.render⟩) =
      s.located sector := by
  cases s with
  | erased =>
    have : decodeRecord (render .erased) = none := by decide
    simp [this, located]
  | record g st tag committed h =>
    cases committed with
    | false => simp [render, located, decodeRecord_uncommitted]
    | true => simp [render, located, decodeRecord_committed g tag h]
  | replay g cells h =>
    have hmagic := (replay_fields g (cells.flatMap bytes ++ blank (112 - 28 * cells.length))).1
    have : decodeRecord (render (.replay g cells h)) = none := by
      unfold decodeRecord render
      rw [hmagic, if_pos (Or.inr (by decide))]
    simp [this, located]

theorem entries_render {s : Slot} {g : UInt32} (h : s.header = some g) :
    committedEntries (replayEntries s.render) = s.entries := by
  cases s with
  | erased => simp [header] at h
  | record g st tag committed hv => simp [header] at h
  | replay g cells hc =>
    rw [replayEntries_render, committedEntries_cells, entries]

theorem freeIndex_render {s : Slot} {g : UInt32} (h : s.header = some g) :
    appendIndex (replayEntries s.render) 0 = s.freeIndex := by
  cases s with
  | erased => simp [header] at h
  | record g st tag committed hv => simp [header] at h
  | replay g cells hc =>
    rw [replayEntries_render, appendIndex_cells, freeIndex, Nat.zero_add]
    simp

/-! ## What the writers change -/

theorem render_header :
    overlay (render .erased) 0 (replayHeader g) = render (.replay g [] (by simp)) := by
  have h128 : render .erased = [] ++ (List.replicate 16 0xFF ++ blank 112) := blank_add 16 112
  rw [h128, overlay_erased (a := []) (by rfl) (by simp)]
  simp [render]

theorem render_entry {g : UInt32} {cells : List Cell} {h : cells.length ≤ 4} (r : PersistentReplayCounter)
    (hfree : cells.length < 4) :
    overlay (render (.replay g cells h)) (16 + cells.length * 28) (encodeReplayEntry r) =
      render (.replay g (cells ++ [⟨r, false⟩]) (by simpa using hfree)) := by
  have hsplit : blank (112 - 28 * cells.length) =
      List.replicate 24 0xFF ++ (blank 4 ++ blank (112 - 28 * (cells.length + 1))) := by
    rw [← blank_add, show 112 - 28 * cells.length = 24 + (4 + (112 - 28 * (cells.length + 1))) by omega]
    exact blank_add 24 _
  simp only [render, hsplit]
  rw [← List.append_assoc, overlay_erased (by simp) (by simp)]
  simp [bytes, blank]

theorem render_entry_commit {g : UInt32} {cells : List Cell} {r : PersistentReplayCounter}
    {h : (cells ++ [(⟨r, false⟩ : Cell)]).length ≤ 4} :
    overlay (render (.replay g (cells ++ [⟨r, false⟩]) h)) (16 + cells.length * 28 + 24)
        REPLAY_ENTRY_COMMIT =
      render (.replay g (cells ++ [⟨r, true⟩]) (by simpa using h)) := by
  have hbytes : bytes ⟨r, false⟩ = encodeReplayEntry r ++ List.replicate 4 0xFF := rfl
  simp only [render, List.flatMap_append, List.flatMap_singleton, hbytes, List.append_assoc]
  rw [← List.append_assoc, ← List.append_assoc (replayHeader g ++ _),
    overlay_erased (by simp; omega) (by simp)]
  simp [bytes]

theorem render_record {st : PersistentSecurityState} (tag : UInt16) (hv : st.validate = .ok ()) :
    overlay (render .erased) 0 (recordPrefix g st tag) = render (.record g st tag false hv) := by
  have h128 : render .erased = [] ++ (List.replicate 120 0xFF ++ blank 8) := blank_add 120 8
  rw [h128, overlay_erased (a := []) (by rfl) (by simp)]
  simp [render, recordSlot, recordGap, blank]

theorem render_record_commit {st : PersistentSecurityState} (tag : UInt16) (hv : st.validate = .ok ()) :
    overlay (render (.record g st tag false hv)) 124 RECORD_COMMIT =
      render (.record g st tag true hv) := by
  have hsplit : render (.record g st tag false hv) =
      (recordPrefix g st tag ++ recordGap) ++ (List.replicate 4 0xFF ++ []) := by
    simp [render, recordSlot]
  rw [hsplit, overlay_erased (by simp) (by simp)]
  simp [render, recordSlot]

end Slot

/-! ## Images of the flash -/

/-- The slots of both sectors. -/
abbrev Image := Fin 2 → List Slot

namespace Image

/-- Replace slot `i` of `sector`. -/
def set (img : Image) (sector : Fin 2) (i : Nat) (s : Slot) : Image :=
  Function.update img sector ((img sector).set i s)

/-- Erase `sector`. -/
def wipe (img : Image) (sector : Fin 2) : Image :=
  Function.update img sector (List.replicate (img sector).length .erased)

end Image

/-- The flash contents are the image. -/
def Rep (cfg : Config) (f : Flash) (img : Image) : Prop :=
  ∀ sector, cfg.sectorSlots f sector = (img sector).map Slot.render

/-- The sectors of an accepted configuration do not overlap. -/
theorem Config.sectors_disjoint {cfg : Config} (h : ¬ cfg.Rejected) {a b : Fin 2} (hab : a ≠ b) :
    cfg.sectors a + cfg.sectorSize ≤ cfg.sectors b ∨ cfg.sectors b + cfg.sectorSize ≤ cfg.sectors a := by
  simp only [Rejected, not_or] at h
  have hdiff := h.2.2.2.2.1
  have : (a = 0 ∧ b = 1) ∨ (a = 1 ∧ b = 0) := by
    rcases a with ⟨_ | _ | a, ha⟩ <;> rcases b with ⟨_ | _ | b, hb⟩ <;> omega
  rcases this with ⟨rfl, rfl⟩ | ⟨rfl, rfl⟩ <;> omega

theorem Config.slots_mul {cfg : Config} (h : ¬ cfg.Rejected) :
    cfg.slotsPerSector * 128 = cfg.sectorSize := by
  simp only [Rejected, not_or, Decidable.not_not] at h
  exact Nat.div_mul_cancel h.2.2.1

section Rep

variable {cfg : Config} {f : Flash} {img : Image}

theorem Rep.length (h : Rep cfg f img) (sector : Fin 2) :
    (img sector).length = cfg.slotsPerSector := by
  have := congrArg List.length (h sector)
  simpa [sectorSlots] using this.symm

theorem Rep.readSlot (h : Rep cfg f img) {sector : Fin 2} {i : Nat} {s : Slot}
    (hs : (img sector)[i]? = some s) : cfg.readSlot f sector i = s.render := by
  have hi : i < cfg.slotsPerSector := by
    rw [← h.length sector]
    exact (List.getElem?_eq_some_iff.mp hs).1
  have := congrArg (fun l => l[i]?) (h sector)
  simp only [sectorSlots, List.getElem?_map, hs, Option.map_some,
    List.getElem?_range hi] at this
  exact Option.some.inj this

theorem rep_iff : Rep cfg f img ↔
    (∀ sector, (img sector).length = cfg.slotsPerSector) ∧
      ∀ sector i s, (img sector)[i]? = some s → cfg.readSlot f sector i = s.render := by
  constructor
  · exact fun h => ⟨h.length, fun _ _ _ hs => h.readSlot hs⟩
  · rintro ⟨hlen, hread⟩ sector
    apply List.ext_getElem
    · simp [sectorSlots, hlen]
    · intro i h1 h2
      simp only [sectorSlots, List.getElem_map, List.getElem_range]
      exact hread sector i _ (List.getElem?_eq_getElem _)

/-- A program inside one slot. -/
theorem Rep.write (h : Rep cfg f img) (hcfg : ¬ cfg.Rejected) {sector : Fin 2} {i off : Nat}
    {s s' : Slot} {data : Buf} (hs : (img sector)[i]? = some s) (hoff : off + data.length ≤ 128)
    (hov : overlay s.render off data = s'.render) :
    Rep cfg (program f (cfg.slotAddress sector i + off) data) (img.set sector i s') := by
  have hi : i < cfg.slotsPerSector := by
    rw [← h.length sector]
    exact (List.getElem?_eq_some_iff.mp hs).1
  have hmul := cfg.slots_mul hcfg
  refine rep_iff.mpr ⟨fun t => ?_, fun t k u hu => ?_⟩
  · by_cases ht : t = sector
    · subst ht; simp [Image.set, h.length]
    · simp [Image.set, Function.update_of_ne ht, h.length]
  · unfold Config.readSlot SECURITY_JOURNAL_SLOT_SIZE
    by_cases ht : t = sector
    · subst ht
      simp only [Image.set, Function.update_self, List.getElem?_set] at hu
      by_cases hk : i = k
      · subst hk
        simp only [if_true, h.length, hi] at hu
        cases hu
        have hread := h.readSlot hs
        unfold Config.readSlot SECURITY_JOURNAL_SLOT_SIZE at hread
        rw [read_program_within f hoff, hread, hov]
      · rw [if_neg hk] at hu
        rw [read_program_disjoint]
        · exact h.readSlot hu
        · unfold slotAddress SECURITY_JOURNAL_SLOT_SIZE
          omega
    · simp only [Image.set, Function.update_of_ne ht] at hu
      have hk : k < cfg.slotsPerSector := by
        rw [← h.length t]
        exact (List.getElem?_eq_some_iff.mp hu).1
      rw [read_program_disjoint]
      · exact h.readSlot hu
      · have hdis := sectors_disjoint hcfg ht
        unfold slotAddress SECURITY_JOURNAL_SLOT_SIZE
        omega

/-- A sector erase. -/
theorem Rep.erase (h : Rep cfg f img) (hcfg : ¬ cfg.Rejected) (sector : Fin 2) :
    Rep cfg (NorFlash.erase f (cfg.sectors sector) (cfg.sectors sector + cfg.sectorSize))
      (img.wipe sector) := by
  have hmul := cfg.slots_mul hcfg
  refine rep_iff.mpr ⟨fun t => ?_, fun t k u hu => ?_⟩
  · by_cases ht : t = sector
    · subst ht; simp [Image.wipe, h.length]
    · simp [Image.wipe, Function.update_of_ne ht, h.length]
  · unfold Config.readSlot
    by_cases ht : t = sector
    · subst ht
      simp only [Image.wipe, Function.update_self] at hu
      have hk := (List.getElem?_eq_some_iff.mp hu).1
      simp only [List.length_replicate, h.length] at hk
      rw [List.getElem?_replicate_of_lt (by rw [h.length]; exact hk)] at hu
      cases hu
      rw [read_erase_within]
      · rfl
      · unfold slotAddress SECURITY_JOURNAL_SLOT_SIZE
        omega
    · simp only [Image.wipe, Function.update_of_ne ht] at hu
      have hk : k < cfg.slotsPerSector := by
        rw [← h.length t]
        exact (List.getElem?_eq_some_iff.mp hu).1
      rw [read_erase_disjoint]
      · exact h.readSlot hu
      · have hdis := sectors_disjoint hcfg ht
        unfold slotAddress SECURITY_JOURNAL_SLOT_SIZE
        omega

/-- Erased flash. -/
theorem Rep.erased (cfg : Config) :
    Rep cfg NorFlash.erased fun _ => List.replicate cfg.slotsPerSector .erased := by
  refine rep_iff.mpr ⟨by simp, fun t k u hu => ?_⟩
  have hk := (List.getElem?_eq_some_iff.mp hu).1
  simp only [List.length_replicate] at hk
  rw [List.getElem?_replicate_of_lt hk] at hu
  cases hu
  apply List.ext_getElem
  · simp [Config.readSlot, SECURITY_JOURNAL_SLOT_SIZE]
  · intro i h1 h2
    simp only [Config.readSlot, read_getElem, Slot.render, blank, List.getElem_replicate]
    rfl

end Rep

end Zigbee.Runtime.SecurityJournal
