import Mathlib.Data.List.Perm.Subperm
import Zigbee.Runtime.LogNv

/-!
# The log-structured NV store refines a map

Histories of a store with flash errors and power cuts anywhere, and the map that they leave.

* `Stored` — the two pages of a reachable flash, and why a boot takes up the right one.
* `new_wp`, `appendItem_wp`, `compact_wp` — one spec an operation.
* `nv_refines_map` — **the store refines a map**, in runs in which no value is empty and no compaction of
  a blank page stops between the two programs that write a page header.
* `torn_header_counterexample` — one that does leaves a flash that `new` refuses.
-/

namespace Zigbee.Runtime.LogNv

open Bytes NorFlash Crash Crash.Prog SnapshotRecord KeyValueLog Run

variable {c : Config} {f : Flash} {page page' : Fin 2} {p q : Page}

/-! ## Commands on pages -/

theorem pages_apart (hlayout : layoutOk c = true) (hne : page ≠ page') :
    c.page page + c.eraseSize ≤ c.page page' ∨ c.page page' + c.eraseSize ≤ c.page page := by
  obtain ⟨-, -, hpos, -, -, -, -, -, -, hpages, ⟨a, ha⟩, ⟨b, hb⟩, -⟩ := of_decide_eq_true hlayout
  have h01 : c.page 0 + c.eraseSize ≤ c.page 1 ∨ c.page 1 + c.eraseSize ≤ c.page 0 := by
    rw [ha, hb, ← Nat.mul_succ, ← Nat.mul_succ]
    rcases Nat.lt_trichotomy a b with hab | hab | hab
    · exact Or.inl (Nat.mul_le_mul_left _ hab)
    · rw [ha, hb, hab] at hpages
      exact absurd rfl hpages
    · exact Or.inr (Nat.mul_le_mul_left _ hab)
  have hcases : (page = 0 ∧ page' = 1) ∨ (page = 1 ∧ page' = 0) := by
    revert page page'
    decide
  obtain ⟨rfl, rfl⟩ | ⟨rfl, rfl⟩ := hcases
  · exact h01
  · exact h01.symm

variable {data : Buf}

theorem Holds.program_other (h : Holds c f page p) (hlayout : layoutOk c = true) (hne : page ≠ page') {off : Nat}
    (hoff : off + data.length ≤ c.eraseSize) : Holds c (program f (c.page page' + off) data) page p where
  content := by
    rw [read_program_disjoint]
    · exact h.content
    · rcases pages_apart hlayout hne with h | h <;> omega
  fits := h.fits
  short := h.short

theorem Holds.erase_other (h : Holds c f page p) (hlayout : layoutOk c = true) (hne : page ≠ page') :
    Holds c (erase f (c.page page') (c.page page' + c.eraseSize)) page p where
  content := by
    rw [read_erase_disjoint]
    · exact h.content
    · exact (pages_apart hlayout hne).symm
  fits := h.fits
  short := h.short

theorem Holds.erase (f : Flash) (page : Fin 2) :
    Holds c (erase f (c.page page) (c.page page + c.eraseSize)) page ⟨.plain, []⟩ where
  content := read_erase_within f ⟨Nat.le_refl _, Nat.le_refl _⟩
  fits := Nat.zero_le _
  short := by simp

/-- Data programmed where the page is still erased. -/
theorem overlay_blank {a rest : Buf} {n : Nat} (hn : n = data.length) :
    overlay (a ++ (blank n ++ rest)) a.length data = a ++ (data ++ rest) := overlay_erased rfl hn

/-- An item behind the last one. -/
theorem Holds.push (h : Holds c f page p) (id : NvItemId) (hroom : p.used + recordSize data.length ≤ c.eraseSize)
    (hdata : data.length ≤ MAX_ITEM_SIZE) :
    Holds c (program f (c.page page + p.used) (encodeItem id data)) page (p.push id data) where
  content := by
    rw [read_program_within f (by rw [encodeItem_length]; exact hroom), h.content]
    have hblank : blank (c.eraseSize - p.used) =
        blank (recordSize data.length) ++ blank (c.eraseSize - (p.push id data).used) := by
      rw [push_used, ← blank_add]
      congr 1
      omega
    have hused : p.used = (p.heading.bytes ++ encodeItems p.items).length := by
      rw [List.length_append]
      rfl
    unfold Page.render
    rw [hblank, ← List.append_assoc, hused, overlay_blank (encodeItem_length id data).symm]
    unfold Page.push
    simp only [encodeItems_append, encodeItems_cons, encodeItems_nil, List.append_nil, List.append_assoc]
  fits := by
    rw [push_used]
    exact hroom
  short := by
    intro item hitem
    rcases List.mem_append.mp hitem with hitem | hitem
    · exact h.short item hitem
    · rw [List.mem_singleton.mp hitem]
      exact hdata

/-- The part of a page header in front of the commit word. -/
def headerStart (g : UInt32) : Buf := PAGE_MAGIC ++ (le32 g ++ le32 (~~~g))

variable {items : List Item}

theorem Holds.head (h : Holds c f page ⟨.unwritten, items⟩) (g : UInt32) :
    Holds c (program f (c.page page) (headerStart g)) page ⟨.half g, items⟩ where
  content := by
    have hsize : PAGE_HEADER_SIZE ≤ c.eraseSize := Nat.le_trans (Nat.le_add_right _ _) h.fits
    have hlen : 0 + (headerStart g).length ≤ c.eraseSize := by
      rw [show (headerStart g).length = 12 from rfl]
      unfold PAGE_HEADER_SIZE at hsize
      omega
    have hprogram : read (program f (c.page page + 0) (headerStart g)) (c.page page) c.eraseSize =
        overlay (read f (c.page page) c.eraseSize) 0 (headerStart g) := read_program_within f hlen
    rw [Nat.add_zero] at hprogram
    rw [hprogram, h.content]
    exact overlay_blank (a := []) (n := 12) rfl
  fits := h.fits
  short := h.short

variable {g : UInt32}

theorem Holds.commit (h : Holds c f page ⟨.half g, items⟩) :
    Holds c (program f (c.page page + 12) PAGE_COMMIT) page ⟨.committed g, items⟩ where
  content := by
    have hsize : PAGE_HEADER_SIZE ≤ c.eraseSize := Nat.le_trans (Nat.le_add_right _ _) h.fits
    rw [read_program_within f (show 12 + PAGE_COMMIT.length ≤ c.eraseSize from hsize), h.content]
    exact overlay_blank (a := headerStart g) (n := 4) rfl
  fits := h.fits
  short := h.short

/-! ## Reachable flashes -/

/-- The generation of a page that is taken up. -/
def Page.generation (p : Page) : UInt32 := (validGeneration p.state).getD 0

/-- A page that items are read from. -/
def Page.Ready (p : Page) : Prop := p.heading = .plain ∨ ∃ g, p.heading = .committed g

/-- Why a boot takes up the page `p` rather than `q`. -/
def Preferred (active : Fin 2) (p q : Page) : Prop :=
  match validGeneration p.state with
  | none => active = 0 ∧ q.state = .empty
  | some g => ∀ g', validGeneration q.state = some g' → isNewerGeneration g g' = true

/-- The flash has the active page `p` and the other page `q`. -/
structure Stored (c : Config) (f : Flash) (active : Fin 2) (p q : Page) : Prop where
  taken : Holds c f active p
  other : Holds c f (1 - active) q
  ready : p.Ready
  preferred : Preferred active p q

/-- The fields of a store whose active page is `p`. -/
def nvOf (active : Fin 2) (p : Page) : Nv := ⟨active, p.used, p.generation⟩

/-- The flash stands for the map. -/
def Keeps (c : Config) (f : Flash) (map : Map NvItemId Buf) : Prop := ∃ active p q, Stored c f active p q ∧ p.contents = map

/-- The flash and the fields of the store stand for the map. -/
def Serves (c : Config) (f : Flash) (nv : Nv) (map : Map NvItemId Buf) : Prop :=
  ∃ active p q, Stored c f active p q ∧ p.contents = map ∧ nv = nvOf active p

variable {nv : Nv}

theorem Serves.keeps {map : Map NvItemId Buf} (h : Serves c f nv map) : Keeps c f map := by
  obtain ⟨active, p, q, hstored, hmap, -⟩ := h
  exact ⟨active, p, q, hstored, hmap⟩

theorem other_page (active : Fin 2) : 1 - active ≠ active := by
  revert active
  decide

theorem other_other (active : Fin 2) : 1 - (1 - active) = active := by
  revert active
  decide

/-- A page is ready without being valid only while it is blank. -/
theorem Page.Ready.cases (h : p.Ready) : p = ⟨.plain, []⟩ ∨ ∃ g, validGeneration p.state = some g := by
  obtain ⟨heading, items⟩ := p
  obtain h | ⟨g, h⟩ := h
  · obtain rfl : heading = .plain := h
    cases items with
    | nil => exact Or.inl rfl
    | cons item items => exact Or.inr ⟨0, rfl⟩
  · obtain rfl : heading = .committed g := h
    exact Or.inr ⟨g, rfl⟩

theorem Preferred.of_unused {active : Fin 2} (hp : validGeneration p.state = some g) (hq : validGeneration q.state = none) :
    Preferred active p q := by
  unfold Preferred
  rw [hp, hq]
  intro g' h
  cases h

/-- The other page may be blank, or written up to its header. -/
theorem Preferred.of_empty {active : Fin 2} (h : Preferred active p q) {q' : Page} (hq : q'.state = .empty) :
    Preferred active p q' := by
  unfold Preferred at *
  cases hp : validGeneration p.state with
  | none =>
    rw [hp] at h
    exact ⟨h.1, hq⟩
  | some g =>
    simp only [hq]
    intro g' h'
    cases h'

theorem isNewer_antisymm {g' : UInt32} (h : isNewerGeneration g g' = true) : isNewerGeneration g' g = false := by
  unfold isNewerGeneration at *
  simp only [bne_iff_ne, ne_eq, Bool.and_eq_true, decide_eq_true_eq, Bool.and_eq_false_iff, decide_eq_false_iff_not,
    UInt32.lt_iff_toNat_lt, UInt32.toNat_sub] at *
  right
  obtain ⟨hne, hlt⟩ := h
  have hne' : g.toNat ≠ g'.toNat := fun heq => hne (UInt32.toNat_inj.mp heq)
  have hg := g.toNat_lt
  have hg' := g'.toNat_lt
  rw [show (0x80000000 : UInt32).toNat = 2147483648 from rfl] at *
  omega

theorem isNewer_next (g : UInt32) : isNewerGeneration (nextGeneration g) g = true := by
  have hg := g.toNat_lt
  unfold isNewerGeneration nextGeneration
  simp only [bne_iff_ne, ne_eq, Bool.and_eq_true, decide_eq_true_eq, UInt32.lt_iff_toNat_lt, UInt32.toNat_sub]
  rw [show (0x80000000 : UInt32).toNat = 2147483648 from rfl]
  by_cases hzero : g + 1 = 0
  · have hmax : g.toNat = 4294967295 := by
      have hadd := congrArg UInt32.toNat hzero
      rw [UInt32.toNat_add, show (1 : UInt32).toNat = 1 from rfl, show (0 : UInt32).toNat = 0 from rfl] at hadd
      omega
    rw [if_pos hzero, hmax]
    refine ⟨fun heq => ?_, by decide⟩
    rw [← heq] at hmax
    revert hmax
    decide
  · have hnext : (g + 1).toNat = g.toNat + 1 := by
      have hne : (g + 1).toNat ≠ 0 := fun heq => hzero (UInt32.toNat_inj.mp heq)
      rw [UInt32.toNat_add, show (1 : UInt32).toNat = 1 from rfl] at *
      omega
    rw [if_neg hzero, hnext]
    refine ⟨fun heq => ?_, by omega⟩
    rw [heq] at hnext
    omega

section

variable (hlayout : layoutOk c = true) {active : Fin 2} (h : Stored c f active p q)
include hlayout h

theorem Stored.erase_other :
    Stored c (erase f (c.page (1 - active)) (c.page (1 - active) + c.eraseSize)) active p ⟨.plain, []⟩ where
  taken := h.taken.erase_other hlayout (other_page active).symm
  other := Holds.erase f _
  ready := h.ready
  preferred := by
    unfold Preferred
    cases hp : validGeneration p.state with
    | none =>
      have hpreferred := h.preferred
      unfold Preferred at hpreferred
      rw [hp] at hpreferred
      exact ⟨hpreferred.1, rfl⟩
    | some g =>
      intro g' h'
      cases h'

end

/-! ## Booting -/

/-- Take up a page and erase the other one, if it has to go. -/
def takeUp (c : Config) (active : Fin 2) (generation : UInt32) (erases : Bool) : Prog Flash Nv NvError Unit := do
  modifyRam fun nv => { nv with active := active, generation := generation }
  if erases then erasePage c (1 - active) else pure ()

section

variable {w : World Flash Nv} {active : Fin 2} {P : Post Flash Nv NvError Unit}

/-- A boot takes up the preferred page; the states of the two pages decide. -/
theorem chooseActive_of_states (hp : pageState w.disk (c.page active) = p.state)
    (hq : pageState w.disk (c.page (1 - active)) = q.state) (hready : p.Ready) (hpreferred : Preferred active p q) :
    ∃ erases, chooseActive c w = takeUp c active p.generation erases w := by
  unfold Preferred at hpreferred
  have hactive : active = 0 ∨ active = 1 := by
    clear hpreferred hq hp
    revert active
    decide
  rw [chooseActive, getDisk_bind]
  cases hg : validGeneration p.state with
  | none =>
    rw [hg] at hpreferred
    obtain ⟨rfl, hempty⟩ := hpreferred
    have hpempty : p.state = .empty := by
      rcases hready.cases with rfl | ⟨g, hsome⟩
      · rfl
      · rw [hsome] at hg
        cases hg
    rw [show (1 : Fin 2) - 0 = 1 from rfl] at hq
    rw [hp, hq, hempty, hpempty]
    refine ⟨false, ?_⟩
    unfold takeUp Page.generation
    rw [hpempty]
    rfl
  | some g =>
    rw [hg] at hpreferred
    have hgen : p.generation = g := by
      unfold Page.generation
      rw [hg]
      rfl
    rw [hgen]
    cases hg' : validGeneration q.state with
    | none =>
      refine ⟨decide (q.state = .invalid), ?_⟩
      obtain rfl | rfl := hactive
      · rw [show (1 : Fin 2) - 0 = 1 from rfl] at hq
        rw [hp, hq, hg, hg']
        by_cases hinvalid : q.state = .invalid
        · rw [hinvalid]
          rfl
        · unfold takeUp
          rw [decide_eq_false hinvalid]
          simp only [if_neg hinvalid]
          rfl
      · rw [show (1 : Fin 2) - 1 = 0 from rfl] at hq
        rw [hp, hq, hg, hg']
        by_cases hinvalid : q.state = .invalid
        · rw [hinvalid]
          rfl
        · unfold takeUp
          rw [decide_eq_false hinvalid]
          simp only [if_neg hinvalid]
          rfl
    | some g' =>
      have hnewer := hpreferred g' hg'
      refine ⟨true, ?_⟩
      obtain rfl | rfl := hactive
      · rw [show (1 : Fin 2) - 0 = 1 from rfl] at hq
        rw [hp, hq, hg, hg']
        simp only [isNewer_antisymm hnewer]
        rfl
      · rw [show (1 : Fin 2) - 1 = 0 from rfl] at hq
        rw [hp, hq, hg, hg']
        simp only [hnewer]
        rfl

theorem chooseActive_eq (hsize : PAGE_HEADER_SIZE ≤ c.eraseSize) (h : Stored c w.disk active p q) :
    ∃ erases, chooseActive c w = takeUp c active p.generation erases w :=
  chooseActive_of_states (h.taken.state hsize) (h.other.state hsize) h.ready h.preferred

theorem takeUp_wp (hlayout : layoutOk c = true) (h : Stored c w.disk active p q) {generation : UInt32} {erases : Bool}
    (hok : ∀ w' q', w'.ram.active = active → w'.ram.generation = generation → Stored c w'.disk active p q' → P.ok () w')
    (herr : ∀ e w' q', w.faults ≠ [] → Stored c w'.disk active p q' → P.err e w')
    (hcut : ∀ d q', w.faults ≠ [] → Stored c d active p q' → P.cut d) : wp (takeUp c active generation erases) w P := by
  unfold takeUp
  simp only [wp_bind, wp_modifyRam]
  cases erases with
  | false => exact hok _ q rfl rfl h
  | true =>
    have herased := h.erase_other hlayout
    rw [if_pos rfl]
    apply wp_command
    · exact fun fs _ => hok _ _ rfl rfl herased
    · exact fun hne fs _ => herr _ _ q hne h
    · exact fun hne => ⟨hcut _ q hne h, hcut _ _ hne herased⟩

theorem visit_nothing (offset : Nat) (items : List Item) :
    visitItems (fun _ _ _ _ => .ok ()) offset items () = .ok () := by
  induction items generalizing offset with
  | nil => rfl
  | cons item items ih => exact ih _

theorem Holds.writeOffset (h : Holds c f page p) (hsize : PAGE_HEADER_SIZE ≤ c.eraseSize) (hready : p.Ready) :
    findWriteOffset c f (c.page page) = .ok p.used := by
  unfold findWriteOffset
  rw [h.scan hsize hready, visit_nothing]
  rfl

/-- **A boot** takes up the map that the flash stands for, and fails only if the flash does. -/
theorem new_wp (hlayout : layoutOk c = true) (hsize : PAGE_HEADER_SIZE ≤ c.eraseSize) (h : Stored c w.disk active p q)
    (hok : ∀ w', Serves c w'.disk w'.ram p.contents → P.ok () w')
    (herr : ∀ e w', w.faults ≠ [] → Keeps c w'.disk p.contents → P.err e w')
    (hcut : ∀ d, w.faults ≠ [] → Keeps c d p.contents → P.cut d) : wp (new c) w P := by
  unfold new init
  rw [if_neg (by simp [hlayout])]
  simp only [wp_bind, wp_modifyRam]
  have hchoose : (chooseActive c).wp ⟨w.disk, ⟨0, 0, 0⟩, w.faults⟩
      ⟨fun _ w' => w'.ram.active = active ∧ w'.ram.generation = p.generation ∧ ∃ q', Stored c w'.disk active p q',
        fun _ w' => w.faults ≠ [] ∧ Keeps c w'.disk p.contents, fun d => w.faults ≠ [] ∧ Keeps c d p.contents⟩ := by
    obtain ⟨erases, heq⟩ := chooseActive_eq (w := ⟨w.disk, ⟨0, 0, 0⟩, w.faults⟩) hsize h
    unfold wp
    rw [heq]
    apply takeUp_wp hlayout
    · exact h
    · exact fun w' q' hactive hgeneration hstored => ⟨hactive, hgeneration, q', hstored⟩
    · exact fun e w' q' hne hstored => ⟨hne, active, p, q', hstored, rfl⟩
    · exact fun d q' hne hstored => ⟨hne, active, p, q', hstored, rfl⟩
  refine wp_mono hchoose ?_ ?_ ?_
  · rintro _ w' ⟨hactive, hgeneration, q', hstored⟩
    simp only [wp_getDisk, wp_getRam, wp_ofExcept, hactive, hstored.taken.writeOffset hsize hstored.ready]
    refine hok _ ⟨active, p, q', hstored, rfl, ?_⟩
    show Nv.mk active p.used w'.ram.generation = nvOf active p
    rw [hgeneration]
    rfl
  · exact fun e w' hboth => herr e w' hboth.1 hboth.2
  · exact fun d hboth => hcut d hboth.1 hboth.2

/-! ## Appending an item -/

theorem appendItemToActive_wp (h : Holds c w.disk page p) (hactive : w.ram.active = page) (hused : w.ram.writeOffset = p.used)
    (id : NvItemId) (hdata : data.length ≤ MAX_ITEM_SIZE) (hok : ∀ fs, p.used + recordSize data.length ≤ c.eraseSize →
      Holds c (program w.disk (c.page page + p.used) (encodeItem id data)) page (p.push id data) →
      P.ok () ⟨program w.disk (c.page page + p.used) (encodeItem id data),
        ⟨page, (p.push id data).used, w.ram.generation⟩, fs⟩) (herr : ∀ e fs, P.err e { w with faults := fs })
    (hcut : P.cut w.disk ∧ (p.used + recordSize data.length ≤ c.eraseSize →
      Holds c (program w.disk (c.page page + p.used) (encodeItem id data)) page (p.push id data) →
      P.cut (program w.disk (c.page page + p.used) (encodeItem id data)))) : wp (appendItemToActive c id data) w P := by
  unfold appendItemToActive
  simp only [wp_bind, wp_getRam]
  rw [hused]
  by_cases hroom : c.eraseSize < p.used + recordSize data.length
  · rw [if_pos hroom]
    exact herr .full w.faults
  · have hfits := Nat.not_lt.mp hroom
    have hpush := h.push id hfits hdata
    rw [if_neg hroom]
    simp only [wp_bind]
    rw [hactive]
    apply wp_command
    · intro fs _
      have hram := hok fs hfits hpush
      rw [push_used, ← hactive, ← hused] at hram
      rw [← hactive, ← hused]
      exact hram
    · exact fun _ fs _ => herr .hardwareError fs
    · exact fun _ => ⟨hcut.1, hcut.2 hfits hpush⟩

/-! ## Copying -/

/-- The other page during a copy. -/
def copyPage (items : List Item) : Page := ⟨.unwritten, items⟩

/-- The copy of the values that some keys have. -/
def copies (ids : List NvItemId) (p : Page) : List Item := ids.filterMap fun id => (p.contents id).map fun data => (id, data)

/-- The flash during a copy from the page `old`. -/
structure Copying (c : Config) (f : Flash) (old : Fin 2) (p : Page) (items : List Item) : Prop where
  source : Holds c f old p
  target : Holds c f (1 - old) (copyPage items)

/-- A blank page is one whose header is yet to be written. -/
theorem Holds.unwritten (h : Holds c f page ⟨.plain, []⟩) (hsize : PAGE_HEADER_SIZE ≤ c.eraseSize) :
    Holds c f page (copyPage []) where
  content := by
    rw [h.content]
    show blank (c.eraseSize - 0) = blank PAGE_HEADER_SIZE ++ blank (c.eraseSize - PAGE_HEADER_SIZE)
    rw [← blank_add]
    congr 1
    omega
  fits := hsize
  short := by simp [copyPage]

theorem copyItem_wp (hlayout : layoutOk c = true) (hsize : PAGE_HEADER_SIZE ≤ c.eraseSize) {old : Fin 2}
    (h : Copying c w.disk old p items) (hready : p.Ready) (hused : w.ram.writeOffset = (copyPage items).used) (id : NvItemId)
    (hok : ∀ w', Copying c w'.disk old p (items ++ copies [id] p) →
      w'.ram = ⟨1 - old, (copyPage (items ++ copies [id] p)).used, w.ram.generation⟩ → P.ok () w')
    (herr : ∀ e w' items', Copying c w'.disk old p items' → P.err e w') (hcut : ∀ d items', Copying c d old p items' → P.cut d) :
    wp (copyItem c old (1 - old) id.toU16) w P := by
  unfold copyItem
  rw [rawToNvItemId_toU16]
  simp only [wp_bind, wp_modifyRam, wp_getDisk, wp_ofExcept, h.source.latest hsize hready]
  cases hdata : p.contents id with
  | none =>
    have hcopies : items ++ copies [id] p = items := by simp [copies, hdata]
    rw [hcopies] at hok
    exact hok _ h (by rw [hused])
  | some data =>
    have hcopies : copies [id] p = [(id, data)] := by simp [copies, hdata]
    have hshort := (contents_short h.source hdata).2
    simp only [if_neg (Nat.not_lt.mpr hshort)]
    rw [hcopies] at hok
    have hsource : ∀ {off : Nat} {bytes : Buf}, off + bytes.length ≤ c.eraseSize →
        Holds c (program w.disk (c.page (1 - old) + off) bytes) old p :=
      fun hoff => h.source.program_other hlayout (other_page old).symm hoff
    apply appendItemToActive_wp
    · exact h.target
    · rfl
    · exact hused
    · exact hshort
    · intro fs hroom hpush
      exact hok _ ⟨hsource (by rw [encodeItem_length]; exact hroom), hpush⟩ rfl
    · exact fun e fs => herr e _ items h
    · refine ⟨hcut _ items h, fun hroom hpush => ?_⟩
      exact hcut _ _ ⟨hsource (by rw [encodeItem_length]; exact hroom), hpush⟩

/-- **The copy** of the items that have been seen. -/
theorem copyItems_wp (hlayout : layoutOk c = true) (hsize : PAGE_HEADER_SIZE ≤ c.eraseSize) {old : Fin 2} (ids : List NvItemId)
    (h : Copying c w.disk old p items) (hready : p.Ready) (hram : w.ram = ⟨1 - old, (copyPage items).used, w.ram.generation⟩)
    (hok : ∀ w', Copying c w'.disk old p (items ++ copies ids p) →
      w'.ram = ⟨1 - old, (copyPage (items ++ copies ids p)).used, w.ram.generation⟩ → P.ok () w')
    (herr : ∀ e w' items', Copying c w'.disk old p items' → P.err e w') (hcut : ∀ d items', Copying c d old p items' → P.cut d) :
    wp (copyItems c old (1 - old) (ids.map NvItemId.toU16)) w P := by
  induction ids generalizing w items with
  | nil =>
    refine hok w ?_ ?_
    · rw [show copies [] p = [] from rfl, List.append_nil]
      exact h
    · rw [show copies [] p = [] from rfl, List.append_nil]
      exact hram
  | cons id ids ih =>
    have hcopies : copies (id :: ids) p = copies [id] p ++ copies ids p := by
      unfold copies
      rw [← List.singleton_append, List.filterMap_append]
    rw [List.map_cons, copyItems]
    simp only [wp_bind]
    apply copyItem_wp hlayout hsize h hready (by rw [hram])
    · intro w' hcopying hram'
      have hgeneration : w'.ram.generation = w.ram.generation := by rw [hram']
      apply ih hcopying
      · rw [hgeneration]
        exact hram'
      · intro w'' hcopying' hram''
        rw [List.append_assoc, ← hcopies] at hcopying' hram''
        rw [hgeneration] at hram''
        exact hok w'' hcopying' hram''
    · exact herr
    · exact hcut

/-- The copy has the map of its source. -/
theorem copies_contents (h : Holds c f page p) {ids : List NvItemId} (hids : ∀ id, p.contents id ≠ none → id ∈ ids)
    (heading : Heading) : Page.contents ⟨heading, copies ids p⟩ = p.contents := by
  have hlog : (copies ids p).map (fun item => (item.1, if item.2 = [] then none else some item.2)) =
      survivors ids p.contents := by
    unfold copies survivors
    rw [List.map_filterMap]
    apply List.filterMap_congr
    intro id _
    cases hdata : p.contents id with
    | none => rfl
    | some data => simp [(contents_short h hdata).1]
  unfold Page.contents at hlog ⊢
  rw [hlog]
  exact replay_survivors hids

/-! ## Compaction -/

/-- Power is lost, or the flash fails, between the two programs of a page header. -/
def headerTorn : List Fault → Bool
  | .cut true :: _ => true
  | .none :: .cut false :: _ => true
  | .none :: .error :: _ => true
  | _ => false

/-- The same behind the erase that a compaction starts with. -/
def torn : List Fault → Bool
  | .none :: faults => headerTorn faults
  | _ => false

/-- **The two programs of a header.** -/
theorem commitPage_wp (h : Holds c w.disk page ⟨.unwritten, items⟩)
    (hok : ∀ fs, Holds c (program (program w.disk (c.page page) (headerStart g)) (c.page page + 12) PAGE_COMMIT) page
        ⟨.committed g, items⟩ →
      P.ok () { w with
        disk := program (program w.disk (c.page page) (headerStart g)) (c.page page + 12) PAGE_COMMIT, faults := fs })
    (herr : ∀ e fs, P.err e { w with faults := fs }) (hcut : P.cut w.disk ∧
      (Holds c (program (program w.disk (c.page page) (headerStart g)) (c.page page + 12) PAGE_COMMIT) page
          ⟨.committed g, items⟩ →
        P.cut (program (program w.disk (c.page page) (headerStart g)) (c.page page + 12) PAGE_COMMIT)))
    (hhalf : headerTorn w.faults = true → Holds c (program w.disk (c.page page) (headerStart g)) page ⟨.half g, items⟩ →
      (∀ e fs, P.err e { w with disk := program w.disk (c.page page) (headerStart g), faults := fs }) ∧
        P.cut (program w.disk (c.page page) (headerStart g))) : wp (commitPage c page g) w P := by
  have hhead := h.head g
  have hcommit := hhead.commit
  obtain ⟨disk, ram, faults⟩ := w
  unfold commitPage flashWrite
  rw [show PAGE_MAGIC ++ (le32 g ++ le32 (~~~g)) = headerStart g from rfl]
  -- the script decides where the header stops
  match faults with
  | [] => exact hok [] hcommit
  | .error :: fs => exact herr _ fs
  | .cut false :: _ => exact hcut.1
  | .cut true :: _ => exact (hhalf rfl hhead).2
  | [.none] => exact hok [] hcommit
  | .none :: .none :: fs => exact hok fs hcommit
  | .none :: .error :: fs => exact (hhalf rfl hhead).1 _ fs
  | .none :: .cut false :: _ => exact (hhalf rfl hhead).2
  | .none :: .cut true :: _ => exact hcut.2 hcommit

/-- What `compact`'s first loop sees. -/
theorem visitSeen_eq (offset : Nat) (items : List Item) {seen : List NvItemId} (hnodup : seen.Nodup) :
    visitItems visitSeen offset items (seen.map NvItemId.toU16) =
      .ok (((items.map (·.1)).foldl see seen).map NvItemId.toU16) := by
  induction items generalizing offset seen with
  | nil => rfl
  | cons item items ih =>
    obtain ⟨id, data⟩ := item
    have hvisit : visitSeen (seen.map NvItemId.toU16) offset id.toU16 data.length =
        .ok ((see seen id).map NvItemId.toU16) := by
      have hcontains : (seen.map NvItemId.toU16).contains id.toU16 = decide (id ∈ seen) := by
        rw [List.contains_eq_mem]
        congr 1
        rw [List.mem_map]
        exact propext ⟨fun ⟨id', hmem, heq⟩ => toU16_injective heq ▸ hmem, fun hmem => ⟨id, hmem, rfl⟩⟩
      have hfew : seen.length < MAX_SEEN_IDS := by
        have hle := (List.Nodup.subperm hnodup fun id _ => NvItemId.mem_all id).length_le
        exact Nat.lt_of_le_of_lt hle (by decide)
      unfold visitSeen see
      rw [hcontains]
      by_cases hmem : id ∈ seen
      · simp [hmem]
      · simp [hmem, hfew]
    rw [visitItems, hvisit]
    exact ih _ (see_nodup hnodup id)

theorem mem_seen (ids : List NvItemId) (seen : List NvItemId) (id : NvItemId) :
    id ∈ ids.foldl see seen ↔ id ∈ seen ∨ id ∈ ids := by
  induction ids generalizing seen with
  | nil => simp
  | cons id' ids ih =>
    rw [List.foldl_cons, ih, mem_see, List.mem_cons, or_assoc]

theorem contents_seen {id : NvItemId} (h : p.contents id ≠ none) : id ∈ (p.items.map (·.1)).foldl see [] := by
  rw [mem_seen]
  right
  by_contra habsent
  apply h
  unfold Page.contents
  apply replay_absent
  rw [List.map_map]
  exact habsent

/-- The page that a compaction writes. -/
def compacted (p : Page) : Page :=
  ⟨.committed (nextGeneration p.generation), copies ((p.items.map (·.1)).foldl see []) p⟩

theorem compacted_contents (h : Holds c f page p) : (compacted p).contents = p.contents :=
  copies_contents h (fun _ hid => contents_seen hid) _

/-- A committed copy is preferred to its source. -/
theorem compacted_preferred (active : Fin 2) (p : Page) : Preferred (1 - active) (compacted p) p := by
  unfold Preferred
  intro g' hg'
  have hgen : p.generation = g' := by
    unfold Page.generation
    rw [hg']
    rfl
  rw [← hgen]
  exact isNewer_next _

/-- Committing a copy and erasing its source. -/
theorem finish_wp (hlayout : layoutOk c = true) (h : Copying c w.disk active p (compacted p).items) (hready : p.Ready)
    (hpreferred : Preferred active p (copyPage (compacted p).items))
    (hram : w.ram = ⟨1 - active, (copyPage (compacted p).items).used, p.generation⟩)
    (htorn : p.state = .empty → headerTorn w.faults = false)
    (hok : ∀ w', Serves c w'.disk w'.ram p.contents → P.ok () w')
    (herr : ∀ e w', Serves c w'.disk w'.ram p.contents → P.err e w')
    (hcut : ∀ d, Keeps c d p.contents → P.cut d) :
    wp (do
      orRestore (nvOf active p) (commitPage c (1 - active) (nextGeneration p.generation))
      modifyRam fun now => { now with generation := nextGeneration p.generation }
      erasePage c active) w P := by
  have hmap := compacted_contents h.source
  have hsame : Stored c w.disk active p (copyPage (compacted p).items) := ⟨h.source, h.target, hready, hpreferred⟩
  have hheader : 0 + (headerStart (nextGeneration p.generation)).length ≤ c.eraseSize := by
    have hsize : PAGE_HEADER_SIZE ≤ c.eraseSize := Nat.le_trans (Nat.le_add_right _ _) h.target.fits
    rw [show (headerStart (nextGeneration p.generation)).length = 12 from rfl]
    unfold PAGE_HEADER_SIZE at hsize
    omega
  have hcommitOff : 12 + PAGE_COMMIT.length ≤ c.eraseSize := Nat.le_trans (Nat.le_add_right _ _) h.target.fits
  have hsource := h.source.program_other hlayout (other_page active).symm hheader
  rw [Nat.add_zero] at hsource
  have hsource' := hsource.program_other hlayout (other_page active).symm hcommitOff
  -- both pages are valid, and the copy is newer
  have hnew : ∀ {d : Flash}, Holds c d (1 - active) (compacted p) → Holds c d active p →
      Stored c d (1 - active) (compacted p) p := by
    intro d hcopy hold
    refine ⟨hcopy, ?_, Or.inr ⟨_, rfl⟩, compacted_preferred active p⟩
    rw [other_other]
    exact hold
  unfold orRestore
  simp only [wp_bind, wp_attempt]
  apply commitPage_wp h.target
  · intro fs hcommitted
    have hstored := hnew hcommitted hsource'
    have hserves : ∀ {d : Flash} {q' : Page}, Stored c d (1 - active) (compacted p) q' →
        Serves c d ⟨1 - active, (copyPage (compacted p).items).used, nextGeneration p.generation⟩ p.contents :=
      fun h' => ⟨1 - active, compacted p, _, h', hmap, rfl⟩
    have herased := hstored.erase_other hlayout
    rw [other_other] at herased
    simp only [wp_pure, wp_modifyRam]
    rw [hram]
    apply wp_command
    · exact fun fs' _ => hok _ (hserves herased)
    · exact fun _ fs' _ => herr _ _ (hserves hstored)
    · exact fun _ => ⟨hcut _ (hserves hstored).keeps, hcut _ (hserves herased).keeps⟩
  · intro e fs
    simp only [wp_modifyRam, wp_fail]
    exact herr _ _ ⟨active, p, _, hsame, rfl, rfl⟩
  · exact ⟨hcut _ ⟨active, p, _, hsame, rfl⟩, fun hcommitted => hcut _ ⟨1 - active, compacted p, p, hnew hcommitted hsource', hmap⟩⟩
  · intro hhalf hholds
    -- only a page that is not blank is preferred to a torn one
    obtain rfl | ⟨g, hg⟩ := hready.cases
    · rw [htorn rfl] at hhalf
      cases hhalf
    · have htorn : Stored c (program w.disk (c.page (1 - active)) (headerStart (nextGeneration p.generation))) active p _ :=
        ⟨hsource, hholds, hready, Preferred.of_unused hg rfl⟩
      refine ⟨fun e fs => ?_, hcut _ ⟨active, p, _, htorn, rfl⟩⟩
      simp only [wp_modifyRam, wp_fail]
      exact herr _ _ ⟨active, p, _, htorn, rfl, rfl⟩

/-- `compact` behind the erase of the other page. -/
theorem compactErased_wp (hlayout : layoutOk c = true) (hsize : PAGE_HEADER_SIZE ≤ c.eraseSize)
    (h : Stored c w.disk active p ⟨.plain, []⟩) (hram : w.ram = nvOf active p)
    (htorn : p.state = .empty → headerTorn w.faults = false)
    (hok : ∀ w', Serves c w'.disk w'.ram p.contents → P.ok () w')
    (herr : ∀ e w', Serves c w'.disk w'.ram p.contents → P.err e w')
    (hcut : ∀ d, Keeps c d p.contents → P.cut d) :
    wp (do
      let f ← getDisk
      let seen ← ofExcept ((scanPage c f (c.page active) visitSeen []).map (·.1))
      compactSeen c (nvOf active p) seen) w P := by
  obtain ⟨disk, ram, faults⟩ := w
  obtain rfl : ram = nvOf active p := hram
  have hseen := visitSeen_eq p.heading.bytes.length p.items List.nodup_nil
  rw [List.map_nil] at hseen
  simp only [wp_bind, wp_getDisk, wp_ofExcept, h.taken.scan hsize h.ready, hseen, Except.map]
  unfold compactSeen
  have hcopying : Copying c disk active p [] := ⟨h.taken, h.other.unwritten hsize⟩
  have hstored : ∀ {d : Flash} {items : List Item}, Copying c d active p items → Stored c d active p (copyPage items) :=
    fun hc => ⟨hc.source, hc.target, h.ready, h.preferred.of_empty rfl⟩
  have hfinish : ∀ w' : World Flash Nv, Copying c w'.disk active p (compacted p).items →
      w'.ram = ⟨1 - active, (copyPage (compacted p).items).used, p.generation⟩ →
      (p.state = .empty → headerTorn w'.faults = false) → _ := fun w' hc hr ht =>
    finish_wp hlayout hc h.ready (h.preferred.of_empty rfl) hr ht hok herr hcut
  rw [wp_bind, wp_modifyRam]
  unfold orRestore at hfinish ⊢
  simp only [wp_bind, wp_attempt] at hfinish ⊢
  obtain rfl | ⟨g, hg⟩ := h.ready.cases
  · -- nothing to copy, so that the script goes on where it stood
    exact hfinish ⟨disk, ⟨1 - active, PAGE_HEADER_SIZE, 0⟩, faults⟩ hcopying rfl htorn
  · have hvalid : p.state ≠ .empty := by
      intro hempty
      rw [hempty] at hg
      cases hg
    apply copyItems_wp (w := ⟨disk, ⟨1 - active, PAGE_HEADER_SIZE, p.generation⟩, faults⟩) hlayout hsize _ hcopying h.ready rfl
    · intro w' hc hr
      rw [List.nil_append] at hc hr
      refine hfinish { w' with ram := { w'.ram with active := 1 - active } } hc ?_ fun hempty => absurd hempty hvalid
      rw [hr]
      rfl
    · intro e w' items hc
      simp only [wp_modifyRam, wp_fail]
      exact herr _ _ ⟨active, p, _, hstored hc, rfl, rfl⟩
    · exact fun d items hc => hcut _ ⟨active, p, _, hstored hc, rfl⟩

/-- **A compaction** keeps the map, however it ends. -/
theorem compact_wp (hlayout : layoutOk c = true) (hsize : PAGE_HEADER_SIZE ≤ c.eraseSize) (h : Stored c w.disk active p q)
    (hram : w.ram = nvOf active p) (htorn : p.state = .empty → torn w.faults = false)
    (hok : ∀ w', Serves c w'.disk w'.ram p.contents → P.ok () w')
    (herr : ∀ e w', Serves c w'.disk w'.ram p.contents → P.err e w')
    (hcut : ∀ d, Keeps c d p.contents → P.cut d) : wp (compact c) w P := by
  have herased := h.erase_other hlayout
  obtain ⟨disk, ram, faults⟩ := w
  obtain rfl : ram = nvOf active p := hram
  have hrest : ∀ fs, (p.state = .empty → headerTorn fs = false) → _ := fun fs hfs =>
    compactErased_wp (w := ⟨_, nvOf active p, fs⟩) hlayout hsize herased rfl hfs hok herr hcut
  match faults with
  | [] => exact hrest [] fun _ => rfl
  | .none :: fs => exact hrest fs htorn
  | .error :: fs => exact herr _ _ ⟨active, p, q, h, rfl, rfl⟩
  | .cut false :: _ => exact hcut _ ⟨active, p, q, h, rfl⟩
  | .cut true :: _ => exact hcut _ ⟨active, p, _, herased, rfl⟩

/-! ## Writing -/

/-- What a value of an item means. -/
def valueOf (data : Buf) : Option Buf := if data = [] then none else some data

theorem push_valid (hready : p.Ready) (id : NvItemId) (data : Buf) :
    validGeneration (p.push id data).state = some p.generation := by
  obtain ⟨heading, items⟩ := p
  obtain h | ⟨g, h⟩ := hready
  · obtain rfl : heading = .plain := h
    cases items <;> rfl
  · obtain rfl : heading = .committed g := h
    rfl

theorem Preferred.push (h : Preferred active p q) (hready : p.Ready) (id : NvItemId) (data : Buf) :
    Preferred active (p.push id data) q := by
  unfold Preferred at *
  rw [push_valid hready]
  rcases hready.cases with rfl | ⟨g, hg⟩
  · intro g' hg'
    rw [h.2] at hg'
    cases hg'
  · have hgen : p.generation = g := by
      unfold Page.generation
      rw [hg]
      rfl
    rw [hg] at h
    rw [hgen]
    exact h

theorem Stored.push (hlayout : layoutOk c = true) (h : Stored c f active p q) (id : NvItemId)
    (hroom : p.used + recordSize data.length ≤ c.eraseSize) (hdata : data.length ≤ MAX_ITEM_SIZE) :
    Stored c (program f (c.page active + p.used) (encodeItem id data)) active (p.push id data) q where
  taken := h.taken.push id hroom hdata
  other := h.other.program_other hlayout (other_page active) (by rw [encodeItem_length]; exact hroom)
  ready := h.ready
  preferred := h.preferred.push h.ready id data

theorem appendToServing_wp (hlayout : layoutOk c = true) {map : Map NvItemId Buf} (h : Serves c w.disk w.ram map) (id : NvItemId)
    (hdata : data.length ≤ MAX_ITEM_SIZE)
    (hok : ∀ w', Serves c w'.disk w'.ram (Function.update map id (valueOf data)) → P.ok () w')
    (herr : ∀ e w', Serves c w'.disk w'.ram map → P.err e w')
    (hcut : ∀ d, Keeps c d map ∨ Keeps c d (Function.update map id (valueOf data)) → P.cut d) :
    wp (appendItemToActive c id data) w P := by
  obtain ⟨active, p, q, hstored, rfl, hram⟩ := h
  have hgeneration : (p.push id data).generation = p.generation := by
    unfold Page.generation
    rw [push_valid hstored.ready]
    rfl
  apply appendItemToActive_wp hstored.taken (by rw [hram]; rfl) (by rw [hram]; rfl) id hdata
  · intro fs hroom _
    refine hok _ ⟨active, _, q, hstored.push hlayout id hroom hdata, push_contents p id data, ?_⟩
    rw [hram]
    show Nv.mk active (p.push id data).used p.generation = nvOf active (p.push id data)
    rw [← hgeneration]
    rfl
  · exact fun e fs => herr e _ ⟨active, p, q, hstored, rfl, hram⟩
  · refine ⟨hcut _ (Or.inl ⟨active, p, q, hstored, rfl⟩), fun hroom _ => hcut _ (Or.inr ?_)⟩
    exact ⟨active, _, q, hstored.push hlayout id hroom hdata, push_contents p id data⟩

/-- **A write**, with the compaction that it may start. -/
theorem appendItem_wp (hlayout : layoutOk c = true) (hsize : PAGE_HEADER_SIZE ≤ c.eraseSize) (h : Stored c w.disk active p q)
    (hram : w.ram = nvOf active p) (id : NvItemId)
    (htorn : c.eraseSize < p.used + recordSize data.length → p.state = .empty → torn w.faults = false)
    (hok : ∀ w', Serves c w'.disk w'.ram (Function.update p.contents id (valueOf data)) → P.ok () w')
    (herr : ∀ e w', Serves c w'.disk w'.ram p.contents → P.err e w')
    (hcut : ∀ d, Keeps c d p.contents ∨ Keeps c d (Function.update p.contents id (valueOf data)) → P.cut d) :
    wp (appendItem c id data) w P := by
  have hserves : Serves c w.disk w.ram p.contents := ⟨active, p, q, h, rfl, hram⟩
  unfold appendItem
  by_cases hlong : MAX_ITEM_SIZE < data.length
  · rw [if_pos hlong]
    exact herr _ _ hserves
  · have hdata := Nat.not_lt.mp hlong
    rw [if_neg hlong]
    unfold makeRoom
    simp only [wp_bind, wp_getRam]
    by_cases hfull : c.eraseSize < w.ram.writeOffset + recordSize data.length
    · rw [if_pos hfull]
      apply compact_wp hlayout hsize h hram
      · apply htorn
        rw [hram] at hfull
        exact hfull
      · intro w' hserves'
        exact appendToServing_wp hlayout hserves' id hdata hok herr hcut
      · exact herr
      · exact fun d hkeeps => hcut d (Or.inl hkeeps)
    · rw [if_neg hfull]
      exact appendToServing_wp hlayout hserves id hdata hok herr hcut

end

/-! ## Histories -/

/-- Flash contents, and the store if there is one. -/
structure Machine where
  flash : Flash
  live : Option Nv

/-- Operations and reboots, each with the faults it meets. -/
inductive Event where
  | boot (faults : List Fault)
  | write (id : NvItemId) (data : Buf) (faults : List Fault)
  | delete (id : NvItemId) (faults : List Fault)
  | compact (faults : List Fault)

variable (c)

/-- How an event ends; nothing runs without a store, but for the boot that makes one. -/
def outcome (m : Machine) : Event → Option (Outcome Flash Nv NvError Unit)
  | .boot faults => some (new c ⟨m.flash, ⟨0, 0, 0⟩, faults⟩)
  | .write id data faults => m.live.map fun nv => write c id data ⟨m.flash, nv, faults⟩
  | .delete id faults => m.live.map fun nv => delete c id ⟨m.flash, nv, faults⟩
  | .compact faults => m.live.map fun nv => compact c ⟨m.flash, nv, faults⟩

/-- Does the store survive an error? -/
def Event.survives : Event → Bool
  | .boot _ => false
  | _ => true

def step (m : Machine) (e : Event) : Machine :=
  match outcome c m e with
  | none => m
  | some (.ok _ w) => ⟨w.disk, some w.ram⟩
  | some (.err _ w) => ⟨w.disk, if e.survives then some w.ram else none⟩
  | some (.cut d) => ⟨d, none⟩

def ending (m : Machine) (e : Event) : Ending :=
  match outcome c m e with
  | none => .off
  | some (.ok _ _) => .done
  | some (.err _ _) => .failed
  | some (.cut _) => .cut

/-- What an operation is for. -/
def effect : Event → Map NvItemId Buf → Map NvItemId Buf
  | .boot _ => id
  | .write id data _ => fun map => Function.update map id (some data)
  | .delete id _ => fun map => Function.update map id none
  | .compact _ => id

/-- Erased flash, before the first boot. -/
def erasedMachine : Machine := ⟨erased, none⟩

/-- The store reads as the map. -/
structure Reads (f : Flash) (nv : Nv) (map : Map NvItemId Buf) : Prop where
  read : ∀ id bufLen, readItem c f nv id bufLen =
    match map id with
    | none => .error .notFound
    | some data => if bufLen < data.length then .error .bufferTooSmall else .ok data
  existence : ∀ id, itemExists c f nv id = .ok (map id).isSome
  length : ∀ id, itemLength c f nv id =
    match map id with
    | none => .error .notFound
    | some data => .ok data.length

/-- The store reads as the map, and so does the one that the next boot makes. -/
def Shows (m : Machine) (map : Map NvItemId Buf) : Prop :=
  (∀ nv, m.live = some nv → Reads c m.flash nv map) ∧
    ∃ w, new c ⟨m.flash, ⟨0, 0, 0⟩, []⟩ = .ok () w ∧ Reads c w.disk w.ram map

/-- A compaction of a blank page does not stop in the middle of a page header. -/
def WholeHeader (m : Machine) (faults : List Fault) : Prop :=
  ∀ nv, m.live = some nv → pageState m.flash (c.page nv.active) = .empty → torn faults = false

/-- An item of `len` bytes does not fit behind the others. -/
def Full (m : Machine) (len : Nat) : Prop := ∃ nv, m.live = some nv ∧ c.eraseSize < nv.writeOffset + recordSize len

/-- No value is empty, and no compaction of a blank page stops in the middle of a page header. -/
def Benign (m : Machine) : Event → Prop
  | .boot _ => True
  | .write _ data faults => data ≠ [] ∧ (Full c m data.length → WholeHeader c m faults)
  | .delete _ faults => Full c m 0 → WholeHeader c m faults
  | .compact faults => WholeHeader c m faults

instance (m : Machine) (faults : List Fault) : Decidable (WholeHeader c m faults) :=
  decidable_of_iff (∀ nv ∈ m.live, pageState m.flash (c.page nv.active) = .empty → torn faults = false) Iff.rfl

instance (m : Machine) (len : Nat) : Decidable (Full c m len) :=
  decidable_of_iff (∃ nv ∈ m.live, c.eraseSize < nv.writeOffset + recordSize len) Iff.rfl

instance (m : Machine) (e : Event) : Decidable (Benign c m e) := by
  cases e <;> unfold Benign <;> infer_instance

variable {c} {m : Machine} {map : Map NvItemId Buf}

theorem Serves.reads (hsize : PAGE_HEADER_SIZE ≤ c.eraseSize) (h : Serves c f nv map) : Reads c f nv map := by
  obtain ⟨active, p, q, hstored, rfl, rfl⟩ := h
  exact ⟨hstored.taken.readItem hsize hstored.ready rfl, hstored.taken.itemExists hsize hstored.ready rfl,
    hstored.taken.itemLength hsize hstored.ready rfl⟩

/-- Flash and store stand for the map. -/
structure Represents (c : Config) (m : Machine) (map : Map NvItemId Buf) : Prop where
  flash : Keeps c m.flash map
  live : ∀ nv, m.live = some nv → Serves c m.flash nv map

theorem Represents.off {d : Flash} (h : Keeps c d map) : Represents c ⟨d, none⟩ map where
  flash := h
  live := by
    intro nv h
    cases h

theorem Represents.on {d : Flash} (h : Serves c d nv map) : Represents c ⟨d, some nv⟩ map where
  flash := h.keeps
  live := by
    rintro nv' ⟨⟩
    exact h

theorem stored_erased (c : Config) : Stored c erased 0 ⟨.plain, []⟩ ⟨.plain, []⟩ := by
  have hholds : ∀ page, Holds c erased page ⟨.plain, []⟩ := by
    intro page
    refine ⟨?_, Nat.zero_le _, by simp⟩
    apply List.ext_getElem
    · simp [Page.render, Page.used, Heading.bytes]
    · intro i h1 h2
      simp only [read_getElem, Page.render, Heading.bytes, encodeItems_nil, List.nil_append, blank, List.getElem_replicate]
      rfl
  exact ⟨hholds 0, hholds 1, Or.inl rfl, ⟨rfl, rfl⟩⟩

open Represents

theorem represents_erased : Represents c erasedMachine fun _ => none :=
  off ⟨0, ⟨.plain, []⟩, ⟨.plain, []⟩, stored_erased c, rfl⟩

theorem Represents.shows (hlayout : layoutOk c = true) (hsize : PAGE_HEADER_SIZE ≤ c.eraseSize) (h : Represents c m map) :
    Shows c m map := by
  refine ⟨fun nv hnv => (h.live nv hnv).reads hsize, ?_⟩
  obtain ⟨active, p, q, hstored, rfl⟩ := h.flash
  have hboot : (new c).wp ⟨m.flash, ⟨0, 0, 0⟩, []⟩
      ⟨fun _ w => Serves c w.disk w.ram p.contents, fun _ _ => False, fun _ => False⟩ := by
    apply new_wp hlayout hsize hstored
    · exact fun _ hserves => hserves
    · exact fun _ _ hne _ => hne rfl
    · exact fun _ hne _ => hne rfl
  unfold wp at hboot
  cases hrun : new c ⟨m.flash, ⟨0, 0, 0⟩, []⟩ with
  | ok u w =>
    rw [hrun] at hboot
    exact ⟨w, rfl, hboot.reads hsize⟩
  | err e w =>
    rw [hrun] at hboot
    exact hboot.elim
  | cut d =>
    rw [hrun] at hboot
    exact hboot.elim

variable {e : Event}

/-- A step ends as the weakest precondition of its operation says. -/
theorem step_of_wp {prog : Prog Flash Nv NvError Unit} {w : World Flash Nv} (ho : outcome c m e = some (prog w)) (h : prog.wp w
      ⟨fun _ w' => Represents c ⟨w'.disk, some w'.ram⟩ (effect e map),
        fun _ w' => Represents c ⟨w'.disk, if e.survives then some w'.ram else none⟩ map,
        fun d => Represents c ⟨d, none⟩ map ∨ Represents c ⟨d, none⟩ (effect e map)⟩) :
    ∃ map', Allowed (effect e) map map' (ending c m e) ∧ Represents c (step c m e) map' := by
  unfold wp at h
  unfold ending step
  rw [ho]
  cases hrun : prog w with
  | ok u w' =>
    rw [hrun] at h
    exact ⟨_, rfl, h⟩
  | err e' w' =>
    rw [hrun] at h
    exact ⟨_, rfl, h⟩
  | cut d =>
    rw [hrun] at h
    rcases h with h | h
    · exact ⟨_, Or.inl rfl, h⟩
    · exact ⟨_, Or.inr rfl, h⟩

/-- Nothing happens to a store that is not there. -/
theorem step_of_off (ho : outcome c m e = none) (h : Represents c m map) :
    ∃ map', Allowed (effect e) map map' (ending c m e) ∧ Represents c (step c m e) map' := by
  unfold ending step
  rw [ho]
  exact ⟨map, rfl, h⟩

/-- Appending, as an event. -/
theorem append_step (hlayout : layoutOk c = true) (hsize : PAGE_HEADER_SIZE ≤ c.eraseSize) (h : Represents c m map)
    (hsurvives : e.survives = true) (hnv : m.live = some nv) (id : NvItemId) {faults : List Fault}
    (ho : outcome c m e = some (appendItem c id data ⟨m.flash, nv, faults⟩))
    (heffect : effect e map = Function.update map id (valueOf data)) (htorn : Full c m data.length → WholeHeader c m faults) :
    ∃ map', Allowed (effect e) map map' (ending c m e) ∧ Represents c (step c m e) map' := by
  apply step_of_wp ho
  obtain ⟨active, p, q, hstored, rfl, rfl⟩ := h.live nv hnv
  rw [heffect, hsurvives]
  apply appendItem_wp hlayout hsize hstored rfl
  · intro hfull hempty
    exact htorn ⟨_, hnv, hfull⟩ _ hnv ((hstored.taken.state hsize).trans hempty)
  · exact fun w' hserves => on hserves
  · exact fun e w' hserves => on hserves
  · exact fun d hkeeps => hkeeps.imp off off

/-- **One step.** -/
theorem Represents.step (hlayout : layoutOk c = true) (hsize : PAGE_HEADER_SIZE ≤ c.eraseSize) (h : Represents c m map)
    (he : Benign c m e) : ∃ map', Allowed (effect e) map map' (ending c m e) ∧ Represents c (step c m e) map' := by
  cases e with
  | boot faults =>
    obtain ⟨active, p, q, hstored, rfl⟩ := h.flash
    apply step_of_wp rfl
    apply new_wp hlayout hsize hstored
    · exact fun w' hserves => on hserves
    · exact fun e w' _ hkeeps => off hkeeps
    · exact fun d _ hkeeps => Or.inl (off hkeeps)
  | write id data faults =>
    cases hlive : m.live with
    | none => exact step_of_off (by simp [outcome, hlive]) h
    | some nv =>
      apply append_step hlayout hsize h rfl hlive id
      · exact congrArg (Option.map _) hlive
      · simp [effect, valueOf, he.1]
      · exact he.2
  | delete id faults =>
    cases hlive : m.live with
    | none => exact step_of_off (by simp [outcome, hlive]) h
    | some nv =>
      apply append_step hlayout hsize h rfl hlive id
      · exact congrArg (Option.map _) hlive
      · rfl
      · exact he
  | compact faults =>
    cases hlive : m.live with
    | none => exact step_of_off (by simp [outcome, hlive]) h
    | some nv =>
      have ho : outcome c m (.compact faults) = some (compact c ⟨m.flash, nv, faults⟩) := congrArg (Option.map _) hlive
      apply step_of_wp ho
      obtain ⟨active, p, q, hstored, rfl, rfl⟩ := h.live nv hlive
      apply compact_wp hlayout hsize hstored rfl
      · exact fun hempty => he _ hlive ((hstored.taken.state hsize).trans hempty)
      · exact fun w' hserves => on hserves
      · exact fun e w' hserves => on hserves
      · exact fun d hkeeps => Or.inl (off hkeeps)

/-- **The store refines a map.** -/
theorem nv_refines_map (c : Config) (hlayout : layoutOk c = true) (hsize : PAGE_HEADER_SIZE ≤ c.eraseSize) (es : List Event)
    (hes : Along (step c) (Benign c) erasedMachine es) :
    Refines (step c) (ending c) effect (Shows c) erasedMachine (fun _ => none) es :=
  refines_of_simulation (Represents c) (fun _ _ h => h.shows hlayout hsize)
    (fun _ _ _ h he => h.step hlayout hsize he) represents_erased hes

/-! ## Runs -/

/-- Two sectors of 256 bytes. -/
def smallPages : Config where
  page := fun page => page.val * 256
  readSize := 4
  writeSize := 1
  eraseSize := 256
  capacity := 512

/-- A power cut behind the first program of a page header, while the other page is blank: `new` returns
    `Corrupt`. -/
theorem torn_header_counterexample :
    ¬ ∀ (c : Config), layoutOk c = true → PAGE_HEADER_SIZE ≤ c.eraseSize → ∀ es : List Event,
      Refines (step c) (ending c) effect (Shows c) erasedMachine (fun _ => none) es := by
  intro hall
  obtain ⟨-, _, -, -, _, -, hshows⟩ :=
    hall smallPages (by decide) (by decide) [.boot [], .compact [.none, .cut true]]
  obtain ⟨-, w, hnew, -⟩ := hshows
  have hcorrupt : (match new smallPages
      ⟨(step smallPages (step smallPages erasedMachine (.boot [])) (.compact [.none, .cut true])).flash, ⟨0, 0, 0⟩, []⟩ with
    | .ok _ _ => false
    | .err e _ => e == .corrupt
    | .cut _ => false) = true := by
    decide +kernel
  rw [hnew] at hcorrupt
  cases hcorrupt

/-- A value is written and replaced, the page compacted with a cut behind its header, and the item
    deleted after the next boot. -/
theorem write_compact_delete :
    Refines (step smallPages) (ending smallPages) effect (Shows smallPages) erasedMachine (fun _ => none)
      [.boot [], .write .nwkChannel [15] [], .write .nwkChannel [20] [.cut true], .boot [],
        .compact [.none, .none, .cut true], .boot [.error], .boot [], .delete .nwkChannel []] := by
  apply nv_refines_map smallPages (by decide) (by decide)
  decide +kernel

end Zigbee.Runtime.LogNv
