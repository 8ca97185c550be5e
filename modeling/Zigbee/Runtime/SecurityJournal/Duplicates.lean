import Zigbee.Lib.RankedMerge
import Zigbee.Runtime.SecurityJournal.Coherence

/-!
# Duplicate generations

Committed records that share the newest generation, in any slots of the two sectors, and the state that the next boot
loads from them.

* `copies` — the states of the newest generation in the order of the scan.
* `copyOf` — a state as a ranked copy: its reservations, and the rest.
* `DuplicatesSafe` — the state loaded depends on the slots only through the order of equal reservations, and covers the
  limits of every copy.
* `duplicates_safe_iff` — for which copies that is so.
-/

namespace Zigbee.Runtime

attribute [ext] PersistentSecurityState

/-- The encoding determines the state. -/
theorem PersistentSecurityState.encode_inj {s s' : PersistentSecurityState} (h : s.encode = s'.encode) : s = s' := by
  obtain ⟨h0, h1, h2, h3, h4, h6, h8, h10, h11, h12, h16, h24, h32, h48, h56, h72, h76, h80, h81, h97, h98, h99, h100, h101⟩ :=
    encode_fields s
  obtain ⟨-, f1, f2, f3, f4, f5, f6, f7, f8⟩ := encodeFlags_roundtrip s
  obtain ⟨-, l1, l2, l3, l4, l5⟩ := encodeLifecycle_roundtrip s
  obtain ⟨g0, g1, g2, g3, g4, g6, g8, g10, g11, g12, g16, g24, g32, g48, g56, g72, g76, g80, g81, g97, g98, g99, g100, g101⟩ :=
    encode_fields s'
  obtain ⟨-, e1, e2, e3, e4, e5, e6, e7, e8⟩ := encodeFlags_roundtrip s'
  obtain ⟨-, k1, k2, k3, k4, k5⟩ := encodeLifecycle_roundtrip s'
  have hjoin : s.nodeJoinLinkKeyType = s'.nodeJoinLinkKeyType := by
    rw [h, g98] at h98
    have hback := congrArg NodeJoinLinkKeyType.fromU8 h98.symm
    rw [NodeJoinLinkKeyType.fromU8_toU8, NodeJoinLinkKeyType.fromU8_toU8] at hback
    exact Option.some.inj hback
  rw [h] at h0 h1 h2 h3 h4 h6 h8 h10 h11 h12 h16 h24 h32 h48 h56 h72 h76 h80 h81 h97 h99 h100 h101
  rw [g0] at h0
  rw [← h0] at f1 f2 f3 f4 f5 f6 f7 f8
  rw [g100] at h100
  rw [← h100] at l1 l2 l3 l4 l5
  have hprevious : s.secondaryNetworkKeyIsPrevious = s'.secondaryNetworkKeyIsPrevious := by
    have hbyte := h99.symm.trans g99
    cases hp : s.secondaryNetworkKeyIsPrevious <;> cases hp' : s'.secondaryNetworkKeyIsPrevious <;> simp [hp, hp'] at hbyte ⊢
  have hpending : s.pendingPanId = s'.pendingPanId := by
    have hvalue := h101.symm.trans g101
    have hsome := l1.symm.trans k1
    cases hp : s.pendingPanId <;> cases hp' : s'.pendingPanId <;> simp [hp, hp'] at hvalue hsome ⊢
    exact hvalue
  apply PersistentSecurityState.ext
  · exact f1.symm.trans e1
  · exact h16.symm.trans g16
  · exact h4.symm.trans g4
  · exact h6.symm.trans g6
  · exact h24.symm.trans g24
  · exact h1.symm.trans g1
  · exact h2.symm.trans g2
  · exact h8.symm.trans g8
  · exact h3.symm.trans g3
  · exact f8.symm.trans e8
  · exact h32.symm.trans g32
  · exact h10.symm.trans g10
  · exact f6.symm.trans e6
  · exact h81.symm.trans g81
  · exact h80.symm.trans g80
  · exact hprevious
  · exact l5.symm.trans k5
  · exact h12.symm.trans g12
  · exact f2.symm.trans e2
  · exact f5.symm.trans e5
  · exact h48.symm.trans g48
  · exact h56.symm.trans g56
  · exact h72.symm.trans g72
  · exact h76.symm.trans g76
  · exact f3.symm.trans e3
  · exact f4.symm.trans e4
  · exact h11.symm.trans g11
  · exact f7.symm.trans e7
  · exact h97.symm.trans g97
  · exact hjoin
  · exact hpending
  · exact l2.symm.trans k2
  · exact l3.symm.trans k3
  · exact l4.symm.trans k4

variable {rs : List (UInt32 × PersistentSecurityState)} (cfg : Geometry)

namespace SecurityJournal

open Bytes NorFlash RankedMerge

/-! ## States as ranked copies -/

/-- The states hold the same Trust Center link key. -/
def SameTclk (a b : PersistentSecurityState) : Prop :=
  a.tclkPresent = true ∧ b.tclkPresent = true ∧ a.trustCenterAddress = b.trustCenterAddress ∧ a.trustCenterLinkKey = b.trustCenterLinkKey

instance : DecidableRel SameTclk := fun _ _ => inferInstanceAs (Decidable (_ ∧ _ ∧ _ ∧ _))

theorem SameTclk.symm (a b : PersistentSecurityState) (h : SameTclk a b) : SameTclk b a :=
  ⟨h.2.1, h.1, h.2.2.1.symm, h.2.2.2.symm⟩

theorem SameTclk.trans (a b c : PersistentSecurityState) (h : SameTclk a b) (h' : SameTclk b c) : SameTclk a c :=
  ⟨h.1, h'.2.1, h.2.2.1.trans h'.2.2.1, h.2.2.2.trans h'.2.2.2⟩

/-- The reservations of a state, and the state without them. -/
def copyOf (s : PersistentSecurityState) : Copy PersistentSecurityState where
  high := s.globalCounterLimit.toNat
  low := s.tclkCounterLimit.toNat
  core := { s with globalCounterLimit := 0, tclkCounterLimit := 0 }

theorem copyOf_inj {s s' : PersistentSecurityState} (h : copyOf s = copyOf s') : s = s' := by
  have hhigh : s.globalCounterLimit = s'.globalCounterLimit := UInt32.toNat_inj.mp (congrArg Copy.high h)
  have hlow : s.tclkCounterLimit = s'.tclkCounterLimit := UInt32.toNat_inj.mp (congrArg Copy.low h)
  have hcore := congrArg Copy.core h
  have hback : ∀ s : PersistentSecurityState, s =
      { (copyOf s).core with globalCounterLimit := s.globalCounterLimit, tclkCounterLimit := s.tclkCounterLimit } := fun _ => rfl
  rw [hback s, hback s', hcore, hhigh, hlow]

theorem sameTclk_copyOf (s s' : PersistentSecurityState) : SameTclk (copyOf s).core (copyOf s').core ↔ SameTclk s s' := Iff.rfl

/-- **Resolving a duplicate generation is a merge.** -/
theorem copyOf_resolve (a b : LocatedState) :
    copyOf (resolveDuplicateGeneration a b).state = merge SameTclk (copyOf a.state) (copyOf b.state) := by
  by_cases heq : a.state.encode = b.state.encode
  · rw [resolveDuplicateGeneration, if_pos heq, PersistentSecurityState.encode_inj heq, merge_self]
  have hrank : (a.state.globalCounterLimit < b.state.globalCounterLimit ∨
      (a.state.globalCounterLimit = b.state.globalCounterLimit ∧ a.state.tclkCounterLimit ≤ b.state.tclkCounterLimit)) ↔
      (copyOf a.state).Le (copyOf b.state) := by
    rw [UInt32.lt_iff_toNat_lt, UInt32.le_iff_toNat_le, ← UInt32.toNat_inj]
    exact Iff.rfl
  have hsame : (a.state.tclkPresent && b.state.tclkPresent && a.state.trustCenterAddress == b.state.trustCenterAddress &&
      a.state.trustCenterLinkKey == b.state.trustCenterLinkKey) = true ↔ SameTclk a.state b.state := by
    simp [SameTclk, and_assoc]
  rw [resolveDuplicateGeneration, if_neg heq]
  by_cases hle : (copyOf a.state).Le (copyOf b.state)
  · have hmax : max (copyOf a.state).high (copyOf b.state).high = (copyOf b.state).high := by
      unfold Copy.Le at hle
      omega
    rw [merge_of_le hle]
    simp only [if_pos (hrank.mpr hle)]
    by_cases hs : SameTclk a.state b.state
    · rw [if_pos (hsame.mpr hs), if_pos ((sameTclk_copyOf _ _).mpr hs), copyOf, UInt32.toNat_max, UInt32.toNat_max]
      exact congrArg (fun h => Copy.mk h _ _) hmax
    · rw [if_neg (fun h => hs (hsame.mp h)), if_neg (fun h => hs ((sameTclk_copyOf _ _).mp h)), copyOf, UInt32.toNat_max]
      exact congrArg (fun h => Copy.mk h _ _) hmax
  · have hmax : max (copyOf a.state).high (copyOf b.state).high = (copyOf a.state).high := by
      unfold Copy.Le at hle
      omega
    rw [merge_of_not_le hle]
    simp only [if_neg (fun h => hle (hrank.mp h))]
    by_cases hs : SameTclk a.state b.state
    · rw [if_pos (hsame.mpr hs), if_pos ((sameTclk_copyOf _ _).mpr hs), copyOf, UInt32.toNat_max, UInt32.toNat_max]
      exact congrArg (fun h => Copy.mk h _ _) hmax
    · rw [if_neg (fun h => hs (hsame.mp h)), if_neg (fun h => hs ((sameTclk_copyOf _ _).mp h)), copyOf, UInt32.toNat_max]
      exact congrArg (fun h => Copy.mk h _ _) hmax

/-! ## The scan -/

/-- Every slot in the order of the scan. -/
def Config.slots (cfg : Config) (f : Flash) : List Buf := cfg.sectorSlots f 0 ++ cfg.sectorSlots f 1

/-- The records of which none is newer. -/
def newestRecords (rs : List (UInt32 × PersistentSecurityState)) : List (UInt32 × PersistentSecurityState) :=
  rs.filter fun r => rs.all fun r' => decide (r'.1 ≤ r.1)

/-- The states of the newest generation, in scan order. -/
def copiesIn (slots : List Buf) : List PersistentSecurityState := (newestRecords (slots.filterMap decodeRecord)).map (·.2)

def Config.copies (cfg : Config) (f : Flash) : List PersistentSecurityState := copiesIn (cfg.slots f)

/-- The scan over some records has this result. -/
def Scanned (rs : List (UInt32 × PersistentSecurityState)) : Option LocatedState → Prop
  | none => rs = []
  | some l => (∀ r ∈ rs, r.1 ≤ l.generation) ∧ (∃ r ∈ rs, r.1 = l.generation) ∧
      loaded SameTclk ((rs.filter fun r => r.1 = l.generation).map fun r => copyOf r.2) = some (copyOf l.state)

theorem scanned_step {acc : Option LocatedState} (h : Scanned rs acc) (sector : Fin 2) (record : Buf) :
    Scanned (rs ++ (decodeRecord record).toList) (newestStep sector acc record) := by
  unfold newestStep
  cases hdecode : decodeRecord record with
  | none => simpa using h
  | some r =>
    obtain ⟨generation, state⟩ := r
    rw [Option.toList_some]
    cases acc with
    | none =>
      cases h
      simp [Scanned, loaded, mergeStep]
    | some current =>
      obtain ⟨hmax, ⟨r, hr, hgen⟩, hload⟩ := h
      dsimp only
      have hmem : ∀ {g : UInt32}, (∀ r ∈ rs, r.1 ≤ g) → generation ≤ g → ∀ r ∈ rs ++ [(generation, state)], r.1 ≤ g := by
        intro g hrs hg r hr
        rcases List.mem_append.mp hr with hr | hr
        · exact hrs r hr
        · rw [List.mem_singleton.mp hr]
          exact hg
      by_cases hnewer : current.generation < generation
      · rw [if_pos hnewer]
        have hnone : (rs.filter fun r => r.1 = generation) = [] := by
          rw [List.filter_eq_nil_iff]
          intro r hr heq
          rw [decide_eq_true_iff] at heq
          have := hmax r hr
          rw [heq, UInt32.le_iff_toNat_le] at this
          rw [UInt32.lt_iff_toNat_lt] at hnewer
          omega
        refine ⟨hmem (fun r hr => ?_) (UInt32.le_refl _), ⟨_, List.mem_append_right rs List.mem_cons_self, rfl⟩, ?_⟩
        · exact UInt32.le_trans (hmax r hr) (UInt32.le_of_lt hnewer)
        · rw [List.filter_append, hnone]
          simp [loaded, mergeStep]
      · rw [if_neg hnewer]
        by_cases hsame : generation = current.generation
        · rw [if_pos hsame]
          have hgeneration := resolveDuplicateGeneration_generation current ⟨generation, sector, state, recordTag record⟩ hsame
          refine ⟨?_, ⟨_, List.mem_append_right rs List.mem_cons_self, ?_⟩, ?_⟩
          · rw [hgeneration]
            exact hmem hmax (by rw [hsame]; exact UInt32.le_refl _)
          · rw [hgeneration]
            exact hsame
          · rw [hgeneration, List.filter_append, List.filter_cons_of_pos (by simpa using hsame), List.filter_nil, List.map_append,
              List.map_singleton, loaded_concat, hload, Option.elim_some, copyOf_resolve]
        · rw [if_neg hsame]
          refine ⟨hmem hmax ?_, ⟨r, List.mem_append_left _ hr, hgen⟩, ?_⟩
          · rw [UInt32.le_iff_toNat_le]
            rw [UInt32.lt_iff_toNat_lt] at hnewer
            omega
          · rw [List.filter_append, List.filter_cons_of_neg (by simpa using hsame), List.filter_nil, List.append_nil]
            exact hload

theorem scanned_foldl (sector : Fin 2) (slots : List Buf) {acc : Option LocatedState} (h : Scanned rs acc) :
    Scanned (rs ++ slots.filterMap decodeRecord) (slots.foldl (newestStep sector) acc) := by
  induction slots generalizing rs acc with
  | nil => simpa using h
  | cons record slots ih =>
    have hnext := ih (scanned_step h sector record)
    rw [List.append_assoc] at hnext
    have hsplit : (record :: slots).filterMap decodeRecord = (decodeRecord record).toList ++ slots.filterMap decodeRecord := by
      rw [List.filterMap_cons]
      cases decodeRecord record <;> rfl
    rw [hsplit]
    exact hnext

/-- **The scan loads the merge of the newest copies.** -/
theorem newest_eq_loaded (cfg : Config) (f : Flash) :
    ((cfg.newest f).map fun l => copyOf l.state) = loaded SameTclk ((cfg.copies f).map copyOf) := by
  have hscan : Scanned ((cfg.slots f).filterMap decodeRecord) (cfg.newest f) := by
    rw [Config.slots, List.filterMap_append]
    exact scanned_foldl 1 _ (scanned_foldl 0 _ (show Scanned [] none from rfl))
  rw [Config.copies, copiesIn, newestRecords, List.map_map]
  cases hnewest : cfg.newest f with
  | none =>
    rw [hnewest] at hscan
    rw [show (cfg.slots f).filterMap decodeRecord = [] from hscan]
    rfl
  | some l =>
    rw [hnewest] at hscan
    obtain ⟨hmax, ⟨r, hr, hgen⟩, hload⟩ := hscan
    rw [Option.map_some, ← hload]
    congr 2
    refine List.filter_congr fun r' hr' => ?_
    rw [eq_comm, Bool.eq_iff_iff, List.all_eq_true, decide_eq_true_iff]
    constructor
    · intro hall
      have hle := hmax r' hr'
      have hge := of_decide_eq_true (hall r hr)
      rw [hgen] at hge
      exact UInt32.le_antisymm hle hge
    · intro heq r'' hr''
      rw [heq]
      exact decide_eq_true (hmax r'' hr'')

/-! ## Other places for the records -/

/-- The flash with the slots of its sectors replaced. -/
def Config.place (cfg : Config) (f : Flash) (first second : List Buf) : Flash := fun a =>
  if cfg.sectors 0 ≤ a ∧ a < cfg.sectors 0 + cfg.sectorSize then
    u8At (first.getD ((a - cfg.sectors 0) / SECURITY_JOURNAL_SLOT_SIZE) []) ((a - cfg.sectors 0) % SECURITY_JOURNAL_SLOT_SIZE)
  else if cfg.sectors 1 ≤ a ∧ a < cfg.sectors 1 + cfg.sectorSize then
    u8At (second.getD ((a - cfg.sectors 1) / SECURITY_JOURNAL_SLOT_SIZE) []) ((a - cfg.sectors 1) % SECURITY_JOURNAL_SLOT_SIZE)
  else f a

theorem slots_getElem (cfg : Config) {k i : Nat} (hk : k < cfg.slotsPerSector) (hi : i < SECURITY_JOURNAL_SLOT_SIZE) :
    k * SECURITY_JOURNAL_SLOT_SIZE + i < cfg.sectorSize ∧ (k * SECURITY_JOURNAL_SLOT_SIZE + i) / SECURITY_JOURNAL_SLOT_SIZE = k ∧
      (k * SECURITY_JOURNAL_SLOT_SIZE + i) % SECURITY_JOURNAL_SLOT_SIZE = i := by
  simp only [Config.slotsPerSector, SECURITY_JOURNAL_SLOT_SIZE] at *
  omega

theorem list_eq_of_bytes {data : Buf} {n : Nat} (h : data.length = n) : (List.range n).map (u8At data) = data := by
  apply List.ext_getElem
  · simp [h]
  · intro i h1 h2
    simp [u8At, List.getElem?_eq_getElem h2]

theorem sectorSlots_place (f : Flash) (first second : List Buf) (hfirst : first.length = cfg.slotsPerSector)
    (hsecond : second.length = cfg.slotsPerSector) (hbytes : ∀ b ∈ first ++ second, b.length = SECURITY_JOURNAL_SLOT_SIZE) :
    cfg.sectorSlots (cfg.place f first second) 0 = first ∧ cfg.sectorSlots (cfg.place f first second) 1 = second := by
  have hapart : ¬ max (cfg.sectors 0) (cfg.sectors 1) - min (cfg.sectors 0) (cfg.sectors 1) < cfg.sectorSize := by
    intro h
    exact cfg.accepted (Or.inr (Or.inr (Or.inr (Or.inr (Or.inl h)))))
  constructor
  · apply List.ext_getElem
    · simp [Config.sectorSlots, hfirst]
    · intro k h1 h2
      have hk : k < cfg.slotsPerSector := hfirst ▸ h2
      simp only [Config.sectorSlots, List.getElem_map, List.getElem_range, Config.readSlot, Config.slotAddress]
      rw [← list_eq_of_bytes (hbytes _ (List.mem_append_left _ (List.getElem_mem h2)))]
      refine List.map_congr_left fun i hi => ?_
      obtain ⟨hlt, hdiv, hmod⟩ := slots_getElem cfg.toConfig hk (List.mem_range.mp hi)
      have hoff : cfg.sectors 0 + k * SECURITY_JOURNAL_SLOT_SIZE + i - cfg.sectors 0 = k * SECURITY_JOURNAL_SLOT_SIZE + i := by omega
      rw [Config.place, if_pos (by omega), hoff, hdiv, hmod, List.getD_eq_getElem?_getD, List.getElem?_eq_getElem h2, Option.getD_some]
  · apply List.ext_getElem
    · simp [Config.sectorSlots, hsecond]
    · intro k h1 h2
      have hk : k < cfg.slotsPerSector := hsecond ▸ h2
      simp only [Config.sectorSlots, List.getElem_map, List.getElem_range, Config.readSlot, Config.slotAddress]
      rw [← list_eq_of_bytes (hbytes _ (List.mem_append_right _ (List.getElem_mem h2)))]
      refine List.map_congr_left fun i hi => ?_
      obtain ⟨hlt, hdiv, hmod⟩ := slots_getElem cfg.toConfig hk (List.mem_range.mp hi)
      have hoff : cfg.sectors 1 + k * SECURITY_JOURNAL_SLOT_SIZE + i - cfg.sectors 1 = k * SECURITY_JOURNAL_SLOT_SIZE + i := by omega
      rw [Config.place, if_neg (by omega), if_pos (by omega), hoff, hdiv, hmod, List.getD_eq_getElem?_getD, List.getElem?_eq_getElem h2, Option.getD_some]

/-- The flash holds the same slots, each in any of the places. -/
def Rearranged (cfg : Config) (f f' : Flash) : Prop := (cfg.slots f').Perm (cfg.slots f)

theorem exists_rearranged (f : Flash) {l : List Buf} (h : l.Perm (cfg.slots f)) :
    ∃ f', Rearranged cfg.toConfig f f' ∧ cfg.slots f' = l := by
  have hlen : ∀ s, (cfg.sectorSlots f s).length = cfg.slotsPerSector := fun s => by simp [Config.sectorSlots]
  have htotal : l.length = cfg.slotsPerSector + cfg.slotsPerSector := by
    rw [h.length_eq, Config.slots, List.length_append, hlen, hlen]
  have hbytes : ∀ b ∈ l, b.length = SECURITY_JOURNAL_SLOT_SIZE := by
    intro b hb
    have hmem : ∀ {s}, b ∈ cfg.sectorSlots f s → b.length = SECURITY_JOURNAL_SLOT_SIZE := by
      intro s hs
      obtain ⟨k, -, rfl⟩ := List.mem_map.mp hs
      exact read_length _ _ _
    rcases List.mem_append.mp (h.mem_iff.mp hb) with hs | hs
    · exact hmem hs
    · exact hmem hs
  obtain ⟨hfirst, hsecond⟩ := sectorSlots_place cfg f (l.take cfg.slotsPerSector) (l.drop cfg.slotsPerSector)
    (by rw [List.length_take]; omega) (by rw [List.length_drop]; omega) (by rw [List.take_append_drop]; exact hbytes)
  have hslots : cfg.slots (cfg.place f (l.take cfg.slotsPerSector) (l.drop cfg.slotsPerSector)) = l := by
    rw [Config.slots, hfirst, hsecond, List.take_append_drop]
  exact ⟨_, by rw [Rearranged, hslots]; exact h, hslots⟩

/-- The state of a slot, if its record is one of the newest. -/
def newestIn (rs : List (UInt32 × PersistentSecurityState)) (record : Buf) : Option PersistentSecurityState :=
  ((decodeRecord record).filter fun r => rs.all fun r' => decide (r'.1 ≤ r.1)).map (·.2)

theorem copiesIn_eq (slots : List Buf) : copiesIn slots = slots.filterMap (newestIn (slots.filterMap decodeRecord)) := by
  rw [copiesIn, newestRecords, List.filter_filterMap, List.map_filterMap]
  rfl

theorem newestIn_perm {rs' : List (UInt32 × PersistentSecurityState)} (h : rs'.Perm rs) : newestIn rs' = newestIn rs := by
  funext record
  have hsame : (fun r : UInt32 × PersistentSecurityState => rs'.all fun r' => decide (r'.1 ≤ r.1)) =
      fun r => rs.all fun r' => decide (r'.1 ≤ r.1) := by
    funext r
    rw [Bool.eq_iff_iff, List.all_eq_true, List.all_eq_true]
    exact ⟨fun hall r' hr' => hall r' (h.mem_iff.mpr hr'), fun hall r' hr' => hall r' (h.mem_iff.mp hr')⟩
  rw [newestIn, newestIn, hsame]

/-- A rearrangement of what is picked comes from one of what it is picked from. -/
theorem exists_perm_filterMap {α β : Type} {f : α → Option β} {l : List β} {s : List α} (h : l.Perm (s.filterMap f)) :
    ∃ s' : List α, s'.Perm s ∧ s'.filterMap f = l := by
  induction l generalizing s with
  | nil => exact ⟨s, List.Perm.refl s, h.symm.eq_nil⟩
  | cons b l ih =>
    obtain ⟨a, ha, hab⟩ := List.mem_filterMap.mp (h.mem_iff.mp List.mem_cons_self)
    obtain ⟨p, q, rfl⟩ := List.append_of_mem ha
    have hmiddle : (p ++ a :: q).Perm (a :: (p ++ q)) := List.perm_middle
    have hcons := h.trans (hmiddle.filterMap f)
    rw [List.filterMap_cons_some hab] at hcons
    obtain ⟨s', hperm, hpick⟩ := ih hcons.cons_inv
    refine ⟨a :: s', (hperm.cons a).trans hmiddle.symm, ?_⟩
    rw [List.filterMap_cons_some hab, hpick]

/-- The copies of rearranged slots are rearranged. -/
theorem copies_perm {cfg : Config} {f f' : Flash} (h : Rearranged cfg f f') : (cfg.copies f').Perm (cfg.copies f) := by
  rw [Config.copies, Config.copies, copiesIn_eq, copiesIn_eq, newestIn_perm (h.filterMap decodeRecord)]
  exact h.filterMap _

/-- Every order of the copies is the order of some arrangement of the slots. -/
theorem exists_copies (f : Flash) {l : List PersistentSecurityState} (h : l.Perm (cfg.copies f)) :
    ∃ f', Rearranged cfg.toConfig f f' ∧ cfg.copies f' = l := by
  rw [Config.copies, copiesIn_eq] at h
  obtain ⟨slots, hperm, hcopies⟩ := exists_perm_filterMap h
  obtain ⟨f', hf', hslots⟩ := exists_rearranged cfg f hperm
  refine ⟨f', hf', ?_⟩
  rw [Config.copies, copiesIn_eq, hslots, newestIn_perm (hperm.filterMap decodeRecord), hcopies]

/-! ## What the next boot loads -/

/-- The state a fresh journal loads. -/
def bootState (cfg : Geometry) (f : Flash) : Except SecurityStoreError (Option PersistentSecurityState) :=
  (fresh f).observe (load cfg.toConfig)

theorem bootState_eq (f : Flash) : bootState cfg f = .ok ((cfg.newest f).map (·.state)) := by
  rw [bootState, Machine.observe, load, current, if_neg cfg.accepted]
  rfl

/-- Equal reservations are met in the same order. -/
def SameTies (l l' : List PersistentSecurityState) : Prop :=
  ∀ global tclk, (l.filter fun s => s.globalCounterLimit = global ∧ s.tclkCounterLimit = tclk) =
    l'.filter fun s => s.globalCounterLimit = global ∧ s.tclkCounterLimit = tclk

/-- Wherever the slots are, the boot loads the same state but for the order of equal reservations, and its limits cover
    every copy's global limit and the link-key limit of the copies with its link key. -/
structure DuplicatesSafe (cfg : Geometry) (f : Flash) : Prop where
  orderFree : ∀ f' f'', Rearranged cfg.toConfig f f' → Rearranged cfg.toConfig f f'' → SameTies (cfg.copies f') (cfg.copies f'') →
    bootState cfg f' = bootState cfg f''
  covers : ∀ f', Rearranged cfg.toConfig f f' → ∀ s, bootState cfg f' = .ok (some s) → ∀ c ∈ cfg.copies f,
    c.globalCounterLimit ≤ s.globalCounterLimit ∧ (SameTclk c s → c.tclkCounterLimit ≤ s.tclkCounterLimit)

theorem exists_perm_map {l : List (Copy PersistentSecurityState)} {s : List PersistentSecurityState} (h : l.Perm (s.map copyOf)) :
    ∃ s' : List PersistentSecurityState, s'.Perm s ∧ s'.map copyOf = l := by
  rw [← List.filterMap_eq_map] at h
  obtain ⟨s', hperm, hmap⟩ := exists_perm_filterMap h
  rw [List.filterMap_eq_map] at hmap
  exact ⟨s', hperm, hmap⟩

theorem sameTies_map (l l' : List PersistentSecurityState) :
    RankedMerge.SameTies (l.map copyOf) (l'.map copyOf) ↔ SameTies l l' := by
  have hfilter : ∀ (l : List PersistentSecurityState) (global tclk : UInt32),
      ((l.map copyOf).filter fun c => c.high = global.toNat ∧ c.low = tclk.toNat) =
        (l.filter fun s => s.globalCounterLimit = global ∧ s.tclkCounterLimit = tclk).map copyOf := by
    intro l global tclk
    rw [List.filter_map]
    congr 1
    refine List.filter_congr fun s _ => ?_
    simp [copyOf, UInt32.toNat_inj]
  constructor
  · intro h global tclk
    have hties := h global.toNat tclk.toNat
    rw [hfilter, hfilter] at hties
    exact List.map_injective_iff.mpr (fun a b => copyOf_inj) hties
  · intro h high low
    by_cases hsmall : high < 2 ^ 32 ∧ low < 2 ^ 32
    · obtain ⟨global, rfl⟩ : ∃ v : UInt32, high = v.toNat := ⟨UInt32.ofNat high, (UInt32.toNat_ofNat_of_lt' hsmall.1).symm⟩
      obtain ⟨tclk, rfl⟩ : ∃ v : UInt32, low = v.toNat := ⟨UInt32.ofNat low, (UInt32.toNat_ofNat_of_lt' hsmall.2).symm⟩
      rw [hfilter, hfilter, h]
    · have hnone : ∀ l : List PersistentSecurityState, ((l.map copyOf).filter fun c => c.high = high ∧ c.low = low) = [] := by
        intro l
        rw [List.filter_eq_nil_iff]
        intro c hc htie
        obtain ⟨s, -, rfl⟩ := List.mem_map.mp hc
        obtain ⟨rfl, rfl⟩ := of_decide_eq_true htie
        exact hsmall ⟨s.globalCounterLimit.toNat_lt, s.tclkCounterLimit.toNat_lt⟩
      rw [hnone, hnone]

theorem safe_map (f : Flash) : DuplicatesSafe cfg f ↔ Safe SameTclk ((cfg.copies f).map copyOf) := by
  constructor
  · intro h
    refine ⟨fun l l' hl hl' hties => ?_, fun l hl r hr c hc => ?_⟩
    · obtain ⟨s, hs, rfl⟩ := exists_perm_map hl
      obtain ⟨s', hs', rfl⟩ := exists_perm_map hl'
      obtain ⟨f₁, hf₁, rfl⟩ := exists_copies cfg f hs
      obtain ⟨f₂, hf₂, rfl⟩ := exists_copies cfg f hs'
      have hboot := h.orderFree f₁ f₂ hf₁ hf₂ ((sameTies_map _ _).mp hties)
      rw [bootState_eq, bootState_eq] at hboot
      have hstate := congrArg (Option.map copyOf) (Except.ok.inj hboot)
      rw [Option.map_map, Option.map_map] at hstate
      rw [← newest_eq_loaded, ← newest_eq_loaded]
      exact hstate
    · obtain ⟨s, hs, rfl⟩ := exists_perm_map hl
      obtain ⟨f₁, hf₁, rfl⟩ := exists_copies cfg f hs
      rw [← newest_eq_loaded, Option.mem_def, Option.map_eq_some_iff] at hr
      obtain ⟨located, hlocated, rfl⟩ := hr
      obtain ⟨state, hstate, rfl⟩ := List.mem_map.mp hc
      have hboot : bootState cfg f₁ = .ok (some located.state) := by rw [bootState_eq, hlocated]; rfl
      exact h.covers f₁ hf₁ _ hboot state hstate
  · intro h
    refine ⟨fun f₁ f₂ hf₁ hf₂ hties => ?_, fun f₁ hf₁ s hs c hc => ?_⟩
    · have hload := h.orderFree _ _ ((copies_perm hf₁).map copyOf) ((copies_perm hf₂).map copyOf) ((sameTies_map _ _).mpr hties)
      rw [← newest_eq_loaded, ← newest_eq_loaded] at hload
      rw [bootState_eq, bootState_eq]
      congr 1
      refine Option.map_injective (fun a b => copyOf_inj) ?_
      rw [Option.map_map, Option.map_map]
      exact hload
    · rw [bootState_eq] at hs
      have hload : copyOf s ∈ loaded SameTclk ((cfg.copies f₁).map copyOf) := by
        rw [← newest_eq_loaded, Option.mem_def]
        have hstate := congrArg (Option.map copyOf) (Except.ok.inj hs)
        rw [Option.map_map] at hstate
        exact hstate
      exact h.covers _ ((copies_perm hf₁).map copyOf) _ hload _ (List.mem_map_of_mem hc)

/-- **Duplicate generations are resolved safely exactly when no copy usurps or overtakes another.**  The scan merges the
    newest copies two at a time, and a limit that one merge raises counts in the rank of the next. -/
theorem duplicates_safe_iff (cfg : Geometry) (f : Flash) :
    DuplicatesSafe cfg f ↔
      ¬ Usurped SameTclk ((cfg.copies f).map copyOf) ∧ ¬ Overtaken SameTclk ((cfg.copies f).map copyOf) := by
  rw [safe_map]
  exact safe_iff SameTclk.symm SameTclk.trans _

/-! ## Three copies -/

namespace Sample

/-- Reservations and a link key of a joined device. -/
def copyWith (global tclk : UInt32) (key : UInt8) : PersistentSecurityState :=
  { commissionedState with globalCounterLimit := global, tclkCounterLimit := tclk, trustCenterLinkKey := Vector.replicate 16 key }

def erasedSlot : Buf := List.replicate SECURITY_JOURNAL_SLOT_SIZE 0xFF

/-- Records of one generation in the first slots of the first sector. -/
def holding (a b c : PersistentSecurityState) : Flash :=
  geometry.place NorFlash.erased
    (recordSlot 7 a 0 true :: recordSlot 7 b 0 true :: recordSlot 7 c 0 true :: List.replicate 61 erasedSlot)
    (List.replicate 64 erasedSlot)

theorem slots_holding (a b c : PersistentSecurityState) :
    geometry.slots (holding a b c) =
      (recordSlot 7 a 0 true :: recordSlot 7 b 0 true :: recordSlot 7 c 0 true :: List.replicate 61 erasedSlot) ++
        List.replicate 64 erasedSlot := by
  have hn : geometry.slotsPerSector = 64 := by decide
  obtain ⟨hfirst, hsecond⟩ := sectorSlots_place geometry NorFlash.erased
    (recordSlot 7 a 0 true :: recordSlot 7 b 0 true :: recordSlot 7 c 0 true :: List.replicate 61 erasedSlot)
    (List.replicate 64 erasedSlot) (by rw [hn]; simp) (by rw [hn]; simp) (by
      intro buf hbuf
      rcases List.mem_append.mp hbuf with hbuf | hbuf
      · simp only [List.mem_cons] at hbuf
        rcases hbuf with rfl | rfl | rfl | hbuf
        · exact recordSlot_length _ _ _ _
        · exact recordSlot_length _ _ _ _
        · exact recordSlot_length _ _ _ _
        · rw [List.eq_of_mem_replicate hbuf]
          exact List.length_replicate
      · rw [List.eq_of_mem_replicate hbuf]
        exact List.length_replicate)
  rw [Config.slots, holding, hfirst, hsecond]

theorem copies_holding {a b c : PersistentSecurityState} (ha : a.validate = .ok ()) (hb : b.validate = .ok ()) (hc : c.validate = .ok ()) :
    geometry.copies (holding a b c) = [a, b, c] := by
  have herased : decodeRecord erasedSlot = none := by decide
  have hnone : ∀ n, (List.replicate n erasedSlot).filterMap decodeRecord = [] := by
    intro n
    rw [List.filterMap_eq_nil_iff]
    intro buf hbuf
    rw [List.eq_of_mem_replicate hbuf, herased]
  rw [Config.copies, copiesIn, slots_holding, List.filterMap_append, List.filterMap_cons_some (decodeRecord_committed 7 0 ha),
    List.filterMap_cons_some (decodeRecord_committed 7 0 hb), List.filterMap_cons_some (decodeRecord_committed 7 0 hc), hnone, hnone]
  rfl

theorem boot_holding {a b c r : PersistentSecurityState} (ha : a.validate = .ok ()) (hb : b.validate = .ok ()) (hc : c.validate = .ok ())
    (hload : loaded SameTclk [copyOf a, copyOf b, copyOf c] = some (copyOf r)) : bootState geometry (holding a b c) = .ok (some r) := by
  have hnewest := newest_eq_loaded geometry.toConfig (holding a b c)
  rw [copies_holding ha hb hc, List.map_cons, List.map_cons, List.map_cons, List.map_nil, hload, Option.map_eq_some_iff] at hnewest
  obtain ⟨located, hlocated, hstate⟩ := hnewest
  rw [bootState_eq, hlocated, Option.map_some, copyOf_inj hstate]

/-- A copy of another link key between two copies of one makes the boot forget the larger limit of that link key; behind
    them, it does not. -/
theorem limit_lost :
    Rearranged geometry.toConfig (holding (copyWith 5 100 5) (copyWith 6 1 6) (copyWith 7 50 5))
        (holding (copyWith 5 100 5) (copyWith 7 50 5) (copyWith 6 1 6)) ∧
      bootState geometry (holding (copyWith 5 100 5) (copyWith 6 1 6) (copyWith 7 50 5)) = .ok (some (copyWith 7 50 5)) ∧
      bootState geometry (holding (copyWith 5 100 5) (copyWith 7 50 5) (copyWith 6 1 6)) = .ok (some (copyWith 7 100 5)) ∧
      ¬ DuplicatesSafe geometry (holding (copyWith 5 100 5) (copyWith 6 1 6) (copyWith 7 50 5)) := by
  have hfirst : (copyWith 5 100 5).validate = .ok () := by decide
  have hother : (copyWith 6 1 6).validate = .ok () := by decide
  have hlast : (copyWith 7 50 5).validate = .ok () := by decide
  have hlost := boot_holding hfirst hother hlast (r := copyWith 7 50 5) (by decide)
  have hkept := boot_holding hfirst hlast hother (r := copyWith 7 100 5) (by decide)
  refine ⟨?_, hlost, hkept, fun h => ?_⟩
  · rw [Rearranged, slots_holding, slots_holding]
    exact List.Perm.append_right _ (List.Perm.cons _ (List.Perm.swap _ _ _))
  · have hmem : copyWith 5 100 5 ∈ geometry.copies (holding (copyWith 5 100 5) (copyWith 6 1 6) (copyWith 7 50 5)) := by
      rw [copies_holding hfirst hother hlast]
      exact List.mem_cons_self
    have hcovers := (h.covers _ (List.Perm.refl _) _ hlost _ hmem).2 (by decide)
    exact absurd hcovers (by decide)

end Sample

end SecurityJournal

end Zigbee.Runtime
