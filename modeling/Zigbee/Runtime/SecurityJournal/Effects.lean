import Zigbee.Runtime.SecurityJournal.Generations

/-!
# What a journal operation can do

`Op.plan` reads off a journal's flash and caches which durable change an operation is about to make:
none, one appended floor, or a new generation.  `Effect` lists everything that can come of a plan,
for each way the operation can end, and `op_effect` proves that nothing else can: it is the only
place that looks into the operations, and every property of runs is derived from it.

`Coupled` is the invariant that makes this go through: the flash is an image the journal can leave,
and the caches describe it.
-/

namespace Zigbee.Runtime.SecurityJournal

open Bytes NorFlash Crash Crash.Prog FloorTable Journal

/-- A cache of replay floors that a generation with the entries of `v` may report. -/
structure CacheOk (cfg : Config) (v : View) (t : List PersistentReplayCounter) : Prop where
  nodup : (t.map PersistentReplayCounter.domain).Nodup
  length : t.length ≤ cfg.maxReplay
  mem : ∀ x ∈ t, x ∈ v.entries

/-- The caches describe the durable view. -/
structure Live (cfg : Config) (v : View) (j : Journal) : Prop where
  cached : j.scanned = true → j.cached = v.cur
  replay : ∀ g, j.replayGeneration = some g →
    (∃ l, v.cur = some l ∧ l.generation = g) ∧ CacheOk cfg v j.cachedReplay

theorem Live.new (cfg : Config) (v : View) : Live cfg v .new :=
  ⟨by simp [Journal.new], by simp [Journal.new]⟩

theorem Live.invalidate (cfg : Config) (v : View) (j : Journal) : Live cfg v j.invalidate :=
  ⟨by simp [Journal.invalidate], by simp [Journal.invalidate]⟩

/-- Flash and caches of a journal with the durable view `v`. -/
def Coupled (cfg : Config) (f : Flash) (j : Journal) (v : View) : Prop :=
  ∃ img, Rep cfg f img ∧ Shows img v ∧ Live cfg v j

/-- The slots of `sector` from `k` on are erased. -/
def Config.Clear (cfg : Config) (f : Flash) (sector : Fin 2) (k : Nat) : Prop :=
  ∀ i, k ≤ i → i < cfg.slotsPerSector → isErased (cfg.readSlot f sector i) = true

variable {cfg : Config} {f : Flash}

theorem Rep.clear_iff {img : Image} (h : Rep cfg f img) (sector : Fin 2) (k : Nat) : cfg.Clear f sector k ↔ img.Clear sector k := by
  constructor
  · intro hc i s hi hs
    have hlt := (List.getElem?_eq_some_iff.mp hs).1
    rw [h.length] at hlt
    have her := hc i hi hlt
    rw [h.readSlot hs, Slot.isErased_render] at her
    cases s with
    | erased => rfl
    | record g st tag c hv => simp [Slot.isErased] at her
    | replay g cells hcl => simp [Slot.isErased] at her
  · intro hc i hi hlt
    rw [← h.length sector] at hlt
    have hget := List.getElem?_eq_getElem hlt
    rw [h.readSlot hget, hc i _ hi hget, Slot.isErased_render]
    rfl

/-! ## Plans -/

/-- The journal operations. -/
inductive Op where
  | setProductTag (tag : UInt16)
  | selectRoleTag (tag : UInt16)
  | productTag
  | load
  | visit
  | store (state : PersistentSecurityState)
  | commit (replay : PersistentReplayCounter)
  | tombstone (scope : ReplayCounterTombstone)
  | retain (keep : PersistentReplayCounter → Bool)

/-- The program of an operation, without its result. -/
def Op.run (cfg : Config) : Op → JournalM Unit
  | .setProductTag tag => SecurityJournal.setProductTag tag
  | .selectRoleTag tag => do let _ ← SecurityJournal.selectRoleTag cfg tag
  | .productTag => do let _ ← SecurityJournal.productTag cfg
  | .load => do let _ ← SecurityJournal.load cfg
  | .visit => do let _ ← visitReplayCounters cfg
  | .store state => SecurityJournal.store cfg state
  | .commit replay => commitReplayCounter cfg replay
  | .tombstone scope => tombstoneReplayCounters cfg scope
  | .retain keep => do let _ ← retainReplayCounters cfg keep

/-- What an operation is about to do: answer without a durable change, refuse, append one floor, or
    write a generation. -/
inductive Plan where
  | keep
  | refuse (e : SecurityStoreError)
  | append (replay : PersistentReplayCounter)
  | generation (rollover : Bool) (generation : UInt32) (state : PersistentSecurityState) (tag : UInt16)
      (snapshot : List PersistentReplayCounter)

/-- The replay floors the journal works with: its cache, or else a scan. -/
def liveReplay (cfg : Config) (f : Flash) (j : Journal) (l : LocatedState) :
    Except SecurityStoreError (List PersistentReplayCounter) :=
  if j.replayGeneration = some l.generation then .ok j.cachedReplay
  else cfg.scanReplay f l.sector l.generation

/-- The tag of the next record. -/
def commitTag (cfg : Config) (f : Flash) (j : Journal) : UInt16 :=
  (j.productTag.or ((cfg.newest f).map (·.tag))).getD SECURITY_JOURNAL_UNTAGGED

def storePlan (cfg : Config) (f : Flash) (j : Journal) (state : PersistentSecurityState) : Plan :=
  match cfg.newest f with
  | none => .generation false 0 state (commitTag cfg f j) []
  | some l =>
    match nextGeneration l.generation with
    | none => .refuse .generationExhausted
    | some g =>
      if sameNetwork l.state state then
        match liveReplay cfg f j l with
        | .ok t => .generation false g state (commitTag cfg f j) t
        | .error e => .refuse e
      else .generation false g state (commitTag cfg f j) []

/-- The floor of `r` is already reported. -/
def covered (t : List PersistentReplayCounter) (r : PersistentReplayCounter) : Bool :=
  (t.find? (·.sameDomain r)).any (r.counter ≤ ·.counter)

def commitPlan (cfg : Config) (f : Flash) (j : Journal) (r : PersistentReplayCounter) : Plan :=
  if r.isNwk then .keep
  else
    match cfg.newest f with
    | none => .refuse .notFound
    | some l =>
      if ¬ l.state.commissioned then .refuse .corrupt
      else
        match liveReplay cfg f j l with
        | .error e => .refuse e
        | .ok t =>
          if covered t r then .keep
          else
            match cfg.findReplayAppendPosition f l.sector l.generation with
            | some _ => .append r
            | none =>
              match nextGeneration l.generation, mergeReplay cfg.maxReplay t r with
              | some g, .ok t' => .generation true g l.state (commitTag cfg f j) t'
              | some _, .error e => .refuse e
              | none, _ => .refuse .generationExhausted

def compactPlan (cfg : Config) (f : Flash) (j : Journal) (keep : PersistentReplayCounter → Bool) : Plan :=
  match cfg.newest f with
  | none => .keep
  | some l =>
    match liveReplay cfg f j l with
    | .error e => .refuse e
    | .ok t =>
      if (t.filter keep).length = t.length then .keep
      else
        match nextGeneration l.generation with
        | none => .refuse .generationExhausted
        | some g => .generation false g l.state (commitTag cfg f j) (t.filter keep)

/-- `visit_replay_counters` reports, or refuses with the error of its scan. -/
def visitPlan (cfg : Config) (f : Flash) (j : Journal) : Plan :=
  match cfg.newest f with
  | none => .keep
  | some l =>
    match liveReplay cfg f j l with
    | .ok _ => .keep
    | .error e => .refuse e

/-- The durable change an operation is about to make. -/
def Op.plan (cfg : Config) (f : Flash) (j : Journal) : Op → Plan
  | .setProductTag _ | .productTag | .load => .keep
  | .visit => visitPlan cfg f j
  | .selectRoleTag tag =>
    match cfg.newest f with
    | none => .keep
    | some l =>
      if l.tag = tag then .keep
      else storePlan cfg f { j with productTag := some tag } (clearedState l.state)
  | .store state => storePlan cfg f j state
  | .commit r => commitPlan cfg f j r
  | .tombstone scope => compactPlan cfg f j fun r => !r.matchesTombstone scope
  | .retain keep => compactPlan cfg f j keep

/-! ## Effects -/

/-- How an operation ends. -/
inductive Status where
  | ok
  | err (e : SecurityStoreError)
  | cut

/-- Whether a generation with `count` snapshot entries goes beside the current one. -/
def Config.stays (cfg : Config) (f : Flash) (cur : Option LocatedState) (rollover : Bool) (count : Nat) :
    Bool :=
  (cfg.placement f cur rollover count).isSome

/-- A generation with `count` snapshot entries only uses up the slots it needs. -/
def Config.Uses (cfg : Config) (f f' : Flash) (cur : Option LocatedState) (rollover : Bool) (count : Nat) :
    Prop :=
  ∀ k, (cfg.stays f cur rollover count = true → cfg.Clear f (targetSector cur true) k ∧
      k + (1 + replaySnapshotSlots count) ≤ cfg.slotsPerSector) →
    cfg.Clear f' (targetSector cur (cfg.stays f cur rollover count)) (k + (1 + replaySnapshotSlots count))

/-- A snapshot that may be staged for generation `g`: a cache without NWK floors, empty for a blank
    journal, and of entries of the current generation unless a rollover is forced. -/
structure Snapshot (cfg : Config) (v : View) (rollover : Bool) (g : UInt32)
    (t : List PersistentReplayCounter) : Prop where
  next : v.Next g
  nodup : (t.map PersistentReplayCounter.domain).Nodup
  length : t.length ≤ cfg.maxReplay
  nwk : ∀ x ∈ t, x.isNwk = false
  first : v.cur = none → t = []
  sub : rollover = false → ∀ x ∈ t, x ∈ v.entries

variable {v : View} {g : UInt32}

theorem Snapshot.nil {rollover : Bool} (h : v.Next g) : Snapshot cfg v rollover g [] :=
  ⟨h, by simp, by simp, by simp, fun _ => rfl, by simp⟩

/-- The entries of a view with one more. -/
def View.insert (v : View) (r : PersistentReplayCounter) : View :=
  { v with entries := Insert.insert r v.entries }

/-- The replay cache was dropped, rebuilt or left alone. -/
def KeepsCache (v : View) (j j' : Journal) : Prop :=
  j'.replayGeneration = none ∨ Floors v.entries j'.cachedReplay ∨
    (j'.replayGeneration = j.replayGeneration ∧ j'.cachedReplay = j.cachedReplay)

/-- Everything that can come of a plan of an operation that makes `n` accesses before it starts to write
    a generation.  The arguments after the plan are how the operation ended and the view, flash and caches
    it leaves. -/
inductive Effect (cfg : Config) (f : Flash) (j : Journal) (v : View) (faults : List Fault) (n : Nat) :
    Plan → Status → View → Flash → Journal → Prop
  | keep {j' : Journal} (hcache : KeepsCache v j j') : Effect cfg f j v faults n .keep .ok v f j'
  | refuse {e : SecurityStoreError} {j' : Journal} (hcache : KeepsCache v j j') :
      Effect cfg f j v faults n (.refuse e) (.err e) v f j'
  | unread {p : Plan} {j' : Journal} (hwhy : faults ≠ []) (hcache : KeepsCache v j j') :
      Effect cfg f j v faults n p (.err .hardware) v f j'
  | lost {p : Plan} (hwhy : faults ≠ []) : Effect cfg f j v faults n p .cut v f .new
  | appendOk {r : PersistentReplayCounter} {l : LocatedState} {t t' : List PersistentReplayCounter}
      {f' : Flash} {j' : Journal} (hcur : v.cur = some l) (hst : storable r = true)
      (hnwk : r.isNwk = false) (hlive : liveReplay cfg f j l = .ok t)
      (hmerge : mergeReplay cfg.maxReplay t r = .ok t') (hcache : j'.cachedReplay = t')
      (hclear : ∀ k, cfg.Clear f l.sector k → k < cfg.slotsPerSector → cfg.Clear f' l.sector (k + 1)) :
      Effect cfg f j v faults n (.append r) .ok (v.insert r) f' j'
  | appendFull {r : PersistentReplayCounter} {l : LocatedState} {t : List PersistentReplayCounter}
      {f' : Flash} {j' : Journal} {e : SecurityStoreError} (hcur : v.cur = some l)
      (hst : storable r = true) (hnwk : r.isNwk = false) (hlive : liveReplay cfg f j l = .ok t)
      (hmerge : mergeReplay cfg.maxReplay t r = .error e) (hcache : j'.cachedReplay = t)
      (hgen : j'.replayGeneration = some l.generation) :
      Effect cfg f j v faults n (.append r) (.err e) (v.insert r) f' j'
  | appendErr {r : PersistentReplayCounter} {v' : View} {f' : Flash} {j' : Journal} {e : SecurityStoreError}
      (hwhy : faults ≠ [] ∨ storable r = false) (hv : v' = v ∨ v' = v.insert r)
      (hcache : j'.replayGeneration = none) : Effect cfg f j v faults n (.append r) (.err e) v' f' j'
  | appendCut {r : PersistentReplayCounter} {v' : View} {f' : Flash} (hwhy : faults ≠ [])
      (hnwk : r.isNwk = false) (hv : v' = v ∨ v' = v.insert r) :
      Effect cfg f j v faults n (.append r) .cut v' f' .new
  | generationOk {rollover : Bool} {g : UInt32} {st : PersistentSecurityState} {tag : UInt16}
      {t : List PersistentReplayCounter} {f' : Flash} {j' : Journal}
      (hsnap : Snapshot cfg v rollover g t) (hvalid : st.validate = .ok ()) (hcache : j'.cachedReplay = t) (huse : cfg.Uses f f' v.cur rollover t.length) :
      Effect cfg f j v faults n (.generation rollover g st tag t) .ok
        (v.advance (cfg.stays f v.cur rollover t.length) g st tag (durable t)) f' j'
  | generationErr {rollover : Bool} {g : UInt32} {st : PersistentSecurityState} {tag : UInt16}
      {t : List PersistentReplayCounter} {v' : View} {f' : Flash} {j' : Journal} {e : SecurityStoreError}
      (hsnap : Snapshot cfg v rollover g t)
      (hwhy : faults ≠ [] ∨ st.validate ≠ .ok () ∨ (∃ u ∈ t, storable u = false) ∨
        cfg.slotsPerSector < 1 + replaySnapshotSlots t.length)
      (hv : Aborted v (durable t) (faults = [] ∧ (∀ u ∈ t, storable u = true) ∧
        cfg.stays f v.cur rollover t.length = true) v') (hcache : j'.replayGeneration = none)
      (huse : faults ≠ [] ∨ cfg.slotsPerSector < 1 + replaySnapshotSlots t.length ∨
        cfg.stays f v.cur rollover t.length = false ∨ cfg.Uses f f' v.cur rollover t.length) :
      Effect cfg f j v faults n (.generation rollover g st tag t) (.err e) v' f' j'
  | generationLate {rollover : Bool} {g : UInt32} {st : PersistentSecurityState} {tag : UInt16}
      {t : List PersistentReplayCounter} {f' : Flash} {j' : Journal} (hsnap : Snapshot cfg v rollover g t)
      (hlate : Late (n + cfg.accesses f v.cur rollover t.length) faults) (hcache : j'.replayGeneration = none) :
      Effect cfg f j v faults n (.generation rollover g st tag t) (.err .hardware)
        (v.advance (cfg.stays f v.cur rollover t.length) g st tag (durable t)) f' j'
  | generationCut {rollover : Bool} {g : UInt32} {st : PersistentSecurityState} {tag : UInt16}
      {t : List PersistentReplayCounter} {v' : View} {f' : Flash}
      (hsnap : Snapshot cfg v rollover g t) (hwhy : faults ≠ []) (hv : Aborted v (durable t) False v' ∨
        v' = v.advance (cfg.stays f v.cur rollover t.length) g st tag (durable t)) :
      Effect cfg f j v faults n (.generation rollover g st tag t) .cut v' f' .new

variable {f' : Flash} {j j' : Journal} {v' : View} {faults : List Fault} {n : Nat} {p : Plan} {s : Status}

/-- The current record only changes when a generation is committed. -/
theorem Effect.cur (h : Effect cfg f j v faults n p s v' f' j') :
    match p with
    | .generation rollover g st tag t =>
      v'.cur = some ⟨g, targetSector v.cur (cfg.stays f v.cur rollover t.length), st, tag⟩ ∨
        (v'.cur = v.cur ∧ s ≠ .ok)
    | _ => v'.cur = v.cur := by
  cases h with
  | keep hcache => rfl
  | refuse hcache => rfl
  | unread hwhy hcache => cases p <;> simp
  | lost hwhy => cases p <;> simp
  | appendOk hcur hst hnwk hl hmerge hcache hclear => rfl
  | appendFull hcur hst hnwk hl hmerge hcache hgen => rfl
  | appendErr hwhy hv hcache => rcases hv with rfl | rfl <;> rfl
  | appendCut hwhy hnwk hv => rcases hv with rfl | rfl <;> rfl
  | generationOk hsnap hvalid hcache huse => exact Or.inl rfl
  | generationErr hsnap hwhy hv hcache huse => exact Or.inr ⟨hv.cur, by simp⟩
  | generationLate hsnap hlate hcache => exact Or.inl rfl
  | generationCut hsnap hwhy hv =>
    rcases hv with hv | rfl
    · exact Or.inr ⟨hv.cur, by simp⟩
    · exact Or.inl rfl

/-- The durable floors stay, gain the appended one, or are those of a committed generation. -/
theorem Effect.view (h : Effect cfg f j v faults n p s v' f' j') :
    (v'.cur = v.cur ∧ v'.entries = v.entries) ∨ (∃ r, p = .append r ∧ v' = v.insert r) ∨
      ∃ rollover g st tag t, p = .generation rollover g st tag t ∧ Snapshot cfg v rollover g t ∧
        v' = v.advance (cfg.stays f v.cur rollover t.length) g st tag (durable t) := by
  have happend : ∀ {r}, v' = v ∨ v' = v.insert r → (v'.cur = v.cur ∧ v'.entries = v.entries) ∨ v' = v.insert r := by
    rintro r (rfl | hv)
    · exact Or.inl ⟨rfl, rfl⟩
    · exact Or.inr hv
  cases h with
  | keep hcache => exact Or.inl ⟨rfl, rfl⟩
  | refuse hcache => exact Or.inl ⟨rfl, rfl⟩
  | unread hwhy hcache => exact Or.inl ⟨rfl, rfl⟩
  | lost hwhy => exact Or.inl ⟨rfl, rfl⟩
  | appendOk hcur hst hnwk hl hmerge hcache hclear => exact Or.inr (Or.inl ⟨_, rfl, rfl⟩)
  | appendFull hcur hst hnwk hl hmerge hcache hgen => exact Or.inr (Or.inl ⟨_, rfl, rfl⟩)
  | appendErr hwhy hv hcache => exact (happend hv).imp_right fun hv => Or.inl ⟨_, rfl, hv⟩
  | appendCut hwhy hnwk hv => exact (happend hv).imp_right fun hv => Or.inl ⟨_, rfl, hv⟩
  | generationOk hsnap hvalid hcache huse => exact Or.inr (Or.inr ⟨_, _, _, _, _, rfl, hsnap, rfl⟩)
  | generationErr hsnap hwhy hv hcache huse => exact Or.inl ⟨hv.cur, hv.entries⟩
  | generationLate hsnap hlate hcache => exact Or.inr (Or.inr ⟨_, _, _, _, _, rfl, hsnap, rfl⟩)
  | generationCut hsnap hwhy hv =>
    rcases hv with hv | hv
    · exact Or.inl ⟨hv.cur, hv.entries⟩
    · exact Or.inr (Or.inr ⟨_, _, _, _, _, rfl, hsnap, hv⟩)

variable {e : SecurityStoreError}

theorem Effect.refused (h : Effect cfg f j v faults n (.refuse e) s v' f' j') : s ≠ .ok ∧ (faults = [] → s = .err e) := by
  cases h with
  | refuse hcache => simp
  | unread hwhy hcache => simp [hwhy]
  | lost hwhy => simp [hwhy]

/-- The operation ended in a coupled journal, by an effect of its plan. -/
def Done (cfg : Config) (f : Flash) (j : Journal) (v : View) (faults : List Fault) (n : Nat) (p : Plan)
    (s : Status) (f' : Flash) (j' : Journal) : Prop :=
  ∃ v', Coupled cfg f' j' v' ∧ Effect cfg f j v faults n p s v' f' j'

/-- The postcondition `Done`, for every way to end. -/
def effectPost (cfg : Config) (f : Flash) (j : Journal) (v : View) (faults : List Fault) (n : Nat)
    (p : Plan) {α : Type} : Post Flash Journal SecurityStoreError α where
  ok _ w := Done cfg f j v faults n p .ok w.disk w.ram
  err e w := Done cfg f j v faults n p (.err e) w.disk w.ram
  cut d := Done cfg f j v faults n p .cut d .new

/-! ## The cached views -/

variable {t : List PersistentReplayCounter} {slot index k : Nat} {init : Bool} {w : World Flash Journal} {r : PersistentReplayCounter}
   {α : Type} {left : List Fault}

section Ops

variable {cfg : Config} {f : Flash} {j : Journal} {v : View} {faults : List Fault} {n : Nat} {l : LocatedState}

theorem Coupled.newest (h : Coupled cfg f j v) : cfg.newest f = v.cur := by
  obtain ⟨img, hrep, hshow, -⟩ := h
  exact hshow.newest hrep

theorem Coupled.live (h : Coupled cfg f j v) : Live cfg v j := by
  obtain ⟨-, -, -, hlive⟩ := h
  exact hlive

/-- The caches once the newest record has been looked up. -/
def Journal.located (j : Journal) (cur : Option LocatedState) : Journal :=
  { j with cached := cur, scanned := true }

/-- Accesses of a look at the newest record. -/
def Journal.lookups (j : Journal) : Nat := if j.scanned then 0 else 1

theorem current_wp (hcfg : ¬ cfg.Rejected) (h : Coupled cfg f j v)
    {P : Post Flash Journal SecurityStoreError (Option LocatedState)}
    (hok : ∀ left, Passes j.lookups faults left → P.ok v.cur ⟨f, j.located v.cur, left⟩)
    (herr : faults ≠ [] → ∀ left, P.err .hardware ⟨f, j, left⟩) (hcut : faults ≠ [] → P.cut f) :
    wp (current cfg) ⟨f, j, faults⟩ P := by
  unfold current
  rw [if_neg hcfg]
  simp only [wp_bind, wp_getRam]
  by_cases hs : j.scanned = true
  · rw [if_pos hs, wp_pure]
    obtain ⟨-, -, -, hlive⟩ := h
    have hj : j.located v.cur = j := by
      unfold located
      rw [← hlive.cached hs, ← hs]
    have := hok faults (by rw [lookups, if_pos hs]; exact .refl _)
    rw [hj] at this
    rwa [hlive.cached hs]
  · rw [if_neg hs]
    simp only [wp_bind, wp_modifyRam, wp_pure]
    apply readFlash_wp
    · rintro ⟨d, ram, left⟩ ⟨rfl, hp⟩ rfl
      simp only [h.newest]
      exact hok left (by rw [lookups, if_neg hs]; exact hp)
    · rintro hs ⟨d, ram, left⟩ rfl rfl
      exact herr hs.ne_nil left
    · exact hcut

/-- What the journal works with is a cache of its view: the cache it holds, or the floors. -/
theorem liveReplay_ok (h : Coupled cfg f j v) (hcur : v.cur = some l) (ht : liveReplay cfg f j l = .ok t) :
    CacheOk cfg v t ∧ (Floors v.entries t ∨
      (j.replayGeneration = some l.generation ∧ j.cachedReplay = t)) := by
  obtain ⟨img, hrep, hshow, hlive⟩ := h
  unfold liveReplay at ht
  split at ht
  · rename_i hg
    cases ht
    exact ⟨(hlive.replay _ hg).2, Or.inr ⟨hg, rfl⟩⟩
  · obtain ⟨hfl, hlen⟩ := scanReplay_ok hrep ht
    rw [← hshow.entries_eq hcur] at hfl
    exact ⟨⟨hfl.nodup, hlen, hfl.mem⟩, Or.inl hfl⟩

/-- The caches once the replay floors have been looked up. -/
def Journal.withReplay (j : Journal) (g : UInt32) (t : List PersistentReplayCounter) : Journal :=
  { j with cachedReplay := t, replayGeneration := some g }

def Journal.dropReplay (j : Journal) : Journal := { j with cachedReplay := [], replayGeneration := none }

/-- Accesses of a look at the replay floors. -/
def Journal.scans (j : Journal) (l : LocatedState) : Nat :=
  if j.replayGeneration = some l.generation then 0 else 1

theorem ensureReplayCache_wp {P : Post Flash Journal SecurityStoreError Unit} (hrg : j'.replayGeneration = j.replayGeneration)
    (hcr : j'.cachedReplay = j.cachedReplay)
    (hok : ∀ t left, liveReplay cfg f j l = .ok t → Passes (j.scans l) faults left → P.ok () ⟨f, j'.withReplay l.generation t, left⟩)
    (herr : ∀ e left, liveReplay cfg f j l = .error e ∨ (faults ≠ [] ∧ e = .hardware) → P.err e ⟨f, j'.dropReplay, left⟩)
    (hcut : faults ≠ [] → P.cut f) : wp (ensureReplayCache cfg l) ⟨f, j', faults⟩ P := by
  simp only [ensureReplayCache, wp_bind, wp_getRam, hrg]
  by_cases hg : j.replayGeneration = some l.generation
  · rw [if_pos hg, wp_pure]
    have hj : j'.withReplay l.generation j.cachedReplay = j' := by
      unfold withReplay
      rw [← hg, ← hrg, ← hcr]
    have := hok j.cachedReplay faults (by rw [liveReplay, if_pos hg]) (by rw [scans, if_pos hg]; exact .refl _)
    rwa [hj] at this
  · rw [if_neg hg]
    simp only [wp_bind, wp_attempt]
    have hscan : liveReplay cfg f j l = cfg.scanReplay f l.sector l.generation := by
      rw [liveReplay, if_neg hg]
    apply readFlash_wp
    · rintro ⟨d, ram, left⟩ ⟨rfl, hp⟩ rfl
      simp only [wp_ofExcept]
      cases hs : cfg.scanReplay d l.sector l.generation with
      | ok t => exact hok t left (hscan.trans hs) (by rw [scans, if_neg hg]; exact hp)
      | error e => exact herr e left (Or.inl (hscan.trans hs))
    · rintro hs ⟨d, ram, left⟩ rfl rfl
      exact herr .hardware left (Or.inr ⟨hs.ne_nil, rfl⟩)
    · exact hcut

theorem Live.located (h : Live cfg v j) : Live cfg v (j.located v.cur) :=
  ⟨fun _ => rfl, h.replay⟩

theorem Live.withReplay (hcur : v.cur = some l) (hc : CacheOk cfg v t) : Live cfg v ((j.located v.cur).withReplay l.generation t) := by
  refine ⟨fun _ => rfl, fun g hg => ⟨⟨l, hcur, ?_⟩, hc⟩⟩
  exact Option.some.inj hg

theorem Live.dropReplay (h : Live cfg v j) : Live cfg v j.dropReplay :=
  ⟨h.cached, fun g hg => by simp [Journal.dropReplay] at hg⟩

theorem KeepsCache.refl (v : View) (j : Journal) : KeepsCache v j j := Or.inr (Or.inr ⟨rfl, rfl⟩)

theorem KeepsCache.live (h : Coupled cfg f j v) (hcur : v.cur = some l) (ht : liveReplay cfg f j l = .ok t) :
    KeepsCache v j ((j.located v.cur).withReplay l.generation t) := by
  rcases (liveReplay_ok h hcur ht).2 with hfl | ⟨hg, ht'⟩
  · exact Or.inr (Or.inl hfl)
  · exact Or.inr (Or.inr ⟨hg.symm, ht'.symm⟩)

/-- An operation that leaves the flash alone. -/
theorem done_keep (h : Coupled cfg f j v) (hlive : Live cfg v j') (hcache : KeepsCache v j j') :
    Done cfg f j v faults n .keep .ok f j' := by
  obtain ⟨img, hrep, hshow, -⟩ := h
  exact ⟨v, ⟨img, hrep, hshow, hlive⟩, .keep hcache⟩

/-- An operation that is refused before it writes. -/
theorem done_refuse (h : Coupled cfg f j v) (hlive : Live cfg v j') (hcache : KeepsCache v j j') :
    Done cfg f j v faults n (.refuse e) (.err e) f j' := by
  obtain ⟨img, hrep, hshow, -⟩ := h
  exact ⟨v, ⟨img, hrep, hshow, hlive⟩, .refuse hcache⟩

/-- An operation whose first reads fail. -/
theorem done_unread (h : Coupled cfg f j v) (hwhy : faults ≠ []) (hlive : Live cfg v j') (hcache : KeepsCache v j j') :
    Done cfg f j v faults n p (.err .hardware) f j' := by
  obtain ⟨img, hrep, hshow, -⟩ := h
  exact ⟨v, ⟨img, hrep, hshow, hlive⟩, .unread hwhy hcache⟩

theorem done_lost (h : Coupled cfg f j v) (hwhy : faults ≠ []) : Done cfg f j v faults n p .cut f .new := by
  obtain ⟨img, hrep, hshow, -⟩ := h
  exact ⟨v, ⟨img, hrep, hshow, Live.new _ _⟩, .lost hwhy⟩

theorem done_keep_live (h : Coupled cfg f j v) (hcur : v.cur = some l) (ht : liveReplay cfg f j l = .ok t) :
    Done cfg f j v faults n .keep .ok f ((j.located v.cur).withReplay l.generation t) :=
  done_keep h (Live.withReplay hcur (liveReplay_ok h hcur ht).1) (KeepsCache.live h hcur ht)

theorem done_refuse_live (h : Coupled cfg f j v) (hcur : v.cur = some l) (ht : liveReplay cfg f j l = .ok t) :
    Done cfg f j v faults n (.refuse e) (.err e) f ((j.located v.cur).withReplay l.generation t) :=
  done_refuse h (Live.withReplay hcur (liveReplay_ok h hcur ht).1) (KeepsCache.live h hcur ht)

/-! ## Lookups in an operation -/

section

variable {k : Nat} {left : List Fault} {p : Plan} {α : Type}

theorem current_effect (hcfg : ¬ cfg.Rejected) (h : Coupled cfg f j v) (hp : Passes k faults left)
    {next : Option LocatedState → JournalM α}
    (hok : ∀ left', Passes (k + j.lookups) faults left' →
      wp (next v.cur) ⟨f, j.located v.cur, left'⟩ (effectPost cfg f j v faults n p)) :
    wp (current cfg >>= next) ⟨f, j, left⟩ (effectPost cfg f j v faults n p) := by
  have hne : left ≠ [] → faults ≠ [] := ne_nil_of_suffix hp.suffix
  rw [wp_bind]
  apply current_wp hcfg h
  · exact fun left' hp' => hok left' (hp.trans hp')
  · exact fun hl _ => done_unread h (hne hl) h.live (KeepsCache.refl v j)
  · exact fun hl => done_lost h (hne hl)

theorem ensureReplayCache_effect (h : Coupled cfg f j v) (hp : Passes k faults left)
    {next : Unit → JournalM α}
    (hok : ∀ t left', liveReplay cfg f j l = .ok t → Passes (k + j.scans l) faults left' →
      wp (next ()) ⟨f, (j.located v.cur).withReplay l.generation t, left'⟩ (effectPost cfg f j v faults n p))
    (herr : ∀ e, liveReplay cfg f j l = .error e → p = .refuse e) :
    wp (ensureReplayCache cfg l >>= next) ⟨f, j.located v.cur, left⟩ (effectPost cfg f j v faults n p) := by
  have hne : left ≠ [] → faults ≠ [] := ne_nil_of_suffix hp.suffix
  rw [wp_bind]
  refine ensureReplayCache_wp (j := j) rfl rfl ?_ ?_ ?_
  · exact fun t left' ht hp' => hok t left' ht (hp.trans hp')
  · rintro e left' (he | ⟨hl, rfl⟩)
    · rw [herr e he]
      exact done_refuse h h.live.located.dropReplay (Or.inl rfl)
    · exact done_unread h (hne hl) h.live.located.dropReplay (Or.inl rfl)
  · exact fun hl => done_lost h (hne hl)

/-! ## Generations -/

/-- Committing the staged snapshot `t` as the next generation. -/
theorem commitGeneration_effect (hcfg : ¬ cfg.Rejected) (h : Coupled cfg f j v) (hp : Passes n faults left) (rollover : Bool)
    (st : PersistentSecurityState) (j' : Journal) (t : List PersistentReplayCounter) (ht : j'.cachedReplay = t)
    (htag : j'.tagForCommit = commitTag cfg f j) (hsnap : Snapshot cfg v rollover g t) :
    wp (commitGeneration cfg (v.cur.map (·.sector)) rollover g st) ⟨f, j', left⟩
      (effectPost cfg f j v faults n (.generation rollover g st (commitTag cfg f j) t)) := by
  obtain ⟨img, hrep, hshow, -⟩ := h
  subst ht
  have hne : left ≠ [] → faults ≠ [] := ne_nil_of_suffix hp.suffix
  have hin : inPlace cfg ⟨f, j', left⟩ v rollover = cfg.stays f v.cur rollover j'.cachedReplay.length :=
    rfl
  have hstage : Stageable cfg ⟨f, j', left⟩ v rollover g := by
    refine ⟨hsnap.next, hsnap.nwk, hsnap.first, fun hp => ?_⟩
    have hro : rollover = false := by
      cases rollover with
      | false => rfl
      | true => cases hc : v.cur <;> simp [inPlace, Config.placement, hc] at hp
    exact fun x hx => hsnap.sub hro x hx.1
  have huse : ∀ {img' : Image} {f' : Flash}, Rep cfg f' img' →
      Room cfg ⟨f, j', left⟩ v rollover img img' →
      cfg.Uses f f' v.cur rollover j'.cachedReplay.length := by
    intro img' f' hrep' hroom k hk
    rw [hrep'.clear_iff]
    refine hroom k fun hp => ?_
    rw [← hrep.clear_iff]
    exact hk hp
  simp only [commitGeneration, wp_bind, wp_getRam, wp_attempt, htag]
  refine writeGeneration_wp hcfg hrep hshow hstage ?_ ?_ ?_ ?_
  · intro w' img' hv hram hrep' hshow' hroom
    simp only [wp_modifyRam]
    refine ⟨_, ⟨img', hrep', hshow', ?_⟩, .generationOk hsnap hv (by simp [hram]) (huse hrep' hroom)⟩
    refine ⟨fun _ => by rw [hin]; rfl, fun g' hg' => ⟨⟨_, rfl, Option.some.inj hg'⟩, ?_⟩⟩
    refine ⟨by simpa [hram] using hsnap.nodup, by simpa [hram] using hsnap.length, fun x hx => ?_⟩
    have hx' : x ∈ durable j'.cachedReplay := by
      simp only [hram] at hx
      exact ⟨hx, hsnap.nwk x hx⟩
    simp only [View.advance]
    split
    · exact Or.inr hx'
    · exact hx'
  · intro hwhy e w' img' v' hram hrep' hshow' hab hroom
    simp only [wp_modifyRam, wp_fail]
    refine ⟨v', ⟨img', hrep', hshow', Live.invalidate cfg v' _⟩, .generationErr hsnap ?_
      ⟨hab.cur, hab.entries, hab.kept, hab.added, ?_⟩ rfl ?_⟩
    · rcases hwhy with (hw | hw | hw) | hw
      · exact Or.inl (hne hw)
      · exact Or.inr (Or.inl hw)
      · exact Or.inr (Or.inr (Or.inl hw))
      · exact Or.inr (Or.inr (Or.inr hw))
    · rintro ⟨rfl, hst, hin'⟩
      exact hab.all ⟨⟨List.suffix_nil.mp hp.suffix, hst⟩, hin'⟩
    · exact hroom.imp hne (Or.imp_right (Or.imp_right (huse hrep')))
  · intro hl w' img' _ hram hrep' hshow'
    simp only [wp_modifyRam, wp_fail]
    exact ⟨_, ⟨img', hrep', hshow', Live.invalidate cfg _ _⟩, .generationLate hsnap (late_of_passes hp hl) rfl⟩
  · intro hwhy d img' v' hrep' hshow' hor
    refine ⟨v', ⟨img', hrep', hshow', Live.new cfg v'⟩, .generationCut hsnap (hne hwhy) ?_⟩
    refine hor.imp (fun hab => ?_) fun h => h.2
    exact ⟨hab.cur, hab.entries, hab.kept, hab.added, False.elim⟩

end

/-! ## Appends -/

/-- A place for one more entry of generation `g`. -/
def Slot.Open (g : UInt32) (index : Nat) (init : Bool) : Slot → Prop
  | .erased => init = true ∧ index = 0
  | .record _ _ _ _ _ => False
  | .replay g' cells _ =>
    init = false ∧ g' = g ∧ cells.all Cell.good = true ∧ cells.length = index ∧ index < 4

theorem appendPosition_spec {slots : List Slot} {base : Nat}
    (h : appendPosition g (slots.map Slot.render) base = some (slot, index, init)) :
    ∃ i s, slot = base + i ∧ slots[i]? = some s ∧ s.Open g index init ∧
      ∀ i' < i, slots[i']? ≠ some .erased := by
  induction slots generalizing base with
  | nil => simp [appendPosition] at h
  | cons s slots ih =>
    simp only [List.map_cons, appendPosition, Slot.isErased_render, Slot.header_render] at h
    -- a slot that is passed over is not erased
    have hskip : s ≠ .erased → appendPosition g (slots.map Slot.render) (base + 1) =
        some (slot, index, init) → ∃ i s', slot = base + i ∧ (s :: slots)[i]? = some s' ∧
          s'.Open g index init ∧ ∀ i' < i, (s :: slots)[i']? ≠ some .erased := by
      intro hne hrest
      obtain ⟨i, s', hslot, hget, hopen, hbefore⟩ := ih hrest
      refine ⟨i + 1, s', by omega, by simpa using hget, hopen, ?_⟩
      rintro (_ | i') hi'
      · simpa using hne
      · simpa using hbefore i' (by omega)
    cases s with
    | erased =>
      simp only [Slot.isErased, if_true, Option.some.injEq, Prod.mk.injEq] at h
      obtain ⟨rfl, rfl, rfl⟩ := h
      exact ⟨0, .erased, rfl, rfl, ⟨rfl, rfl⟩, by simp⟩
    | record g' st tag c hv =>
      simp only [Slot.isErased, Bool.false_eq_true, if_false, Slot.header, ne_eq, reduceCtorEq,
        not_false_eq_true, if_true] at h
      exact hskip (by simp) h
    | replay g' cells hc =>
      simp only [Slot.isErased, Bool.false_eq_true, if_false] at h
      by_cases hg : g' = g
      · subst hg
        rw [if_neg (by simp [Slot.header]), Slot.freeIndex_render (g := g') rfl] at h
        simp only [Slot.freeIndex] at h
        by_cases hfree : cells.all Cell.good = true ∧ cells.length < 4
        · rw [if_pos hfree] at h
          simp only [Option.some.injEq, Prod.mk.injEq] at h
          obtain ⟨rfl, rfl, rfl⟩ := h
          exact ⟨0, _, rfl, rfl, ⟨rfl, rfl, hfree.1, rfl, hfree.2⟩, by simp⟩
        · rw [if_neg hfree] at h
          exact hskip (by simp) h
      · rw [if_pos (by simpa [Slot.header] using hg)] at h
        exact hskip (by simp) h

theorem appendPosition_isSome {slots : List Slot} {base i : Nat} (h : slots[i]? = some .erased) :
    (appendPosition g (slots.map Slot.render) base).isSome = true := by
  induction slots generalizing base i with
  | nil => simp at h
  | cons s slots ih =>
    simp only [List.map_cons, appendPosition, Slot.isErased_render]
    split
    · rfl
    · rename_i hne
      have hrest : ∀ base', (appendPosition g (slots.map Slot.render) base').isSome = true := by
        cases i with
        | zero =>
          simp only [List.getElem?_cons_zero, Option.some.injEq] at h
          simp [h, Slot.isErased] at hne
        | succ i => exact fun base' => ih (by simpa using h)
      split
      · exact hrest _
      · split
        · rfl
        · exact hrest _

/-- An erased slot is an append position. -/
theorem findReplayAppendPosition_isSome (h : Coupled cfg f j v) {sector : Fin 2} (g : UInt32) (hclear : cfg.Clear f sector k)
    (hk : k < cfg.slotsPerSector) : (cfg.findReplayAppendPosition f sector g).isSome = true := by
  obtain ⟨img, hrep, -, -⟩ := h
  unfold Config.findReplayAppendPosition
  rw [hrep sector]
  have hlt : k < (img sector).length := by rw [hrep.length]; exact hk
  have hget := List.getElem?_eq_getElem hlt
  have hc := (hrep.clear_iff sector k).mp hclear k _ (Nat.le_refl k) hget
  exact appendPosition_isSome (by rw [hget, hc])

/-- Writing one entry of the current generation at an open place. -/
theorem appendEntry_wp (hi : Nat) (hcfg : ¬ cfg.Rejected) {img : Image} {s : Slot} (hrep : Rep cfg w.disk img)
    (hs : (img l.sector)[slot]? = some s) (hopen : s.Open l.generation index init) (hhi : slot < hi)
    {P : Post Flash Journal SecurityStoreError Unit}
    (hok : ∀ w' img', storable r = true → w'.ram = w.ram → Rep cfg w'.disk img' →
      Grow hi l.sector l.generation.toNat {x | x = r ∧ x.isNwk = false} img img' → P.ok () w')
    (herr : w.faults ≠ [] ∨ storable r = false → ∀ e w' img' X, w'.ram = w.ram → Rep cfg w'.disk img' →
      Grow hi l.sector l.generation.toNat X img img' → X ⊆ {x | x = r} → P.err e w')
    (hcut : w.faults ≠ [] → ∀ d img' X, Rep cfg d img' → Grow hi l.sector l.generation.toNat X img img' → X ⊆ {x | x = r} → P.cut d) :
    wp (appendEntry cfg l slot index init r) w P := by
  -- the entry write, from an image whose slot has its header
  have hentry : ∀ (k : Nat) (w₁ : World Flash Journal) (img₁ : Image) (cells : List Cell) (hc : cells.length ≤ 4),
      Frame k w w₁ → Rep cfg w₁.disk img₁ → Grow hi l.sector l.generation.toNat ∅ img img₁ →
      (img₁ l.sector)[slot]? = some (.replay l.generation cells hc) → cells.all Cell.good = true →
      cells.length = index → index < 4 → wp (writeReplayEntry cfg l.sector slot index r) w₁ P := by
    intro k w₁ img₁ cells hc hf₁ hrep₁ hg₁ hs₁ hgood hlen hidx
    have hgrow : ∀ {X : Set PersistentReplayCounter} {img' : Image},
        Grow hi l.sector l.generation.toNat X img₁ img' → Grow hi l.sector l.generation.toNat X img img' :=
      fun hg => by simpa using hg₁.trans hg
    refine writeReplayEntry_wp hi hcfg hrep₁ hs₁ hhi hgood hlen hidx ?_ ?_ ?_
    · intro w' hfits hst hf hrep'
      refine hok w' _ hst (hf.ram.trans hf₁.ram) hrep' ?_
      simpa [Cell.good, hst] using hgrow (Grow.cell (c := ⟨r, true⟩) hs₁ hhi hgood hfits)
    · exact fun hwhy w' img' X hram hrep' hg hX =>
        herr (hwhy.imp_left hf₁.faults_ne) _ w' img' X (hram.trans hf₁.ram) hrep' (hgrow hg) hX
    · exact fun hne d img' X hrep' hg hX => hcut (hf₁.faults_ne hne) d img' X hrep' (hgrow hg) hX
  unfold appendEntry
  cases s with
  | erased =>
    obtain ⟨rfl, rfl⟩ := hopen
    simp only [if_true, wp_bind]
    refine writeReplayHeader_wp hi hcfg hrep hs hhi ?_ ?_ ?_
    · intro w₁ hf₁ hrep₁
      exact hentry 3 w₁ _ [] (by simp) hf₁ hrep₁ (Grow.header hs hhi) (Image.set_get hs) rfl rfl (by omega)
    · exact fun hne w₁ img₁ hram hrep₁ hg => herr (Or.inl hne) _ w₁ img₁ ∅ hram hrep₁ hg (Set.empty_subset _)
    · intro hne d img' hrep' hg
      exact hcut hne d img' ∅ hrep' hg (Set.empty_subset _)
  | record g st tag c hv => exact absurd hopen (by simp [Slot.Open])
  | replay g cells hc =>
    obtain ⟨rfl, rfl, hgood, hlen, hidx⟩ := hopen
    simp only [Bool.false_eq_true, if_false]
    exact hentry 0 w img cells hc (Frame.refl w) hrep (Grow.refl _ _ _ _) hs hgood hlen hidx

/-! ## Operations -/

/-- Merging one floor into a cache. -/
theorem mergeReplay_ok {t' : List PersistentReplayCounter} (hc : CacheOk cfg v t) (h : mergeReplay cfg.maxReplay t r = .ok t') :
    (t'.map PersistentReplayCounter.domain).Nodup ∧ t'.length ≤ cfg.maxReplay ∧
      ∀ x ∈ t', x ∈ t ∨ x = r := by
  have hfl : Floors (Insert.insert r {x | x ∈ t}) t' := mergeReplay_floors (IsFloors.self hc.nodup) h
  rw [mergeReplay_eq] at h
  split at h
  · rename_i u hm
    cases h
    refine ⟨hfl.nodup, merge_length_le hc.length hm, fun x hx => ?_⟩
    rcases hfl.mem x hx with hx | hx
    · exact Or.inr hx
    · exact Or.inl hx
  · cases h

/-- An effect depends on the caches through the replay floors only. -/
theorem Effect.congr {j₁ : Journal} (hrg : j₁.replayGeneration = j.replayGeneration) (hcr : j₁.cachedReplay = j.cachedReplay)
    (h : Effect cfg f j₁ v faults n p s v' f' j') : Effect cfg f j v faults n p s v' f' j' := by
  have hlive : ∀ l, liveReplay cfg f j₁ l = liveReplay cfg f j l := fun l => by
    unfold liveReplay
    rw [hrg, hcr]
  cases h with
  | keep hcache => exact .keep (by rwa [KeepsCache, hrg, hcr] at hcache)
  | refuse hcache => exact .refuse (by rwa [KeepsCache, hrg, hcr] at hcache)
  | unread hwhy hcache => exact .unread hwhy (by rwa [KeepsCache, hrg, hcr] at hcache)
  | lost hwhy => exact .lost hwhy
  | appendOk hcur hst hnwk hl hmerge hcache hclear =>
    exact .appendOk hcur hst hnwk (by rwa [← hlive]) hmerge hcache hclear
  | appendFull hcur hst hnwk hl hmerge hcache hgen =>
    exact .appendFull hcur hst hnwk (by rwa [← hlive]) hmerge hcache hgen
  | appendErr hwhy hv hcache => exact .appendErr hwhy hv hcache
  | appendCut hwhy hnwk hv => exact .appendCut hwhy hnwk hv
  | generationOk hsnap hvalid hcache huse => exact .generationOk hsnap hvalid hcache huse
  | generationErr hsnap hwhy hv hcache huse => exact .generationErr hsnap hwhy hv hcache huse
  | generationLate hsnap hlate hcache => exact .generationLate hsnap hlate hcache
  | generationCut hsnap hwhy hv => exact .generationCut hsnap hwhy hv

theorem effectPost_congr {j₁ : Journal} {m : JournalM α} (hrg : j₁.replayGeneration = j.replayGeneration)
    (hcr : j₁.cachedReplay = j.cachedReplay) (h : wp m w (effectPost cfg f j₁ v faults n p)) : wp m w (effectPost cfg f j v faults n p) :=
  wp_mono h (fun _ _ ⟨v', hc, he⟩ => ⟨v', hc, he.congr hrg hcr⟩)
    (fun _ _ ⟨v', hc, he⟩ => ⟨v', hc, he.congr hrg hcr⟩)
    (fun _ ⟨v', hc, he⟩ => ⟨v', hc, he.congr hrg hcr⟩)

theorem Coupled.nwk (h : Coupled cfg f j v) {x : PersistentReplayCounter} (hx : x ∈ v.entries) :
    x.isNwk = false := by
  obtain ⟨img, -, hshow, -⟩ := h
  exact hshow.isNwk hx

theorem Coupled.storable (h : Coupled cfg f j v) {x : PersistentReplayCounter} (hx : x ∈ v.entries) :
    storable x = true := by
  obtain ⟨img, -, hshow, -⟩ := h
  exact hshow.storable hx

theorem tagForCommit_located (h : Coupled cfg f j v) (hc : j'.cached = v.cur) (ht : j'.productTag = j.productTag) :
    j'.tagForCommit = commitTag cfg f j := by
  unfold tagForCommit commitTag
  rw [hc, ht, h.newest]

/-- Accesses of a store before it starts to write. -/
def storeLookups (cfg : Config) (f : Flash) (j : Journal) (st : PersistentSecurityState) : Nat :=
  j.lookups + match cfg.newest f with
    | none => 0
    | some l => if sameNetwork l.state st then j.scans l else 0

/-- Accesses of an operation that looks at the newest record and its floors. -/
def floorLookups (cfg : Config) (f : Flash) (j : Journal) : Nat :=
  j.lookups + match cfg.newest f with
    | none => 0
    | some l => j.scans l

/-- Accesses of an operation before it starts to write a generation. -/
def Op.lookups (cfg : Config) (f : Flash) (j : Journal) : Op → Nat
  | .setProductTag _ => 0
  | .productTag | .load | .selectRoleTag _ => j.lookups
  | .store st => storeLookups cfg f j st
  -- the search for an append position comes before the rollover
  | .commit _ => floorLookups cfg f j + 1
  | .visit | .tombstone _ | .retain _ => floorLookups cfg f j

theorem store_effect (hcfg : ¬ cfg.Rejected) (h : Coupled cfg f j v) (hp : Passes k faults left) (st : PersistentSecurityState) :
    wp (store cfg st) ⟨f, j, left⟩
      (effectPost cfg f j v faults (k + storeLookups cfg f j st) (storePlan cfg f j st)) := by
  unfold store
  refine current_effect hcfg h hp fun left' hp' => ?_
  unfold storePlan storeLookups
  rw [h.newest]
  cases hcur : v.cur with
  | none =>
    simp only [wp_bind, wp_modifyRam]
    have := commitGeneration_effect (g := 0) hcfg h hp' false st (j.located v.cur).dropReplay []
      rfl (tagForCommit_located h rfl rfl) (Snapshot.nil (by simp [View.Next, hcur]))
    rw [hcur] at this
    exact this
  | some l =>
    simp only
    cases hn : nextGeneration l.generation with
    | none =>
      refine done_refuse h ?_ (KeepsCache.refl v j)
      rw [← hcur]
      exact h.live.located
    | some g =>
      have hnext : v.Next g := by
        simp only [View.Next, hcur]
        exact nextGeneration_toNat hn
      simp only
      by_cases hsame : sameNetwork l.state st = true
      · rw [if_pos hsame, if_pos hsame, if_pos hsame, ← hcur]
        refine ensureReplayCache_effect h hp' (fun t left'' ht hp'' => ?_) fun e he => by rw [he]
        obtain ⟨hc, -⟩ := liveReplay_ok h hcur ht
        rw [ht, ← Nat.add_assoc]
        have := commitGeneration_effect hcfg h hp'' false st
          ((j.located v.cur).withReplay l.generation t) t rfl (tagForCommit_located h rfl rfl)
          ⟨hnext, hc.nodup, hc.length, fun x hx => h.nwk (hc.mem x hx), by simp [hcur], fun _ => hc.mem⟩
        rw [hcur] at this ⊢
        exact this
      · rw [if_neg hsame, if_neg hsame, if_neg hsame, wp_bind, wp_modifyRam]
        have := commitGeneration_effect hcfg h hp' false st (j.located v.cur).dropReplay [] rfl
          (tagForCommit_located h rfl rfl) (Snapshot.nil hnext)
        rw [hcur] at this
        exact this

/-- The result of an operation does not matter. -/
theorem discard_effect {m : JournalM α} (h : wp m w (effectPost cfg f j v faults n p)) :
    wp (m >>= fun _ => pure ()) w (effectPost cfg f j v faults n p) := by
  rw [wp_bind]
  exact h

theorem selectRoleTag_effect (hcfg : ¬ cfg.Rejected) (h : Coupled cfg f j v) (tag : UInt16) :
    wp (Op.run cfg (.selectRoleTag tag)) ⟨f, j, faults⟩
      (effectPost cfg f j v faults j.lookups (Op.plan cfg f j (.selectRoleTag tag))) := by
  have hkeep : Done cfg f j v faults j.lookups .keep .ok f { j.located v.cur with productTag := some tag } :=
    done_keep h ⟨h.live.located.cached, h.live.replay⟩ (KeepsCache.refl v j)
  simp only [Op.run, Op.plan, h.newest]
  refine discard_effect (current_effect hcfg h (.refl _) fun left hp => ?_)
  rw [Nat.zero_add] at hp
  cases hcur : v.cur with
  | none =>
    rw [hcur] at hkeep
    exact hkeep
  | some l =>
    simp only [setProductTag, wp_bind, wp_modifyRam]
    by_cases htag : l.tag = tag
    · rw [if_pos htag, if_pos htag]
      rw [hcur] at hkeep
      exact hkeep
    · rw [if_neg htag, if_neg htag]
      simp only [wp_bind, wp_pure]
      have h' : Coupled cfg f { j.located v.cur with productTag := some tag } v := by
        obtain ⟨img, hrep, hshow, hlive⟩ := h
        exact ⟨img, hrep, hshow, hlive.located.cached, hlive.replay⟩
      have := store_effect hcfg h' hp (clearedState l.state)
      -- the second look at the record is cached, and a cleared state is of no network
      have hn : storeLookups cfg f { j.located v.cur with productTag := some tag } (clearedState l.state) = 0 := by
        simp [storeLookups, h.newest, hcur, lookups, located, sameNetwork, clearedState,
          PersistentSecurityState.empty]
      rw [hn, hcur] at this
      exact effectPost_congr (by rfl) (by rfl) this

/-- One appended floor. -/
theorem append_effect (hcfg : ¬ cfg.Rejected) (h : Coupled cfg f j v) (hcur : v.cur = some l) (hr : r.isNwk = false)
    (ht : liveReplay cfg f j l = .ok t) (hpos : cfg.findReplayAppendPosition f l.sector l.generation = some (slot, index, init))
    (hne : left ≠ [] → faults ≠ []) :
    wp (do
      match ← attempt (appendEntry cfg l slot index init r) with
      | .ok () =>
        let j ← getRam
        let merged ← ofExcept (mergeReplay cfg.maxReplay j.cachedReplay r)
        modifyRam fun j => { j with cachedReplay := merged }
      | .error e =>
        modifyRam fun j => { j with cachedReplay := [], replayGeneration := none }
        fail e) ⟨f, (j.located v.cur).withReplay l.generation t, left⟩
      (effectPost cfg f j v faults n (.append r)) := by
  obtain ⟨hc, -⟩ := liveReplay_ok h hcur ht
  obtain ⟨img, hrep, hshow, -⟩ := h
  unfold Config.findReplayAppendPosition at hpos
  rw [hrep l.sector] at hpos
  obtain ⟨i, s, hslot, hs, hopen, hbefore⟩ := appendPosition_spec hpos
  rw [Nat.zero_add] at hslot
  subst hslot
  obtain ⟨cur, E, L⟩ := v
  simp only at hcur
  subst hcur
  have hins : E ∪ {x | x = r ∧ x.isNwk = false} = Insert.insert r E := by
    ext x
    simp only [Set.mem_union, Set.mem_ofPred_eq, Set.mem_insert_iff]
    constructor
    · rintro (hx | hx)
      · exact Or.inr hx
      · exact Or.inl hx.1
    · rintro (rfl | hx)
      · exact Or.inr ⟨rfl, hr⟩
      · exact Or.inl hx
  -- an interrupted append leaves the entry or not
  have hpart : ∀ {X : Set PersistentReplayCounter}, X ⊆ {x | x = r} →
      (⟨some l, E ∪ X, L⟩ : View) = ⟨some l, E, L⟩ ∨ (⟨some l, E ∪ X, L⟩ : View) = View.insert ⟨some l, E, L⟩ r := by
    intro X hX
    rcases Set.subset_singleton_iff_eq.mp (show X ⊆ {r} from hX) with rfl | rfl
    · exact Or.inl (by rw [Set.union_empty])
    · refine Or.inr ?_
      simp only [View.insert]
      rw [Set.union_comm, ← Set.insert_eq]
  simp only [wp_bind, wp_attempt]
  refine appendEntry_wp (slot + 1) hcfg hrep hs hopen (Nat.lt_succ_self slot) ?_ ?_ ?_
  · intro w' img' hst hram hrep' hg
    have hshow' := hshow.append hg
    rw [hins] at hshow'
    simp only [wp_getRam, wp_ofExcept, hram, withReplay]
    cases hm : mergeReplay cfg.maxReplay t r with
    | ok t' =>
      obtain ⟨hnodup, hlen, hmem⟩ := mergeReplay_ok hc hm
      simp only [wp_modifyRam]
      refine ⟨_, ⟨img', hrep', hshow', ?_⟩, .appendOk rfl hst hr ht hm rfl ?_⟩
      · refine ⟨fun _ => by simp [hram, withReplay, located], fun g hg' => ⟨⟨l, rfl, ?_⟩, ?_⟩⟩
        · simp only [hram, withReplay] at hg'
          exact Option.some.inj hg'
        · refine ⟨hnodup, hlen, fun x hx => ?_⟩
          rcases hmem x hx with hx | rfl
          · exact Or.inr (hc.mem x hx)
          · exact Or.inl rfl
      · intro k hk hkn
        rw [hrep'.clear_iff]
        have hk' := (hrep.clear_iff l.sector k).mp hk
        refine hg.clear _ _ ?_ (hk'.mono (by omega))
        -- the append position is the first erased slot at the latest
        by_contra hlt
        have hlt' : k < (img l.sector).length := by rw [hrep.length]; exact hkn
        have hget := List.getElem?_eq_getElem hlt'
        exact hbefore k (by omega) (by rw [hget, hk' k _ (Nat.le_refl k) hget])
    | error e =>
      refine ⟨_, ⟨img', hrep', hshow', ?_⟩, .appendFull rfl hst hr ht hm
        (by simp [hram, withReplay]) (by simp [hram, withReplay])⟩
      refine ⟨fun _ => by simp [hram, withReplay, located], fun g hg' => ⟨⟨l, rfl, ?_⟩, ?_⟩⟩
      · simp only [hram, withReplay] at hg'
        exact Option.some.inj hg'
      · refine ⟨by simpa [hram, withReplay] using hc.nodup,
          by simpa [hram, withReplay] using hc.length, fun x hx => Or.inr (hc.mem x ?_)⟩
        simpa [hram, withReplay] using hx
  · intro hwhy e w' img' X hram hrep' hg hX
    simp only [wp_modifyRam, wp_fail]
    refine ⟨_, ⟨img', hrep', hshow.append hg, ?_⟩, .appendErr (hwhy.imp_left hne) (hpart hX) rfl⟩
    exact ⟨fun _ => by simp [hram, withReplay, located], by simp⟩
  · intro hwhy d img' X hrep' hg hX
    exact ⟨_, ⟨img', hrep', hshow.append hg, Live.new cfg _⟩, .appendCut (hne hwhy) hr (hpart hX)⟩

theorem commit_effect (hcfg : ¬ cfg.Rejected) (h : Coupled cfg f j v) (r : PersistentReplayCounter) :
    wp (commitReplayCounter cfg r) ⟨f, j, faults⟩
      (effectPost cfg f j v faults (floorLookups cfg f j + 1) (commitPlan cfg f j r)) := by
  unfold commitReplayCounter commitPlan
  by_cases hr : r.isNwk = true
  · rw [if_pos hr, if_pos hr]
    exact done_keep h h.live (KeepsCache.refl v j)
  · rw [if_neg hr, if_neg hr]
    have hr' : r.isNwk = false := by simpa using hr
    have hrefuse : ∀ {e : SecurityStoreError},
        Done cfg f j v faults (floorLookups cfg f j + 1) (.refuse e) (.err e) f (j.located v.cur) :=
      done_refuse h h.live.located (KeepsCache.refl v j)
    unfold appendDurableReplayCounter
    refine current_effect hcfg h (.refl _) fun left hp => ?_
    rw [h.newest]
    cases hcur : v.cur with
    | none =>
      rw [hcur] at hrefuse
      exact hrefuse
    | some l =>
      have hlook : floorLookups cfg f j = 0 + j.lookups + j.scans l := by
        simp [floorLookups, h.newest, hcur]
      rw [hcur] at hrefuse
      simp only
      by_cases hcom : l.state.commissioned = true
      · rw [if_neg (by simpa using hcom), if_neg (by simpa using hcom), ← hcur]
        refine ensureReplayCache_effect h hp (fun t left' ht hp' => ?_) fun e he => by rw [he]
        have hrefuse' : ∀ {e : SecurityStoreError}, Done cfg f j v faults (floorLookups cfg f j + 1)
            (.refuse e) (.err e) f ((j.located v.cur).withReplay l.generation t) := done_refuse_live h hcur ht
        obtain ⟨hc, -⟩ := liveReplay_ok h hcur ht
        have hne : left' ≠ [] → faults ≠ [] := ne_nil_of_suffix hp'.suffix
        rw [ht]
        simp only [wp_bind, wp_getRam]
        change wp (if covered t r = true then _ else _) _ _
        by_cases hcov : covered t r = true
        · rw [if_pos hcov, if_pos hcov]
          exact done_keep_live h hcur ht
        · rw [if_neg hcov, if_neg hcov, wp_bind]
          apply readFlash_wp
          · rintro ⟨d, ram, left''⟩ ⟨hram, hp''⟩ hdisk
            obtain rfl : f = d := hdisk.symm
            obtain rfl : _ = ram := hram.symm
            have hpass := hp'.trans hp''
            rw [← hlook] at hpass
            dsimp only
            cases hpos : cfg.findReplayAppendPosition f l.sector l.generation with
            | some pos =>
              obtain ⟨slot, index, init⟩ := pos
              exact append_effect hcfg h hcur hr' ht hpos (ne_nil_of_suffix hpass.suffix)
            | none =>
              cases hn : nextGeneration l.generation with
              | none => exact hrefuse'
              | some g =>
                simp only [wp_bind, wp_ofExcept, withReplay]
                cases hm : mergeReplay cfg.maxReplay t r with
                | error e => exact hrefuse'
                | ok t' =>
                  obtain ⟨hnodup, hlen, hmem⟩ := mergeReplay_ok hc hm
                  have hnext : v.Next g := by
                    simp only [View.Next, hcur]
                    exact nextGeneration_toNat hn
                  have := commitGeneration_effect hcfg h hpass true l.state
                    ((j.located v.cur).withReplay l.generation t') t' rfl
                    (tagForCommit_located h rfl rfl)
                    ⟨hnext, hnodup, hlen, fun x hx => (hmem x hx).elim
                      (fun hx => h.nwk (hc.mem x hx)) (fun hx => hx ▸ hr'), by simp [hcur], by simp⟩
                  rw [hcur] at this ⊢
                  exact this
          · rintro hs ⟨d, ram, left''⟩ hram hdisk
            obtain rfl : f = d := hdisk.symm
            obtain rfl : _ = ram := hram.symm
            exact done_unread h (hne hs.ne_nil) (Live.withReplay hcur hc) (KeepsCache.live h hcur ht)
          · exact fun hl => done_lost h (hne hl)
      · rw [if_pos (by simpa using hcom), if_pos (by simpa using hcom)]
        exact hrefuse

theorem compact_effect (hcfg : ¬ cfg.Rejected) (h : Coupled cfg f j v) (hcur : v.cur = some l) (hp : Passes k faults left)
    (keep : PersistentReplayCounter → Bool) :
    wp (compactReplayCounters cfg keep l) ⟨f, j.located v.cur, left⟩
      (effectPost cfg f j v faults (k + j.scans l) (compactPlan cfg f j keep)) := by
  unfold compactReplayCounters compactPlan
  rw [h.newest, hcur]
  simp only
  rw [← hcur]
  refine ensureReplayCache_effect h hp (fun t left' ht hp' => ?_) fun e he => by rw [he]
  obtain ⟨hc, -⟩ := liveReplay_ok h hcur ht
  rw [ht]
  simp only [wp_bind, wp_getRam, wp_modifyRam]
  change wp (if (t.filter keep).length = t.length then _ else _) _ _
  by_cases hlen : (t.filter keep).length = t.length
  · rw [if_pos hlen, if_pos hlen]
    have hfil : t.filter keep = t := List.filter_eq_self.mpr (List.length_filter_eq_length_iff.mp hlen)
    have hdone : Done cfg f j v faults (k + j.scans l) .keep .ok f ((j.located v.cur).withReplay l.generation t) :=
      done_keep_live h hcur ht
    rw [← hfil] at hdone
    exact hdone
  · rw [if_neg hlen, if_neg hlen]
    cases hn : nextGeneration l.generation with
    | none =>
      simp only [wp_bind, wp_modifyRam, wp_fail]
      exact done_refuse h (Live.invalidate cfg v _) (Or.inl rfl)
    | some g =>
      have hnext : v.Next g := by
        simp only [View.Next, hcur]
        exact nextGeneration_toNat hn
      have hmem : ∀ x ∈ t.filter keep, x ∈ v.entries := fun x hx => hc.mem x (List.mem_of_mem_filter hx)
      have := commitGeneration_effect hcfg h hp' false l.state
        ((j.located v.cur).withReplay l.generation (t.filter keep)) (t.filter keep) rfl
        (tagForCommit_located h rfl rfl)
        ⟨hnext, hc.nodup.sublist (List.filter_sublist.map _),
          Nat.le_trans (List.length_filter_le _ _) hc.length, fun x hx => h.nwk (hmem x hx),
          by simp [hcur], fun _ => hmem⟩
      rw [hcur] at this ⊢
      simp only [wp_bind, wp_pure]
      exact this

/-- A removal, from the look at the newest record on. -/
theorem removal_effect (hcfg : ¬ cfg.Rejected) (h : Coupled cfg f j v) (keep : PersistentReplayCounter → Bool) {a : α}
    {next : Option LocatedState → JournalM α} (hnone : next none = pure a)
    (hsome : ∀ {n p l w}, wp (compactReplayCounters cfg keep l) w (effectPost cfg f j v faults n p) →
      wp (next (some l)) w (effectPost cfg f j v faults n p)) :
    wp (current cfg >>= next) ⟨f, j, faults⟩
      (effectPost cfg f j v faults (floorLookups cfg f j) (compactPlan cfg f j keep)) := by
  refine current_effect hcfg h (.refl _) fun left hp => ?_
  cases hcur : v.cur with
  | none =>
    have : Done cfg f j v faults (floorLookups cfg f j) .keep .ok f (j.located v.cur) :=
      done_keep h h.live.located (KeepsCache.refl v j)
    rw [hcur] at this
    rw [hnone, compactPlan, h.newest, hcur]
    exact this
  | some l =>
    have := compact_effect hcfg h hcur hp keep
    rw [show 0 + j.lookups + j.scans l = floorLookups cfg f j by simp [floorLookups, h.newest, hcur], hcur] at this
    exact hsome this

theorem visit_effect (hcfg : ¬ cfg.Rejected) (h : Coupled cfg f j v) :
    wp (visitReplayCounters cfg) ⟨f, j, faults⟩ (effectPost cfg f j v faults n (visitPlan cfg f j)) := by
  unfold visitReplayCounters visitPlan
  refine current_effect hcfg h (.refl _) fun left hp => ?_
  rw [h.newest]
  cases hcur : v.cur with
  | none =>
    have : Done cfg f j v faults n .keep .ok f (j.located v.cur) :=
      done_keep h h.live.located (KeepsCache.refl v j)
    rw [hcur] at this
    exact this
  | some l =>
    simp only
    rw [← hcur]
    refine ensureReplayCache_effect h hp (fun t left' ht hp' => ?_) fun e he => by rw [he]
    rw [ht]
    exact done_keep_live h hcur ht

/-- **Every operation ends by an effect of its plan.** -/
theorem op_effect (hcfg : ¬ cfg.Rejected) (h : Coupled cfg f j v) (faults : List Fault) (op : Op) :
    wp (op.run cfg) ⟨f, j, faults⟩ (effectPost cfg f j v faults (op.lookups cfg f j) (op.plan cfg f j)) := by
  have hkeep : ∀ {n : Nat}, Done cfg f j v faults n .keep .ok f (j.located v.cur) :=
    done_keep h h.live.located (KeepsCache.refl v j)
  cases op with
  | setProductTag tag => exact done_keep h ⟨h.live.cached, h.live.replay⟩ (KeepsCache.refl v j)
  | selectRoleTag tag => exact selectRoleTag_effect hcfg h tag
  | productTag => exact discard_effect (current_effect hcfg h (.refl _) fun left hp => hkeep)
  | load => exact discard_effect (current_effect hcfg h (.refl _) fun left hp => hkeep)
  | visit => exact discard_effect (visit_effect hcfg h)
  | store st =>
    have := store_effect hcfg h (.refl faults) st
    rwa [Nat.zero_add] at this
  | commit r => exact commit_effect hcfg h r
  | tombstone scope => exact removal_effect hcfg h (fun r => !r.matchesTombstone scope) rfl discard_effect
  | retain keep => exact discard_effect (removal_effect hcfg h keep rfl id)

end Ops

end Zigbee.Runtime.SecurityJournal
