import Zigbee.Lib.Run
import Zigbee.Runtime.SecurityJournal.Effects

/-!
# Runs of the security journal

A machine is a flash with a live journal over it.  Events are journal operations, each with its own
script of flash faults and power cuts, and reboots; a power cut and a reboot leave the flash and a
freshly constructed journal.

* `Machine.content`, `Machine.reported` — what a journal answers to `load`, `product_tag` and
  `visit_replay_counters`; of `fresh m.flash`, what the next boot will answer.
* `exec_effect`, `reachable_coupled` — every operation is an effect of its plan, and every reachable
  machine is coupled to a durable view.
* `crash_atomic` — **crash atomicity**: whatever an operation does and wherever it is interrupted, the
  next boot loads the old state and tag or the new ones.
-/

namespace Zigbee.Runtime.SecurityJournal

open Bytes NorFlash Crash Crash.Prog FloorTable Run

/-- A configuration that `current` accepts. -/
structure Geometry extends Config where
  accepted : ¬ toConfig.Rejected

/-- Flash contents and the live journal. -/
structure Machine where
  flash : Flash
  journal : Journal

inductive Event where
  | op (op : Op) (faults : List Fault)
  | reboot

/-- A freshly constructed journal over `f`. -/
def fresh (f : Flash) : Machine := ⟨f, .new⟩

namespace Machine

variable (cfg : Geometry)

/-- One operation under a fault script: how it ended, and what it leaves. -/
def exec (m : Machine) (op : Op) (faults : List Fault) : Status × Machine :=
  match op.run cfg.toConfig ⟨m.flash, m.journal, faults⟩ with
  | .ok _ w => (.ok, ⟨w.disk, w.ram⟩)
  | .err e w => (.err e, ⟨w.disk, w.ram⟩)
  | .cut d => (.cut, fresh d)

def step (m : Machine) : Event → Machine
  | .op op faults => (m.exec cfg op faults).2
  | .reboot => fresh m.flash

theorem run_op (m : Machine) (op : Op) (faults : List Fault) :
    run (step cfg) m [.op op faults] = (m.exec cfg op faults).2 := rfl

theorem run_ops (m : Machine) (op op' : Op) (faults faults' : List Fault) :
    run (step cfg) m [.op op faults, .op op' faults'] =
      ((m.exec cfg op faults).2.exec cfg op' faults').2 := rfl

/-- The machine over erased flash. -/
def init : Machine := fresh NorFlash.erased

/-- The answer of an undisturbed query. -/
def observe {α : Type} (m : Machine) (query : JournalM α) : Except SecurityStoreError α :=
  match query ⟨m.flash, m.journal, []⟩ with
  | .ok a _ => .ok a
  | .err e _ => .error e
  | .cut _ => .error .hardware

/-- The state and the product tag the journal reports. -/
def content (m : Machine) : Except SecurityStoreError (Option (PersistentSecurityState × UInt16)) := do
  let state ← m.observe (load cfg.toConfig)
  let tag ← m.observe (productTag cfg.toConfig)
  pure (state.bind fun s => tag.map fun t => (s, t))

/-- The replay floors the journal reports. -/
def reported (m : Machine) : Except SecurityStoreError (List PersistentReplayCounter) :=
  m.observe (visitReplayCounters cfg.toConfig)

end Machine

/-! ## Queries -/

section

variable {cfg : Geometry} {m : Machine} {v : View}

/-- The machine is coupled to the durable view `v`. -/
def Machine.Shows (cfg : Geometry) (m : Machine) (v : View) : Prop :=
  Coupled cfg.toConfig m.flash m.journal v

theorem Machine.Shows.fresh (h : m.Shows cfg v) : (fresh m.flash).Shows cfg v := by
  obtain ⟨img, hrep, hshow, -⟩ := h
  exact ⟨img, hrep, hshow, Live.new _ _⟩

theorem Machine.Shows.newest (h : m.Shows cfg v) : cfg.newest m.flash = v.cur := Coupled.newest h

/-- A query that only looks things up answers as its rule says. -/
theorem observe_eq {α : Type} {query : JournalM α} {a : Except SecurityStoreError α}
    (h : wp query ⟨m.flash, m.journal, []⟩
      ⟨fun b _ => a = .ok b, fun e _ => a = .error e, fun _ => False⟩) : m.observe query = a := by
  unfold Machine.observe
  unfold wp at h
  split at h
  · rename_i b w hq; rw [hq, h]
  · rename_i e w hq; rw [hq, h]
  · exact absurd h id

theorem content_eq (h : m.Shows cfg v) :
    m.content cfg = .ok (v.cur.map fun l => (l.state, l.tag)) := by
  have hload : m.observe (load cfg.toConfig) = .ok (v.cur.map (·.state)) := by
    apply observe_eq
    simp only [load, wp_bind]
    exact current_wp cfg.accepted h (fun _ _ => rfl) (absurd rfl) (absurd rfl)
  have htag : m.observe (productTag cfg.toConfig) = .ok (v.cur.map (·.tag)) := by
    apply observe_eq
    simp only [productTag, wp_bind]
    exact current_wp cfg.accepted h (fun _ _ => rfl) (absurd rfl) (absurd rfl)
  unfold Machine.content
  rw [hload, htag]
  cases v.cur <;> rfl

theorem reported_eq (h : m.Shows cfg v) :
    m.reported cfg = match v.cur with
      | none => .ok []
      | some l => liveReplay cfg.toConfig m.flash m.journal l := by
  apply observe_eq
  simp only [visitReplayCounters, wp_bind]
  refine current_wp cfg.accepted h (fun left hp => ?_) (absurd rfl) (absurd rfl)
  cases hcur : v.cur with
  | none => rfl
  | some l =>
    simp only [wp_bind]
    obtain rfl : left = [] := List.suffix_nil.mp hp.suffix
    refine ensureReplayCache_wp (j := m.journal) rfl rfl (fun t _ ht _ => ht) ?_ (absurd rfl)
    rintro e _ (he | ⟨hne, -⟩)
    · exact he
    · exact absurd rfl hne

/-- A fresh journal reports a scan of the current generation. -/
theorem reported_fresh (h : m.Shows cfg v) {l : LocatedState} (hcur : v.cur = some l) :
    (fresh m.flash).reported cfg = cfg.scanReplay m.flash l.sector l.generation := by
  rw [reported_eq h.fresh, hcur]
  simp [liveReplay, SecurityJournal.fresh, Journal.new]

theorem reported_fresh_floors (h : m.Shows cfg v) {t : List PersistentReplayCounter}
    (ht : (fresh m.flash).reported cfg = .ok t) : Floors v.entries t ∧ t.length ≤ cfg.maxReplay := by
  cases hcur : v.cur with
  | none =>
    obtain ⟨img, -, hshow, -⟩ := h.fresh
    rw [reported_eq h.fresh, hcur] at ht
    cases ht
    rw [hshow.none_eq hcur]
    exact ⟨IsFloors.empty, Nat.zero_le _⟩
  | some l =>
    rw [reported_fresh h hcur] at ht
    obtain ⟨img, hrep, hshow, -⟩ := h
    rw [hshow.entries_eq hcur]
    exact scanReplay_ok hrep ht

/-- A fresh journal reports its floors exactly when their domains fit the cache. -/
theorem reported_fresh_isOk (h : m.Shows cfg v) :
    (∃ t, (fresh m.flash).reported cfg = .ok t) ↔ domains v.entries ≤ cfg.maxReplay := by
  cases hcur : v.cur with
  | none =>
    obtain ⟨img, -, hshow, -⟩ := h.fresh
    rw [reported_eq h.fresh, hcur, hshow.none_eq hcur]
    simp [domains, keyCount]
  | some l =>
    rw [reported_fresh h hcur]
    obtain ⟨img, hrep, hshow, -⟩ := h
    rw [hshow.entries_eq hcur]
    exact scanReplay_isOk hrep

/-! ## Steps and runs -/

/-- **One operation.** -/
theorem exec_effect (h : m.Shows cfg v) (op : Op) (faults : List Fault) :
    ∃ v', (m.exec cfg op faults).2.Shows cfg v' ∧
      Effect cfg.toConfig m.flash m.journal v faults (op.lookups cfg.toConfig m.flash m.journal)
        (op.plan cfg.toConfig m.flash m.journal) (m.exec cfg op faults).1 v' (m.exec cfg op faults).2.flash (m.exec cfg op faults).2.journal := by
  have hop := op_effect cfg.accepted h faults op
  unfold wp effectPost at hop
  unfold Machine.exec
  cases hr : op.run cfg.toConfig ⟨m.flash, m.journal, faults⟩ with
  | ok a w => rw [hr] at hop; exact hop
  | err e w => rw [hr] at hop; exact hop
  | cut d => rw [hr] at hop; exact hop

theorem step_coupled (h : m.Shows cfg v) (e : Event) : ∃ v', (m.step cfg e).Shows cfg v' := by
  cases e with
  | op op faults =>
    obtain ⟨v', h', -⟩ := exec_effect h op faults
    exact ⟨v', h'⟩
  | reboot => exact ⟨v, h.fresh⟩

theorem init_shows (cfg : Geometry) : Machine.init.Shows cfg ⟨none, ∅, ∅⟩ :=
  ⟨_, Rep.erased _, Shows.erased _, Live.new _ _⟩

/-- **Every reachable machine is coupled to a durable view.** -/
theorem reachable_coupled (cfg : Geometry) (es : List Event) :
    ∃ v, (run (Machine.step cfg) Machine.init es).Shows cfg v :=
  run_invariant (I := fun m => ∃ v, Machine.Shows cfg m v) (fun _ e ⟨_, h⟩ => step_coupled h e)
    ⟨_, init_shows cfg⟩ es

end

/-! ## Crash atomicity -/

/-- The operation writes a new generation. -/
def Op.rewrites (cfg : Geometry) (m : Machine) (op : Op) : Bool :=
  match op.plan cfg.toConfig m.flash m.journal with
  | .generation _ _ _ _ _ => true
  | _ => false

/-- The state and tag an operation is asked to make durable, over the old ones: a store its argument, a
    foreign role tag the cleared state, every other rewrite the state as it was.  The tag is the
    selected one, else the old one. -/
def Op.target (selected : Option UInt16) (old : Option (PersistentSecurityState × UInt16)) :
    Op → Option (PersistentSecurityState × UInt16)
  | .store state => some (state, (selected.or (old.map (·.2))).getD SECURITY_JOURNAL_UNTAGGED)
  | .selectRoleTag tag => old.map fun o => (clearedState o.1, tag)
  | .commit _ | .tombstone _ | .retain _ => old.map fun o => (o.1, selected.getD o.2)
  | .setProductTag _ | .productTag | .load | .visit => none

/-- The filter of a removal. -/
def Op.keeps : Op → Option (PersistentReplayCounter → Bool)
  | .tombstone scope => some fun r => !r.matchesTombstone scope
  | .retain keep => some keep
  | _ => none

/-- A store that changes the network or un-commissions the device, over the record `l`. -/
def Op.resets (l : LocatedState) : Op → Bool
  | .store state => !sameNetwork l.state state
  | .selectRoleTag tag => l.tag != tag
  | _ => false

/-- The snapshot of a new generation, from the floors `t₀` the journal works with. -/
inductive SnapshotOf (cfg : Geometry) (t₀ : List PersistentReplayCounter) (op : Op) :
    Bool → List PersistentReplayCounter → Prop
  | kept {st : PersistentSecurityState} (hop : op = .store st) : SnapshotOf cfg t₀ op false t₀
  | merged {r : PersistentReplayCounter} {t : List PersistentReplayCounter} (hop : op = .commit r)
      (hr : r.isNwk = false) (hm : mergeReplay cfg.maxReplay t₀ r = .ok t) : SnapshotOf cfg t₀ op true t
  | filtered {keep : PersistentReplayCounter → Bool} (hop : op.keeps = some keep) :
      SnapshotOf cfg t₀ op false (t₀.filter keep)

/-- What the plan of an operation says about the operation and the newest record. -/
inductive Planned (cfg : Geometry) (m : Machine) (cur : Option LocatedState) (op : Op) : Plan → Prop
  | keep : Planned cfg m cur op .keep
  | refuse {e : SecurityStoreError} : Planned cfg m cur op (.refuse e)
  | append {r : PersistentReplayCounter} {l : LocatedState} (hop : op = .commit r) (hr : r.isNwk = false)
      (hcur : cur = some l) (hcom : l.state.commissioned = true)
      (hpos : (cfg.findReplayAppendPosition m.flash l.sector l.generation).isSome = true) :
      Planned cfg m cur op (.append r)
  | first {g : UInt32} {st : PersistentSecurityState} {tag : UInt16} (hcur : cur = none)
      (htarget : op.target m.journal.productTag none = some (st, tag)) :
      Planned cfg m cur op (.generation false g st tag [])
  | reset {l : LocatedState} {g : UInt32} {st : PersistentSecurityState} {tag : UInt16} (hcur : cur = some l)
      (hreset : op.resets l = true) (htarget : op.target m.journal.productTag (some (l.state, l.tag)) = some (st, tag)) :
      Planned cfg m cur op (.generation false g st tag [])
  | next {l : LocatedState} {rollover : Bool} {g : UInt32} {st : PersistentSecurityState} {tag : UInt16}
      {t₀ t : List PersistentReplayCounter} (hcur : cur = some l)
      (htarget : op.target m.journal.productTag (some (l.state, l.tag)) = some (st, tag))
      (ht₀ : liveReplay cfg.toConfig m.flash m.journal l = .ok t₀) (hsnap : SnapshotOf cfg t₀ op rollover t) :
      Planned cfg m cur op (.generation rollover g st tag t)

section

variable {cfg : Geometry} {m : Machine} {v : View}

theorem compact_planned {op : Op} {keep : PersistentReplayCounter → Bool} (hop : op.keeps = some keep)
    (htarget : ∀ l, cfg.newest m.flash = some l → op.target m.journal.productTag (some (l.state, l.tag)) =
      some (l.state, commitTag cfg.toConfig m.flash m.journal)) :
    Planned cfg m (cfg.newest m.flash) op (compactPlan cfg.toConfig m.flash m.journal keep) := by
  unfold compactPlan
  split
  · exact .keep
  · rename_i l hcur
    split
    · exact .refuse
    · rename_i t ht
      split
      · exact .keep
      · split
        · exact .refuse
        · exact .next hcur (htarget l hcur) ht (.filtered hop)

/-- **Every plan comes from its operation.** -/
theorem plan_spec (h : m.Shows cfg v) (op : Op) :
    Planned cfg m v.cur op (op.plan cfg.toConfig m.flash m.journal) := by
  rw [← h.newest]
  -- the tag of a generation
  have htag : ∀ {l}, cfg.newest m.flash = some l →
      m.journal.productTag.getD l.tag = commitTag cfg.toConfig m.flash m.journal := fun hl => by
    rw [commitTag, hl]
    cases m.journal.productTag <;> rfl
  cases op with
  | setProductTag tag => exact .keep
  | productTag => exact .keep
  | load => exact .keep
  | visit =>
    simp only [Op.plan, visitPlan]
    split
    · exact .keep
    · split
      · exact .keep
      · exact .refuse
  | store st =>
    simp only [Op.plan, storePlan]
    split
    · rename_i hcur
      exact .first hcur (by simp [Op.target, commitTag, hcur])
    · rename_i l hcur
      have htarget : (Op.store st).target m.journal.productTag (some (l.state, l.tag)) =
          some (st, commitTag cfg.toConfig m.flash m.journal) := by simp [Op.target, commitTag, hcur]
      split
      · exact .refuse
      · split
        · split
          · rename_i t ht
            exact .next hcur htarget ht (.kept rfl)
          · exact .refuse
        · rename_i hs
          exact .reset hcur (by simpa [Op.resets] using hs) htarget
  | selectRoleTag tag =>
    simp only [Op.plan]
    split
    · exact .keep
    · rename_i l hcur
      split
      · exact .keep
      · rename_i hne
        have hs : sameNetwork l.state (clearedState l.state) = false := by
          simp [sameNetwork, clearedState, PersistentSecurityState.empty]
        simp only [storePlan, hcur, hs, Bool.false_eq_true, if_false]
        split
        · exact .refuse
        · exact .reset rfl (by simpa [Op.resets] using hne) (by simp [Op.target, commitTag])
  | commit r =>
    simp only [Op.plan, commitPlan]
    split
    · exact .keep
    · rename_i hr
      split
      · exact .refuse
      · rename_i l hcur
        split
        · exact .refuse
        · rename_i hcom
          split
          · exact .refuse
          · rename_i t ht
            split
            · exact .keep
            · split
              · rename_i pos hpos
                exact .append rfl (by simpa using hr) hcur (by simpa using hcom) (by simp [hpos])
              · split
                · rename_i hm
                  exact .next hcur (by simp [Op.target, htag hcur]) ht (.merged rfl (by simpa using hr) hm)
                · exact .refuse
                · exact .refuse
  | tombstone scope => exact compact_planned rfl fun l hl => by simp [Op.target, htag hl]
  | retain keep => exact compact_planned rfl fun l hl => by simp [Op.target, htag hl]

/-- A generation carries the target of its operation. -/
theorem plan_target (h : m.Shows cfg v) {op : Op} {rollover : Bool} {g : UInt32}
    {st : PersistentSecurityState} {tag : UInt16} {t : List PersistentReplayCounter}
    (hp : op.plan cfg.toConfig m.flash m.journal = .generation rollover g st tag t) :
    op.target m.journal.productTag (v.cur.map fun l => (l.state, l.tag)) = some (st, tag) := by
  have hspec := plan_spec h op
  rw [hp] at hspec
  cases hspec with
  | first hcur htarget => rw [hcur]; exact htarget
  | reset hcur hreset htarget => rw [hcur]; exact htarget
  | next hcur htarget ht₀ hsnap => rw [hcur]; exact htarget

end

/-- **Crash atomicity.**  After any operation in any reachable journal, whatever its faults, the next
    boot loads the old content or the target of the operation; it loads the target when a rewriting
    operation returned `Ok`, and the old content when the operation does not rewrite. -/
theorem crash_atomic (cfg : Geometry) (es : List Event) (op : Op) (faults : List Fault) :
    let m := run (Machine.step cfg) Machine.init es
    let m' := (m.exec cfg op faults).2
    ∃ old, (fresh m.flash).content cfg = .ok old ∧
      ((fresh m'.flash).content cfg = .ok old ∨
        ∃ new, op.target m.journal.productTag old = some new ∧
          (fresh m'.flash).content cfg = .ok (some new)) ∧
      (op.rewrites cfg m = true → (m.exec cfg op faults).1 = .ok →
        ∃ new, op.target m.journal.productTag old = some new ∧
          (fresh m'.flash).content cfg = .ok (some new)) ∧
      (op.rewrites cfg m = false → (fresh m'.flash).content cfg = .ok old) := by
  intro m m'
  obtain ⟨v, h⟩ := reachable_coupled cfg es
  obtain ⟨v', h', heff⟩ := exec_effect h op faults
  have hnew : (fresh m'.flash).content cfg = .ok (v'.cur.map fun l => (l.state, l.tag)) :=
    content_eq h'.fresh
  refine ⟨v.cur.map fun l => (l.state, l.tag), content_eq h.fresh, ?_⟩
  unfold Op.rewrites
  rw [hnew]
  cases hp : op.plan cfg.toConfig m.flash m.journal with
  | generation ro g st tag t =>
    have htarget := plan_target h hp
    rw [show Op.plan _ _ _ op = _ from hp] at heff
    rcases heff.cur with hcur | ⟨hcur, hs⟩
    · have hdone : ∃ new, op.target m.journal.productTag (v.cur.map fun l => (l.state, l.tag)) =
          some new ∧ (.ok (v'.cur.map fun l => (l.state, l.tag)) : Except SecurityStoreError _) =
            .ok (some new) := ⟨(st, tag), htarget, by rw [hcur]; rfl⟩
      exact ⟨Or.inr hdone, fun _ _ => hdone, by simp⟩
    · exact ⟨Or.inl (by rw [hcur]), fun _ hok => absurd hok hs, by simp⟩
  | keep =>
    rw [show Op.plan _ _ _ op = _ from hp] at heff
    rw [show v'.cur = v.cur from heff.cur]
    exact ⟨Or.inl rfl, by simp, fun _ => rfl⟩
  | refuse e =>
    rw [show Op.plan _ _ _ op = _ from hp] at heff
    rw [show v'.cur = v.cur from heff.cur]
    exact ⟨Or.inl rfl, by simp, fun _ => rfl⟩
  | append r =>
    rw [show Op.plan _ _ _ op = _ from hp] at heff
    rw [show v'.cur = v.cur from heff.cur]
    exact ⟨Or.inl rfl, by simp, fun _ => rfl⟩

end Zigbee.Runtime.SecurityJournal
