import Mathlib.Data.List.Perm.Subperm
import Zigbee.Runtime.ReportingSnapshot

/-!
# Restoring the reporting engine

* `put` — one entry put into an engine: replaced under its key, or appended where there is room.
* `fresh_last_mem`, `run_put_held` — what a list of entries leaves.
* `Survives` — an engine comes back from its snapshot, in a device that starts with the same defaults.
* `reporting_survives_restart` — the engines that survive are those whose configurations are records; a refused
  snapshot leaves the engine as it was exactly where the entries in front of the refused one were there already.
-/

namespace Zigbee.Runtime.ReportingSnapshot

open Bytes
open Zcl.Reporting (ReportingEngine ReportingConfig ReportState ReportDirection Op afterOps)
open Zcl.PollControl (PollControlState)
open Zcl.Reporting

variable {f : ZclFeatures} {engine : Engine f} {e : Entry} {es : List Entry}

/-! ## One entry -/

def keyOf (state : ReportState) : EntryKey := (entryOf state).key

/-- The keys that an engine holds. -/
def keys (engine : Engine f) : List EntryKey := engine.states.map keyOf

/-- Every configuration is about something else. -/
def Distinct (engine : Engine f) : Prop := (keys engine).Nodup

def put (engine : Engine f) (e : Entry) : Engine f :=
  match engine.configureForCluster e.endpoint e.clusterId e.config with
  | .ok engine => engine
  | .error _ => engine

/-- The engine takes the entry. -/
def Fits (engine : Engine f) (e : Entry) : Prop := e.key ∈ keys engine ∨ engine.states.length < MAX_REPORT_CONFIGS f

instance (engine : Engine f) (e : Entry) : Decidable (Fits engine e) := inferInstanceAs (Decidable (_ ∨ _))

@[simp] theorem keyOf_fresh (e : Entry) : keyOf e.fresh = e.key := rfl

@[simp] theorem entryOf_fresh (e : Entry) : entryOf e.fresh = e := rfl

theorem modify_eq_map {α κ : Type} [DecidableEq κ] {key : α → κ} {l : List α} {i : Nat} {k : κ} {g : α → α} (h : (l.map key).Nodup)
    (hi : ∃ a, l[i]? = some a ∧ key a = k) : l.modify i g = l.map fun a => if key a = k then g a else a := by
  obtain ⟨a, ha, rfl⟩ := hi
  apply List.ext_getElem?
  intro j
  rw [List.getElem?_modify, List.getElem?_map]
  cases hj : l[j]? with
  | none => rfl
  | some b =>
    by_cases hij : i = j
    · subst hij
      obtain rfl : a = b := Option.some.inj (ha.symm.trans hj)
      simp
    · have hkey : key b ≠ key a := by
        intro heq
        obtain ⟨hjlt, hjb⟩ := List.getElem?_eq_some_iff.mp hj
        obtain ⟨hilt, hia⟩ := List.getElem?_eq_some_iff.mp ha
        have hi' : i < (l.map key).length := by simpa using hilt
        have hj' : j < (l.map key).length := by simpa using hjlt
        refine hij ((@List.Nodup.getElem_inj_iff _ _ h _ hi' _ hj').mp ?_)
        rw [List.getElem_map, List.getElem_map, hia, hjb, heq]
      simp [hij, hkey]

/-- **What a call of `configure_for_cluster` does.** -/
theorem configure_cases (hd : Distinct engine) (e : Entry) :
    (e.key ∈ keys engine ∧ ∃ engine', engine.configureForCluster e.endpoint e.clusterId e.config = .ok engine' ∧
        engine'.states = engine.states.map fun state => if keyOf state = e.key then e.fresh else state) ∨
      (e.key ∉ keys engine ∧ engine.states.length < MAX_REPORT_CONFIGS f ∧
        ∃ engine', engine.configureForCluster e.endpoint e.clusterId e.config = .ok engine' ∧
          engine'.states = engine.states ++ [e.fresh]) ∨
      (e.key ∉ keys engine ∧ ¬ engine.states.length < MAX_REPORT_CONFIGS f ∧
        engine.configureForCluster e.endpoint e.clusterId e.config = .error .insufficientSpace) := by
  have hmatches : ∀ state : ReportState, (state.endpoint == e.endpoint && state.clusterId == e.clusterId &&
      state.config.attributeId == e.config.attributeId && state.config.direction == e.config.direction) = true ↔ keyOf state = e.key := by
    intro state
    simp [keyOf, entryOf, Entry.key, and_assoc]
  unfold ReportingEngine.configureForCluster
  split
  · rename_i i hfind
    obtain ⟨state, hi, hmatch⟩ := Table.getElem?_of_findIdx? hfind
    have hkey := (hmatches state).mp hmatch
    refine Or.inl ⟨hkey ▸ List.mem_map_of_mem (List.mem_of_getElem? hi), _, rfl, ?_⟩
    refine (modify_eq_map hd ⟨state, hi, hkey⟩).trans ?_
    refine List.map_congr_left fun s _ => ?_
    split
    · rename_i hs
      have hsame : s.endpoint = e.endpoint ∧ s.clusterId = e.clusterId := by
        simp only [keyOf, entryOf, Entry.key, EntryKey.mk.injEq] at hs
        exact ⟨hs.1, hs.2.1⟩
      rw [Entry.fresh, hsame.1, hsame.2]
    · rfl
  · rename_i hfind
    have hnew : e.key ∉ keys engine := by
      intro hmem
      obtain ⟨state, hstate, hkey⟩ := List.mem_map.mp hmem
      have := List.findIdx?_eq_none_iff.mp hfind state hstate
      rw [(hmatches state).mpr hkey] at this
      cases this
    split
    · rename_i hroom
      exact Or.inr (Or.inl ⟨hnew, hroom, _, rfl, rfl⟩)
    · rename_i hroom
      exact Or.inr (Or.inr ⟨hnew, hroom, rfl⟩)

theorem put_held (hd : Distinct engine) (h : e.key ∈ keys engine) :
    (put engine e).states = engine.states.map fun state => if keyOf state = e.key then e.fresh else state := by
  rcases configure_cases hd e with ⟨-, engine', hok, hstates⟩ | ⟨hnew, -⟩ | ⟨hnew, -⟩
  · rw [put, hok]
    exact hstates
  · exact absurd h hnew
  · exact absurd h hnew

theorem put_new (hd : Distinct engine) (h : e.key ∉ keys engine) (hroom : engine.states.length < MAX_REPORT_CONFIGS f) :
    (put engine e).states = engine.states ++ [e.fresh] := by
  rcases configure_cases hd e with ⟨hheld, -⟩ | ⟨-, -, engine', hok, hstates⟩ | ⟨-, hfull, -⟩
  · exact absurd hheld h
  · rw [put, hok]
    exact hstates
  · exact absurd hroom hfull

theorem put_full (hd : Distinct engine) (h : ¬ Fits engine e) : put engine e = engine := by
  rcases configure_cases hd e with ⟨hheld, -⟩ | ⟨-, hroom, -⟩ | ⟨-, -, herror⟩
  · exact absurd (Or.inl hheld) h
  · exact absurd (Or.inr hroom) h
  · rw [put, herror]

/-- The keys after a put. -/
theorem keys_put (hd : Distinct engine) (e : Entry) :
    keys (put engine e) = if e.key ∈ keys engine ∨ ¬ Fits engine e then keys engine else keys engine ++ [e.key] := by
  by_cases hheld : e.key ∈ keys engine
  · rw [if_pos (Or.inl hheld), keys, put_held hd hheld, List.map_map]
    refine List.map_congr_left fun state _ => ?_
    rw [Function.comp_apply]
    split
    · rename_i hkey
      exact hkey.symm
    · rfl
  · by_cases hroom : engine.states.length < MAX_REPORT_CONFIGS f
    · rw [if_neg fun h => h.elim hheld fun hfit => hfit (Or.inr hroom), keys, put_new hd hheld hroom, List.map_append]
      rfl
    · have hfit : ¬ Fits engine e := fun h => h.elim hheld hroom
      rw [if_pos (Or.inr hfit), put_full hd hfit]

theorem put_distinct (hd : Distinct engine) (e : Entry) : Distinct (put engine e) := by
  unfold Distinct
  rw [keys_put hd e]
  split
  · exact hd
  · rename_i h
    exact List.nodup_append.mpr ⟨hd, List.nodup_singleton _, fun a ha b hb => by
      rw [List.mem_singleton.mp hb]
      exact fun heq => h (Or.inl (heq ▸ ha))⟩

theorem keys_subset_put (hd : Distinct engine) (e : Entry) : keys engine ⊆ keys (put engine e) := by
  rw [keys_put hd e]
  split
  · exact List.Subset.refl _
  · exact List.subset_append_left _ _

theorem fresh_mem_put (hd : Distinct engine) (h : Fits engine e) : e.fresh ∈ (put engine e).states := by
  by_cases hheld : e.key ∈ keys engine
  · obtain ⟨state, hstate, hkey⟩ := List.mem_map.mp hheld
    rw [put_held hd hheld]
    exact List.mem_map.mpr ⟨state, hstate, if_pos hkey⟩
  · rw [put_new hd hheld (h.resolve_left hheld)]
    exact List.mem_append_right _ List.mem_cons_self

theorem mem_put_of_ne (hd : Distinct engine) {state : ReportState} (hstate : state ∈ engine.states) (hkey : keyOf state ≠ e.key) :
    state ∈ (put engine e).states := by
  by_cases hfit : Fits engine e
  · by_cases hheld : e.key ∈ keys engine
    · rw [put_held hd hheld]
      exact List.mem_map.mpr ⟨state, hstate, if_neg hkey⟩
    · rw [put_new hd hheld (hfit.resolve_left hheld)]
      exact List.mem_append_left _ hstate
  · rw [put_full hd hfit]
    exact hstate

theorem eq_of_key (hd : Distinct engine) {state state' : ReportState} (h : state ∈ engine.states) (h' : state' ∈ engine.states)
    (hkey : keyOf state = keyOf state') : state = state' :=
  List.inj_on_of_nodup_map hd h h' hkey

/-! ## A list of entries -/

theorem run_put_distinct (hd : Distinct engine) (es : List Entry) : Distinct (Run.run put engine es) :=
  Run.run_invariant (I := Distinct) (fun _ e h => put_distinct h e) hd es

theorem keys_subset_run (hd : Distinct engine) (es : List Entry) : keys engine ⊆ keys (Run.run put engine es) := by
  induction es generalizing engine with
  | nil => exact List.Subset.refl _
  | cons e es ih => exact fun k hk => ih (put_distinct hd e) (keys_subset_put hd e hk)

/-- Only the entries bring new keys. -/
theorem keys_run_subset (hd : Distinct engine) (es : List Entry) : keys (Run.run put engine es) ⊆ keys engine ++ es.map Entry.key := by
  induction es generalizing engine with
  | nil => simp
  | cons e es ih =>
    intro k hk
    rcases List.mem_append.mp (ih (put_distinct hd e) hk) with hk | hk
    · rw [keys_put hd e] at hk
      split at hk
      · exact List.mem_append_left _ hk
      · rcases List.mem_append.mp hk with hk | hk
        · exact List.mem_append_left _ hk
        · rw [List.mem_singleton.mp hk]
          exact List.mem_append_right _ List.mem_cons_self
    · exact List.mem_append_right _ (List.mem_cons_of_mem _ hk)

/-- The last entry for a key. -/
def lastFor (es : List Entry) (k : EntryKey) : Option Entry := es.reverse.find? fun e => e.key = k

theorem lastFor_concat (es : List Entry) (e : Entry) (k : EntryKey) :
    lastFor (es ++ [e]) k = if e.key = k then some e else lastFor es k := by
  rw [lastFor, List.reverse_append, List.reverse_singleton, List.singleton_append, List.find?_cons]
  by_cases h : e.key = k <;> simp [h, lastFor]

theorem lastFor_spec {k : EntryKey} {last : Entry} (h : lastFor es k = some last) : last ∈ es ∧ last.key = k :=
  ⟨List.mem_reverse.mp (List.mem_of_find?_eq_some h), by simpa using List.find?_some h⟩

theorem lastFor_isSome {k : EntryKey} (h : k ∈ es.map Entry.key) : ∃ last, lastFor es k = some last := by
  obtain ⟨e, he, hk⟩ := List.mem_map.mp h
  exact Option.isSome_iff_exists.mp (List.find?_isSome.mpr ⟨e, List.mem_reverse.mpr he, by simpa using hk⟩)

/-- **The last entry for a key is what the engine holds under it.** -/
theorem fresh_last_mem (hd : Distinct engine) {k : EntryKey} {last : Entry} (hfits : Run.Along put Fits engine es)
    (h : lastFor es k = some last) : last.fresh ∈ (Run.run put engine es).states := by
  induction es using List.reverseRecOn with
  | nil => cases h
  | append_singleton es e ih =>
    rw [Run.along_append] at hfits
    rw [Run.run_append]
    have hd' := run_put_distinct hd es
    rw [lastFor_concat] at h
    split at h
    · cases h
      exact fresh_mem_put hd' hfits.2.1
    · rename_i hkey
      refine mem_put_of_ne hd' (ih hfits.1 h) fun heq => hkey ?_
      rw [← heq, keyOf_fresh, (lastFor_spec h).2]

/-- A state under the key of an entry is that of an entry. -/
theorem exists_entry_of_mem (hd : Distinct engine) (hfits : Run.Along put Fits engine es) {state : ReportState}
    (hstate : state ∈ (Run.run put engine es).states) (hkey : keyOf state ∈ es.map Entry.key) :
    ∃ last, lastFor es (keyOf state) = some last ∧ state = last.fresh := by
  obtain ⟨last, hlast⟩ := lastFor_isSome hkey
  refine ⟨last, hlast, eq_of_key (run_put_distinct hd es) hstate (fresh_last_mem hd hfits hlast) ?_⟩
  rw [keyOf_fresh, (lastFor_spec hlast).2]

/-- Entries under keys that are held change the states in place. -/
theorem run_put_held (hd : Distinct engine) (h : ∀ e ∈ es, e.key ∈ keys engine) :
    (Run.run put engine es).states = engine.states.map fun state => ((lastFor es (keyOf state)).map Entry.fresh).getD state := by
  induction es using List.reverseRecOn with
  | nil => exact (List.map_id _).symm
  | append_singleton es e ih =>
    have hbefore := ih fun e' he' => h e' (List.mem_append_left _ he')
    have hheld : e.key ∈ keys (Run.run put engine es) :=
      keys_subset_run hd es (h e (List.mem_append_right _ List.mem_cons_self))
    rw [Run.run_append, Run.run_cons, Run.run_nil, put_held (run_put_distinct hd es) hheld, hbefore, List.map_map]
    refine List.map_congr_left fun state _ => ?_
    rw [Function.comp_apply, lastFor_concat]
    cases hlast : lastFor es (keyOf state) with
    | none =>
      rw [Option.map_none, Option.getD_none]
      by_cases hkey : e.key = keyOf state
      · rw [if_pos hkey.symm, if_pos hkey]
        rfl
      · rw [if_neg (Ne.symm hkey), if_neg hkey]
        rfl
    | some last =>
      have hlastKey : keyOf last.fresh = keyOf state := (lastFor_spec hlast).2
      rw [Option.map_some, Option.getD_some, hlastKey]
      by_cases hkey : e.key = keyOf state
      · rw [if_pos hkey.symm, if_pos hkey]
        rfl
      · rw [if_neg (Ne.symm hkey), if_neg hkey]
        rfl

/-! ## Applying a snapshot -/

/-- The entries in front of the first one that the engine has no room for. -/
def putBefore (maxConfigs : Nat) : List EntryKey → List Entry → List Entry
  | _, [] => []
  | held, e :: es =>
    if e.key ∈ held then e :: putBefore maxConfigs held es
    else if held.length < maxConfigs then e :: putBefore maxConfigs (held ++ [e.key]) es
    else []

theorem putBefore_fit (hd : Distinct engine) (hfit : Fits engine e) :
    putBefore (MAX_REPORT_CONFIGS f) (keys engine) (e :: es) = e :: putBefore (MAX_REPORT_CONFIGS f) (keys (put engine e)) es := by
  have hlength : (keys engine).length = engine.states.length := List.length_map _
  rw [putBefore, keys_put hd e]
  by_cases hheld : e.key ∈ keys engine
  · rw [if_pos hheld, if_pos (Or.inl hheld)]
  · rw [if_neg hheld, if_pos (by rw [hlength]; exact hfit.resolve_left hheld), if_neg fun h => h.elim hheld fun hnot => hnot hfit]

theorem putBefore_full (hfull : ¬ Fits engine e) : putBefore (MAX_REPORT_CONFIGS f) (keys engine) (e :: es) = [] := by
  have hlength : (keys engine).length = engine.states.length := List.length_map _
  rw [putBefore, if_neg fun hheld => hfull (Or.inl hheld), if_neg fun hroom => hfull (Or.inr (hlength ▸ hroom))]

/-- The loop goes on with an entry that fits. -/
theorem applyEntries_fit (hd : Distinct engine) (hfit : Fits engine e) (applied : Nat) :
    applyEntries (e :: es) engine applied = applyEntries es (put engine e) (applied + 1) := by
  rw [applyEntries, put]
  rcases configure_cases hd e with ⟨-, engine', hok, -⟩ | ⟨-, -, engine', hok, -⟩ | ⟨hnew, hfull, -⟩
  · rw [hok]
  · rw [hok]
  · exact absurd hfit (not_or.mpr ⟨hnew, hfull⟩)

theorem applyEntries_full (hd : Distinct engine) (hfull : ¬ Fits engine e) (applied : Nat) :
    applyEntries (e :: es) engine applied = (engine, .error .corrupt) := by
  rw [applyEntries]
  rcases configure_cases hd e with ⟨hheld, -⟩ | ⟨-, hroom, -⟩ | ⟨-, -, herror⟩
  · exact absurd (Or.inl hheld) hfull
  · exact absurd (Or.inr hroom) hfull
  · rw [herror]

/-- **The loop of `apply`** puts the entries in front of the one that is refused. -/
theorem applyEntries_eq (hd : Distinct engine) (es : List Entry) (applied : Nat) :
    (applyEntries es engine applied).1 = Run.run put engine (putBefore (MAX_REPORT_CONFIGS f) (keys engine) es) ∧
      Run.Along put Fits engine (putBefore (MAX_REPORT_CONFIGS f) (keys engine) es) ∧
      ((applyEntries es engine applied).2 = .error .corrupt ∨
        (applyEntries es engine applied).2 = .ok (applied + es.length) ∧ putBefore (MAX_REPORT_CONFIGS f) (keys engine) es = es) := by
  induction es generalizing engine applied with
  | nil => exact ⟨rfl, trivial, Or.inr ⟨rfl, rfl⟩⟩
  | cons e es ih =>
    by_cases hfit : Fits engine e
    · obtain ⟨hrun, halong, hresult⟩ := ih (put_distinct hd e) (applied + 1)
      rw [applyEntries_fit hd hfit, putBefore_fit hd hfit]
      refine ⟨hrun, ⟨hfit, halong⟩, hresult.imp id fun h => ⟨?_, by rw [h.2]⟩⟩
      rw [h.1, List.length_cons, Nat.add_right_comm, Nat.add_assoc]
    · rw [applyEntries_full hd hfit, putBefore_full hfit]
      exact ⟨rfl, trivial, Or.inl rfl⟩

/-- Entries that all fit are all put. -/
theorem applyEntries_fits (hd : Distinct engine) (hfits : Run.Along put Fits engine es) (applied : Nat) :
    applyEntries es engine applied = (Run.run put engine es, .ok (applied + es.length)) := by
  induction es generalizing engine applied with
  | nil => rfl
  | cons e es ih =>
    obtain ⟨hfit, hrest⟩ := hfits
    rw [applyEntries_fit hd hfit, ih (put_distinct hd e) hrest, List.length_cons, Nat.add_right_comm, Nat.add_assoc]
    rfl

theorem ext_engine {a b : Engine f} (h : a.states = b.states) : a = b := by
  cases a
  cases b
  cases h
  rfl

/-- The entries of a list are in the engine as putting them leaves them. -/
def There (engine : Engine f) (es : List Entry) : Prop := ∀ e ∈ es, ∃ last, lastFor es e.key = some last ∧ last.fresh ∈ engine.states

/-- **Entries that fit leave the engine as it was exactly where they are there already.** -/
theorem run_put_eq_self_iff (hd : Distinct engine) (hfits : Run.Along put Fits engine es) :
    Run.run put engine es = engine ↔ There engine es := by
  constructor
  · intro heq e he
    obtain ⟨last, hlast⟩ := lastFor_isSome (List.mem_map_of_mem (f := Entry.key) he)
    have hmem := fresh_last_mem hd hfits hlast
    rw [heq] at hmem
    exact ⟨last, hlast, hmem⟩
  · intro hthere
    have hheld : ∀ e ∈ es, e.key ∈ keys engine := by
      intro e he
      obtain ⟨last, hlast, hmem⟩ := hthere e he
      rw [← (lastFor_spec hlast).2]
      exact List.mem_map_of_mem (f := keyOf) hmem
    refine ext_engine ((run_put_held hd hheld).trans ?_)
    refine (List.map_congr_left fun state hstate => ?_).trans (List.map_id _)
    cases hlast : lastFor es (keyOf state) with
    | none => rfl
    | some last =>
      obtain ⟨hmem, hkey⟩ := lastFor_spec hlast
      obtain ⟨last', hlast', hfresh⟩ := hthere last hmem
      rw [hkey, hlast] at hlast'
      cases hlast'
      exact eq_of_key hd hfresh hstate hkey

/-! ## What an engine's snapshot says -/

theorem decodePollControl_encode (state : PollControlState) : decodePollControl (encodePollControl state) = some state := by
  have hlen : (encodePollControl state).length = 12 := by simp [encodePollControl]
  rw [decodePollControl, if_pos hlen]
  obtain ⟨checkIn, long, short, fast⟩ := state
  have h0 : u32At (encodePollControl ⟨checkIn, long, short, fast⟩) 0 = checkIn := by
    simp only [encodePollControl, List.append_assoc]
    exact u32At_le32 _ _
  have h4 : u32At (encodePollControl ⟨checkIn, long, short, fast⟩) 4 = long := by
    simp only [encodePollControl, List.append_assoc]
    rw [u32At_append_right (by simp)]
    exact u32At_le32 _ _
  have h8 : u16At (encodePollControl ⟨checkIn, long, short, fast⟩) 8 = short := by
    simp only [encodePollControl, List.append_assoc]
    rw [u16At_append_right (by simp), u16At_append_right (by simp)]
    exact u16At_le16 _ _
  have h10 : u16At (encodePollControl ⟨checkIn, long, short, fast⟩) 10 = fast := by
    simp only [encodePollControl, List.append_assoc]
    rw [u16At_append_right (by simp), u16At_append_right (by simp), u16At_append_right (by simp)]
    exact u16At_le16_self _
  rw [h0, h4, h8, h10]

theorem room_le (f : ZclFeatures) : MAX_REPORT_CONFIGS f ≤ 16 := by
  unfold MAX_REPORT_CONFIGS
  split
  · decide
  · split <;> decide

/-- A payload of an engine's records, with or without a Poll Control section. -/
theorem visitRecords_capture {s : PersistentReporting f} {records rest : Buf}
    (hpayload : s.payload = UInt8.ofNat engine.states.length :: (records ++ rest))
    (hepid : s.extendedPanId ≠ Vector.replicate 8 0)
    (hread : Records.readMany (readEntry f) engine.states.length [] (records ++ rest) = .ok (entries engine, rest))
    (hrest : rest = [] ∨ rest.length = POLL_CONTROL_SECTION_LEN ∧ u8At rest 0 = POLL_CONTROL_TAG) :
    visitRecords s = .ok (entries engine, 1 + records.length) := by
  have hmax := room_le f
  have hroom := engine.room
  have hcount : (u8At s.payload 0).toNat = engine.states.length := by
    rw [hpayload, u8At_cons_zero]
    exact UInt8.toNat_ofNat_of_lt' (by change _ < 256; omega)
  have hdrop : s.payload.drop 1 = records ++ rest := by
    rw [hpayload]
    rfl
  have hend : s.payload.length - rest.length = 1 + records.length := by
    rw [hpayload, List.length_cons, List.length_append]
    omega
  rw [visitRecords]
  dsimp only
  rw [hcount, if_neg (by rintro (hlt | hzero); exacts [by omega, hepid hzero]), hdrop, hread]
  change (if _ then Except.error _ else _) = _
  rw [if_neg ?_, hend]
  rintro ⟨hne, hbad⟩
  rcases hrest with hnil | ⟨hlen, htag⟩
  · exact hne hnil
  · exact hbad.elim (fun h => h hlen) fun h => h htag

variable {s : PersistentReporting f}

theorem pollControlOffset_of_visit {visited : List Entry} {recordsEnd : Nat} (h : visitRecords s = .ok (visited, recordsEnd)) :
    pollControlOffset s = if recordsEnd ≠ s.payload.length then some recordsEnd else none := by
  rw [pollControlOffset, PersistentReporting.forEachRecord, h]
  rfl

theorem apply_of_visit {visited : List Entry} {recordsEnd : Nat} (h : visitRecords s = .ok (visited, recordsEnd)) (engine : Engine f) :
    apply s engine = applyEntries visited engine 0 := by
  rw [apply, h]

/-! ## Survival -/

/-- Applied to `fresh`, the snapshot gives the configurations of `engine`. -/
def Restores (s : PersistentReporting f) (fresh engine : Engine f) : Prop :=
  ∃ restored, apply s fresh = (restored, .ok engine.states.length) ∧ ∀ e, e ∈ entries restored ↔ e ∈ entries engine

/-- The engine is captured, with or without Poll Control values, read back, and restored. -/
def Survives (extendedPanId : IeeeAddress) (fresh engine : Engine f) : Prop :=
  ∃ s, capture engine extendedPanId = .ok s ∧ PersistentReporting.fromParts f extendedPanId s.payload = .ok s ∧
    pollControl s = none ∧ Restores s fresh engine ∧
    ∀ poll, ∃ sp, withPollControl s poll = .ok sp ∧ PersistentReporting.fromParts f extendedPanId sp.payload = .ok sp ∧
      pollControl sp = some poll ∧ Restores sp fresh engine

theorem entries_keys (engine : Engine f) : (entries engine).map Entry.key = keys engine := by
  rw [entries, keys, List.map_map]
  rfl

/-- The entries of an engine fit where no other keys are. -/
theorem along_fits {K : List EntryKey} (hK : K.length ≤ MAX_REPORT_CONFIGS f) (hd : Distinct engine)
    (hkeys : keys engine ⊆ K) (hes : ∀ e ∈ es, e.key ∈ K) : Run.Along put Fits engine es := by
  induction es generalizing engine with
  | nil => trivial
  | cons e es ih =>
    have he := hes e List.mem_cons_self
    have hfit : Fits engine e := by
      by_cases hheld : e.key ∈ keys engine
      · exact Or.inl hheld
      · refine Or.inr ?_
        have hnodup : (e.key :: keys engine).Nodup := List.nodup_cons.mpr ⟨hheld, hd⟩
        have hsub : (e.key :: keys engine) ⊆ K := List.cons_subset.mpr ⟨he, hkeys⟩
        have hle := (hnodup.subperm hsub).length_le
        rw [List.length_cons, keys, List.length_map] at hle
        omega
    refine ⟨hfit, ih (put_distinct hd e) (fun k hk => ?_) fun e' he' => hes e' (List.mem_cons_of_mem _ he')⟩
    rcases List.mem_append.mp (keys_run_subset hd [e] hk) with hk | hk
    · exact hkeys hk
    · rw [List.map_singleton, List.mem_singleton] at hk
      rw [hk]
      exact he

/-- **An engine's entries, put into an engine without other keys, are its entries.** -/
theorem restores_entries {fresh : Engine f} (hd : Distinct engine) (hfresh : Distinct fresh) (hkeys : keys fresh ⊆ keys engine)
    {recordsEnd : Nat} (h : visitRecords s = .ok (entries engine, recordsEnd)) : Restores s fresh engine := by
  have hlength : (keys engine).length = engine.states.length := List.length_map _
  have hown : ∀ e ∈ entries engine, e.key ∈ keys engine := fun e he => by
    rw [← entries_keys]
    exact List.mem_map_of_mem (f := Entry.key) he
  have hfits : Run.Along put Fits fresh (entries engine) := along_fits (by rw [hlength]; exact engine.room) hfresh hkeys hown
  have happly := applyEntries_fits hfresh hfits 0
  have hentries : (entries engine).length = engine.states.length := List.length_map _
  rw [Nat.zero_add, hentries] at happly
  refine ⟨_, (apply_of_visit h fresh).trans happly, fun e => ?_⟩
  constructor
  · intro he
    obtain ⟨state, hstate, rfl⟩ := List.mem_map.mp he
    have hkey : keyOf state ∈ (entries engine).map Entry.key := by
      rw [entries_keys]
      rcases List.mem_append.mp (keys_run_subset hfresh (entries engine) (List.mem_map_of_mem (f := keyOf) hstate)) with hk | hk
      · exact hkeys hk
      · rwa [entries_keys] at hk
    obtain ⟨last, hlast, rfl⟩ := exists_entry_of_mem hfresh hfits hstate hkey
    exact (lastFor_spec hlast).1
  · intro he
    obtain ⟨last, hlast⟩ := lastFor_isSome (List.mem_map_of_mem (f := Entry.key) he)
    obtain ⟨hmem, hkey⟩ := lastFor_spec hlast
    obtain ⟨state, hstate, rfl⟩ := List.mem_map.mp he
    obtain ⟨state', hstate', rfl⟩ := List.mem_map.mp hmem
    obtain rfl := eq_of_key hd hstate' hstate hkey
    exact List.mem_map.mpr ⟨_, fresh_last_mem hfresh hfits hlast, rfl⟩

variable {extendedPanId : IeeeAddress}

/-- **An engine whose configurations are records survives.** -/
theorem survives_of_representable {fresh : Engine f} (hepid : extendedPanId ≠ Vector.replicate 8 0) (hd : Distinct engine)
    (hfresh : Distinct fresh) (hkeys : keys fresh ⊆ keys engine) (h : ∀ e ∈ entries engine, e.config.Representable (floatSupport f)) :
    Survives extendedPanId fresh engine := by
  have hroom := engine.room
  have hmul : engine.states.length * MAX_ENCODED_REPORTING_RECORD_LEN ≤ MAX_REPORT_CONFIGS f * MAX_ENCODED_REPORTING_RECORD_LEN :=
    Nat.mul_le_mul_right _ hroom
  have hmaxlen : MAX_ENCODED_REPORTING_LEN f = 1 + MAX_REPORT_CONFIGS f * MAX_ENCODED_REPORTING_RECORD_LEN + 13 := rfl
  obtain ⟨records, hrecords, hlen, hread⟩ := @captureRecords_representable f engine.states 1
    (fun state hstate => h (entryOf state) (List.mem_map_of_mem hstate)) (by omega)
  have hread : ∀ rest, Records.readMany (readEntry f) engine.states.length [] (records ++ rest) = .ok (entries engine, rest) :=
    hread []
  have hcapture : ∃ s, capture engine extendedPanId = .ok s ∧ s.extendedPanId = extendedPanId ∧
      s.payload = UInt8.ofNat engine.states.length :: records := by
    unfold capture
    split
    · rename_i e herror
      rw [hrecords] at herror
      cases herror
    · rename_i records' hrecords'
      rw [hrecords] at hrecords'
      cases hrecords'
      exact ⟨_, rfl, rfl, rfl⟩
  obtain ⟨s, hs, rfl, hpayload⟩ := hcapture
  have hvisit : visitRecords s = .ok (entries engine, 1 + records.length) :=
    @visitRecords_capture f engine s records [] (by rw [hpayload, List.append_nil]) hepid (hread []) (Or.inl rfl)
  have hoffset : pollControlOffset s = none := by
    rw [pollControlOffset_of_visit hvisit, if_neg (by rw [hpayload, List.length_cons]; omega)]
  refine ⟨s, hs, fromParts_of_visit hvisit, by rw [pollControl, hoffset]; rfl, restores_entries hd hfresh hkeys hvisit, fun poll => ?_⟩
  have hfits : ¬ MAX_ENCODED_REPORTING_LEN f < s.payload.length + POLL_CONTROL_SECTION_LEN := by
    rw [hpayload, List.length_cons]
    simp only [POLL_CONTROL_SECTION_LEN]
    omega
  have hwith : ∃ sp, withPollControl s poll = .ok sp ∧ sp.extendedPanId = s.extendedPanId ∧
      sp.payload = UInt8.ofNat engine.states.length :: (records ++ POLL_CONTROL_TAG :: encodePollControl poll) := by
    unfold withPollControl
    rw [hoffset, if_neg (by simp), dif_neg hfits]
    exact ⟨_, rfl, rfl, congrArg (· ++ POLL_CONTROL_TAG :: encodePollControl poll) hpayload⟩
  obtain ⟨sp, hsp, hpan, hpayload'⟩ := hwith
  have hvisit' : visitRecords sp = .ok (entries engine, 1 + records.length) :=
    visitRecords_capture hpayload' (by rw [hpan]; exact hepid) (hread _) (Or.inr ⟨by simp [encodePollControl, POLL_CONTROL_SECTION_LEN], rfl⟩)
  have hoffset' : pollControlOffset sp = some (1 + records.length) := by
    rw [pollControlOffset_of_visit hvisit', if_pos]
    rw [hpayload']
    simp only [List.length_cons, List.length_append]
    omega
  have hpoll : pollControl sp = some poll := by
    have hdrop : sp.payload.drop (1 + records.length + 1) = encodePollControl poll := by
      have hsplit : sp.payload = (UInt8.ofNat engine.states.length :: (records ++ [POLL_CONTROL_TAG])) ++ encodePollControl poll := by
        rw [hpayload']
        simp
      rw [hsplit, List.drop_left' (by simp; omega)]
    rw [pollControl, hoffset', Option.bind_eq_bind, Option.bind_some, hdrop, decodePollControl_encode]
  refine ⟨sp, hsp, ?_, hpoll, restores_entries hd hfresh hkeys hvisit'⟩
  rw [← hpan]
  exact fromParts_of_visit hvisit'

/-- **An engine that survives has only records.** -/
theorem representable_of_survives {fresh : Engine f} (hfresh : Distinct fresh) (h : Survives extendedPanId fresh engine) :
    ∀ e ∈ entries engine, e.config.Representable (floatSupport f) := by
  obtain ⟨s, hs, hparts, -, ⟨restored, happly, hentries⟩, -⟩ := h
  by_contra hbad
  obtain ⟨e, he, hrep⟩ := not_forall₂.mp hbad
  obtain ⟨state, hstate, rfl⟩ := List.mem_map.mp he
  have hcapture : ∃ records, captureRecords f engine.states 1 = .ok records ∧ s.extendedPanId = extendedPanId ∧
      s.payload = UInt8.ofNat engine.states.length :: records := by
    unfold capture at hs
    split at hs
    · cases hs
    · rename_i records hrecords
      cases hs
      exact ⟨records, hrecords, rfl, rfl⟩
  obtain ⟨records, hrecords, rfl, hpayload⟩ := hcapture
  obtain ⟨-, visited, recordsEnd, hvisit⟩ := visit_of_fromParts hparts
  have hmany : ∃ rest, Records.readMany (readEntry f) engine.states.length [] (records ++ []) = .ok (visited, rest) := by
    have hmax := room_le f
    have hroom := engine.room
    have hcount : (u8At s.payload 0).toNat = engine.states.length := by
      rw [hpayload, u8At_cons_zero]
      exact UInt8.toNat_ofNat_of_lt' (by change _ < 256; omega)
    have hdrop : s.payload.drop 1 = records ++ [] := by
      rw [hpayload, List.append_nil]
      rfl
    unfold visitRecords at hvisit
    dsimp only at hvisit
    rw [hcount, hdrop] at hvisit
    split at hvisit
    · cases hvisit
    · cases hread : Records.readMany (readEntry f) engine.states.length [] (records ++ []) with
      | error e =>
        rw [hread] at hvisit
        cases hvisit
      | ok r =>
        rw [hread] at hvisit
        change (if _ then Except.error _ else Except.ok (r.1, _)) = _ at hvisit
        split at hvisit
        · cases hvisit
        · cases hvisit
          exact ⟨r.2, rfl⟩
  obtain ⟨rest, hread⟩ := hmany
  obtain ⟨bad, hbadmem, hunrep, new, hnew, -, hkey⟩ := captureRecords_unrepresentable hrecords hread ⟨state, hstate, hrep⟩
  obtain ⟨visited', hvisited, hall⟩ := readMany_representable hread
  rw [List.nil_append] at hvisited
  subst hvisited
  rw [apply_of_visit hvisit] at happly
  obtain ⟨hrun, hfits, hresult⟩ := applyEntries_eq hfresh visited 0
  rw [happly] at hrun hresult
  obtain ⟨-, hall'⟩ := hresult.resolve_left nofun
  rw [hall'] at hrun hfits
  have hback := (hentries (entryOf bad)).mpr (List.mem_map_of_mem hbadmem)
  obtain ⟨state', hstate', heq⟩ := List.mem_map.mp hback
  rw [show restored = Run.run put fresh visited from hrun] at hstate'
  have hstatekey : keyOf state' ∈ visited.map Entry.key := by
    rw [keyOf, heq, ← hkey]
    exact List.mem_map_of_mem hnew
  obtain ⟨last, hlast, rfl⟩ := exists_entry_of_mem hfresh hfits hstate' hstatekey
  rw [entryOf_fresh] at heq
  apply hunrep
  have hlastrep := hall last (lastFor_spec hlast).1
  rw [heq] at hlastrep
  exact hlastrep

/-! ## Engines that run -/

section
variable {floats : Zcl.FloatSupport}

theorem keyOf_afterVisit {maxConfigs : Nat} (due : ReportState → Option AttributeReport) (state : ReportState)
    (reports : List AttributeReport) :
    entryOf (visitDue maxConfigs due state reports).1 = entryOf state := by
  unfold visitDue
  split <;> rfl

/-- A pass leaves the configurations alone. -/
theorem passLoop_entries {visit : ReportState → List AttributeReport → ReportState × List AttributeReport}
    (hvisit : ∀ state reports, entryOf (visit state reports).1 = entryOf state) (states : List ReportState)
    (reports : List AttributeReport) : (passLoop visit states reports).1.map entryOf = states.map entryOf := by
  induction states generalizing reports with
  | nil => rfl
  | cons state rest ih =>
    simp only [passLoop, List.map_cons]
    rw [hvisit, ih]

/-- **What an operation does to the configurations**: `configure_for_cluster` puts one, the others leave them. -/
theorem step_entries (s : Engine f × List Zcl.Reporting.Event) (op : Op) :
    (∃ e : Entry, op = .configure e.endpoint e.clusterId e.config ∧ (Zcl.Reporting.step floats s op).1 = put s.1 e) ∨
      entries (Zcl.Reporting.step floats s op).1 = entries s.1 := by
  cases op with
  | configure endpoint clusterId config =>
    refine Or.inl ⟨⟨endpoint, clusterId, config⟩, rfl, ?_⟩
    unfold Zcl.Reporting.step put
    dsimp only
    cases s.1.configureForCluster endpoint clusterId config <;> rfl
  | tick elapsedSecs =>
    refine Or.inr (List.map_map.trans ?_)
    rfl
  | forceAllDue =>
    refine Or.inr (List.map_map.trans (List.map_congr_left fun state _ => ?_))
    rw [Function.comp_apply]
    split <;> rfl
  | report filterEp filterCluster store =>
    refine Or.inr (passLoop_entries (fun state reports => ?_) _ _)
    rw [visitFiltered_eq]
    exact keyOf_afterVisit _ state reports
  | collect endpoint clusterId store out =>
    refine Or.inr (passLoop_entries (fun state reports => ?_) _ _)
    rw [visitDyn_eq _ _ _ _ _ out]
    exact keyOf_afterVisit _ state reports

theorem keys_of_entries {engine' : Engine f} (h : entries engine' = entries engine) : keys engine' = keys engine := by
  rw [← entries_keys, ← entries_keys, h]

theorem mem_entries_put (hd : Distinct engine) {e' : Entry} (h : e' ∈ entries (put engine e)) : e' = e ∨ e' ∈ entries engine := by
  obtain ⟨state, hstate, rfl⟩ := List.mem_map.mp h
  by_cases hheld : e.key ∈ keys engine
  · rw [put_held hd hheld] at hstate
    obtain ⟨old, hold, rfl⟩ := List.mem_map.mp hstate
    split
    · exact Or.inl rfl
    · exact Or.inr (List.mem_map_of_mem hold)
  · by_cases hroom : engine.states.length < MAX_REPORT_CONFIGS f
    · rw [put_new hd hheld hroom] at hstate
      rcases List.mem_append.mp hstate with hold | hnew
      · exact Or.inr (List.mem_map_of_mem hold)
      · rw [List.mem_singleton.mp hnew]
        exact Or.inl rfl
    · rw [put_full hd fun hfit => hfit.elim hheld hroom] at hstate
      exact Or.inr (List.mem_map_of_mem hstate)

/-- The engine of a device with these product defaults. -/
def fresh (f : ZclFeatures) (defaults : List Entry) : Engine f := Run.run put .new defaults

/-- The engine after operations on a device with these product defaults. -/
def reached (f : ZclFeatures) (defaults : List Entry) (ops : List Op) : Engine f :=
  (Run.run (Zcl.Reporting.step (floatSupport f)) (fresh f defaults, []) ops).1

theorem fresh_distinct (f : ZclFeatures) (defaults : List Entry) : Distinct (fresh f defaults) :=
  @run_put_distinct f .new List.nodup_nil defaults

/-- What holds of every engine that is reached: its keys are distinct, and those of the defaults are among them. -/
theorem reached_keys (f : ZclFeatures) (defaults : List Entry) (ops : List Op) :
    Distinct (reached f defaults ops) ∧ keys (fresh f defaults) ⊆ keys (reached f defaults ops) := by
  refine @Run.run_invariant _ _ (Zcl.Reporting.step (floatSupport f))
    (fun s => Distinct s.1 ∧ keys (fresh f defaults) ⊆ keys s.1) (fun s op h => ?_) _
    ⟨fresh_distinct f defaults, List.Subset.refl _⟩ ops
  rcases step_entries s op with ⟨e, -, hput⟩ | hsame
  · rw [hput]
    exact ⟨put_distinct h.1 e, fun k hk => keys_subset_put h.1 e (h.2 hk)⟩
  · rw [Distinct, keys_of_entries hsame]
    exact h

/-- The data type of the record at `cursor` is one that the build supports. -/
def Supported (floats : Zcl.FloatSupport) (payload : Buf) (cursor : Nat) : Prop :=
  u8At payload cursor = 0x00 → ∀ dt, Zcl.ZclDataType.fromU8 (u8At payload (cursor + 3)) = some dt → floats.isEnabled dt = true

/-- The configuration comes from a record of a supported data type that the dispatcher accepts. -/
def FromWire (floats : Zcl.FloatSupport) (config : ReportingConfig) : Prop :=
  ∃ payload cursor next, Supported floats payload cursor ∧
    parseConfigureReportingRecord floats payload cursor = some (config, next)

theorem representable_of_fromWire {config : ReportingConfig} (h : FromWire floats config) : config.Representable floats := by
  obtain ⟨payload, cursor, next, hsupported, hparse⟩ := h
  rw [parseConfigureReportingRecord_eq hsupported] at hparse
  obtain ⟨⟨config', n⟩, hrecord, heq⟩ := Option.map_eq_some_iff.mp hparse
  cases heq
  exact (parseRecord_eq_some hrecord).1

/-- Configurations of the wire over defaults that are records are records. -/
theorem reached_representable {defaults : List Entry} {ops : List Op}
    (hdefaults : ∀ e ∈ defaults, e.config.Representable (floatSupport f))
    (hops : ∀ endpoint clusterId config, Op.configure endpoint clusterId config ∈ ops → FromWire (floatSupport f) config) :
    ∀ e ∈ entries (reached f defaults ops), e.config.Representable (floatSupport f) := by
  have hfresh : Distinct (fresh f defaults) ∧ ∀ e ∈ entries (fresh f defaults), e.config.Representable (floatSupport f) := by
    refine Run.run_induct (I := fun engine => Distinct engine ∧ ∀ e ∈ entries engine, e.config.Representable (floatSupport f))
      (P := fun _ e => e.config.Representable (floatSupport f)) (fun engine e h he => ⟨put_distinct h.1 e, fun e' he' => ?_⟩)
      ⟨List.nodup_nil, fun _ he => absurd he List.not_mem_nil⟩ (Run.along_of_forall hdefaults)
    rcases mem_entries_put h.1 he' with rfl | hold
    · exact he
    · exact h.2 e' hold
  refine (@Run.run_induct _ _ (Zcl.Reporting.step (floatSupport f))
    (fun s => Distinct s.1 ∧ ∀ e ∈ entries s.1, e.config.Representable (floatSupport f))
    (fun _ op => ∀ endpoint clusterId config, op = Op.configure endpoint clusterId config → FromWire (floatSupport f) config)
    (fun s op h hop => ?_) (fresh f defaults, []) ops hfresh (Run.along_of_forall ?_)).2
  · rcases step_entries s op with ⟨e, rfl, hput⟩ | hsame
    · rw [hput]
      refine ⟨put_distinct h.1 e, fun e' he' => ?_⟩
      rcases mem_entries_put h.1 he' with rfl | hold
      · exact representable_of_fromWire (hop _ _ _ rfl)
      · exact h.2 e' hold
    · rw [Distinct, keys_of_entries hsame, hsame]
      exact h
  · rintro op hmem endpoint clusterId config rfl
    exact hops endpoint clusterId config hmem

/-! ## A snapshot that is refused -/

/-- The entries of a snapshot that are put before one is refused. -/
def puts (s : PersistentReporting f) (engine : Engine f) : List Entry :=
  match visitRecords s with
  | .error _ => []
  | .ok (visited, _) => putBefore (MAX_REPORT_CONFIGS f) (keys engine) visited

/-- The engine has no room for an entry of the snapshot. -/
def Overflows (s : PersistentReporting f) (engine : Engine f) : Prop :=
  ∃ visited recordsEnd, visitRecords s = .ok (visited, recordsEnd) ∧
    putBefore (MAX_REPORT_CONFIGS f) (keys engine) visited ≠ visited

/-- **A refused snapshot leaves the engine as it was** exactly where it is malformed, or the entries in front of
    the one without room were there already. -/
theorem refused_iff (hd : Distinct engine) (s : PersistentReporting f) :
    (∀ engine' error, apply s engine = (engine', .error error) → engine' = engine) ↔
      (Overflows s engine → There engine (puts s engine)) := by
  cases hvisit : visitRecords s with
  | error e =>
    constructor
    · rintro - ⟨visited, recordsEnd, hok, -⟩
      rw [hvisit] at hok
      cases hok
    · rintro - engine' error happly
      rw [apply, hvisit] at happly
      cases happly
      rfl
  | ok r =>
    obtain ⟨visited, recordsEnd⟩ := r
    obtain ⟨hrun, hfits, hresult⟩ := applyEntries_eq hd visited 0
    have hputs : puts s engine = putBefore (MAX_REPORT_CONFIGS f) (keys engine) visited := by
      rw [puts, hvisit]
    have hthere := run_put_eq_self_iff hd hfits
    rw [hputs]
    constructor
    · rintro hsame ⟨visited', recordsEnd', hok, hoverflows⟩
      rw [hvisit] at hok
      cases hok
      have herror := hresult.resolve_right fun h => hoverflows h.2
      refine hthere.mp (hrun.symm.trans (hsame _ .corrupt ?_))
      rw [apply_of_visit hvisit, ← herror]
    · intro hholds engine' error happly
      rw [apply_of_visit hvisit] at happly
      by_cases hall : putBefore (MAX_REPORT_CONFIGS f) (keys engine) visited = visited
      · have := applyEntries_fits hd (hall ▸ hfits) 0
        rw [happly] at this
        cases this
      · rw [happly] at hrun
        exact hrun.trans (hthere.mpr (hholds ⟨visited, recordsEnd, hvisit, hall⟩))

/-- A network's extended PAN ID survives in a snapshot only if it is not zero. -/
theorem epid_of_survives {fresh : Engine f} (h : Survives extendedPanId fresh engine) : extendedPanId ≠ Vector.replicate 8 0 := by
  obtain ⟨s, hs, hparts, -⟩ := h
  have hpan : s.extendedPanId = extendedPanId := by
    unfold capture at hs
    split at hs
    · cases hs
    · cases hs
      rfl
  subst hpan
  obtain ⟨-, visited, recordsEnd, hvisit⟩ := visit_of_fromParts hparts
  intro hzero
  unfold visitRecords at hvisit
  dsimp only at hvisit
  rw [if_pos (Or.inr hzero)] at hvisit
  cases hvisit

/-- A restart keeps the configurations of an engine, and a refused snapshot changes nothing. -/
structure KeepsReporting (extendedPanId : IeeeAddress) (fresh engine : Engine f) (s : PersistentReporting f) : Prop where
  survives : Survives extendedPanId fresh engine
  refused : ∀ engine' error, apply s engine = (engine', .error error) → engine' = engine

/-- **Reporting configurations and restarts.**  The two parsers agree on supported data types, and their records
    over defaults that are records are all that an engine holds; a restart keeps exactly the engines of records, and
    a refused snapshot changes nothing exactly where the entries in front of the refused one were there. -/
theorem reporting_survives_restart (f : ZclFeatures) (extendedPanId : IeeeAddress) (defaults : List Entry) (ops : List Op)
    (s : PersistentReporting f) :
    (∀ payload cursor, Supported (floatSupport f) payload cursor →
      parseConfigureReportingRecord (floatSupport f) payload cursor =
        (parseRecord (floatSupport f) (payload.drop cursor)).map fun r => (r.1, cursor + r.2)) ∧
    (KeepsReporting extendedPanId (fresh f defaults) (reached f defaults ops) s ↔
      extendedPanId ≠ Vector.replicate 8 0 ∧
      (∀ e ∈ entries (reached f defaults ops), e.config.Representable (floatSupport f)) ∧
      (Overflows s (reached f defaults ops) →
        There (reached f defaults ops) (puts s (reached f defaults ops)))) ∧
    ((∀ e ∈ defaults, e.config.Representable (floatSupport f)) →
      (∀ endpoint clusterId config, Op.configure endpoint clusterId config ∈ ops → FromWire (floatSupport f) config) →
      extendedPanId ≠ Vector.replicate 8 0 →
      Survives extendedPanId (fresh f defaults) (reached f defaults ops)) := by
  obtain ⟨hd, hkeys⟩ := reached_keys f defaults ops
  have hfresh := fresh_distinct f defaults
  refine ⟨fun payload cursor h => parseConfigureReportingRecord_eq h, ⟨fun h => ?_, fun h => ?_⟩,
    fun hdefaults hops hepid => ?_⟩
  · exact ⟨epid_of_survives h.survives, representable_of_survives hfresh h.survives, (refused_iff hd s).mp h.refused⟩
  · obtain ⟨hepid, hrep, hrefused⟩ := h
    exact ⟨survives_of_representable hepid hd hfresh hkeys hrep, (refused_iff hd s).mpr hrefused⟩
  · exact survives_of_representable hepid hd hfresh hkeys (reached_representable hdefaults hops)

end

/-! ## A full engine, and a default without a change -/

/-- A build with room for four configurations. -/
def compact : ZclFeatures := ⟨true, false, true, false⟩

def awaits (attributeId : UInt16) (timeout : UInt16) : Entry := ⟨1, 6, ⟨.receive, attributeId, .noData, 0, timeout, none⟩⟩

def fullDefaults : List Entry := [awaits 0 60, awaits 1 60, awaits 2 60, awaits 3 60]

/-- One of the four configurations with another timeout, and a fifth one. -/
def olderSnapshot : PersistentReporting compact where
  extendedPanId := ⟨#[1, 2, 3, 4, 5, 6, 7, 8], rfl⟩
  payload := [2, 1, 6, 0, 1, 0, 0, 90, 0, 1, 6, 0, 1, 4, 0, 90, 0]
  nonempty := by decide
  fits := by decide

/-- A temperature that is reported whenever it changes. -/
def anyChange : Entry := ⟨1, 0x0402, ⟨.send, 0, .i16, 10, 600, none⟩⟩

/-- The older snapshot is refused after it changed the engine, and the default without a change is not captured. -/
theorem refused_snapshot_changes_engine :
    PersistentReporting.fromParts compact olderSnapshot.extendedPanId olderSnapshot.payload = .ok olderSnapshot ∧
    (apply olderSnapshot (fresh compact fullDefaults)).2 = .error .corrupt ∧
    entries (apply olderSnapshot (fresh compact fullDefaults)).1 = [awaits 0 90, awaits 1 60, awaits 2 60, awaits 3 60] ∧
    entries (fresh compact fullDefaults) = fullDefaults ∧
    capture (fresh compact [anyChange]) olderSnapshot.extendedPanId = .error .corrupt := by
  refine ⟨?_, ?_, ?_, ?_, ?_⟩
  · decide +kernel
  · decide +kernel
  · decide +kernel
  · decide +kernel
  · rfl

/-- A thermometer's record: a report every 10 to 600 seconds, or when the temperature changes by half a degree. -/
def temperatureRecord : Buf := [0x00, 0x00, 0x00, 0x29, 0x0A, 0x00, 0x58, 0x02, 0x32, 0x00]

def temperature : ReportingConfig := ⟨.send, 0, .i16, 10, 600, some (.i16 50)⟩

theorem temperature_fromWire : FromWire (floatSupport compact) temperature := by
  refine ⟨temperatureRecord, 0, 10, fun _ dt h => ?_, by decide +kernel⟩
  obtain rfl : .i16 = dt := Option.some.inj h
  rfl

/-- The configuration from the wire survives a restart of a device with one default. -/
theorem temperature_survives :
    entries (reached compact [awaits 0 60] [.configure 1 0x0402 temperature, .tick 30]) = [awaits 0 60, ⟨1, 0x0402, temperature⟩] ∧
    Survives olderSnapshot.extendedPanId (fresh compact [awaits 0 60])
      (reached compact [awaits 0 60] [.configure 1 0x0402 temperature, .tick 30]) := by
  refine ⟨by decide +kernel, (reporting_survives_restart compact _ _ _ olderSnapshot).2.2 ?_ ?_ (by decide)⟩
  · simp [awaits, ReportingConfig.Representable]
  · intro endpoint clusterId config hconfig
    obtain ⟨-, -, rfl⟩ : endpoint = 1 ∧ clusterId = 0x0402 ∧ config = temperature := by simpa using hconfig
    exact temperature_fromWire

end Zigbee.Runtime.ReportingSnapshot
