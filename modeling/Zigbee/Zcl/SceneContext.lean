import Zigbee.Zcl.Attribute

/-!
# Scene contexts

Model of the scene contexts in `zigbee-zcl/src/clusters/scenes.rs`: how the state of the clusters of an
endpoint is captured as extension field sets, and applied again.

* `SceneEndpoint.capture`, `SceneEndpoint.recallExt` — the source's functions, with the calls of `scene_apply`.
* `snapshot` — the attribute values that a scene is about.
* `recall_capture` — what was captured is applied, where cluster ids are distinct and every value fits the
  type of its attribute.
-/

namespace Zigbee.Zcl.Scenes

open Bytes

/-- Maximum extension data per scene. -/
def MAX_EXTENSION_DATA : Nat := 32

/-- Extension field set storage for one scene. -/
abbrev ExtensionData := { bytes : Buf // bytes.length ≤ MAX_EXTENSION_DATA }

/-- Endpoint services that the Scenes cluster needs but does not own. -/
structure SceneContext (σ : Type) where
  isGroupMember : σ → UInt16 → Bool
  capture : σ → Except ZclStatus ExtensionData
  recallExt : σ → Buf → UInt16 → σ × Except ZclStatus Unit

/-- The context of the plain `handle_command` path. -/
def NoSceneContext : SceneContext Unit where
  isGroupMember _ _ := true
  capture _ := .error .failure
  recallExt _ ext _ := ((), if ext.isEmpty then .ok () else .error .failure)

/-- A cluster whose state is part of a scene. -/
structure SceneCluster where
  id : UInt16
  /-- Attributes of the extension field set, in wire order. -/
  sceneAttributes : List AttributeId
  capacity : Nat
  attributes : AttributeStore capacity

/-- `scene_apply`: the value is written directly. -/
def SceneCluster.sceneApply (c : SceneCluster) (id : AttributeId) (value : ZclValue) : SceneCluster :=
  { c with attributes := c.attributes.setRawIgnored id value }

/-- A call of `scene_apply`. -/
structure Application where
  cluster : UInt16
  id : AttributeId
  value : ZclValue
  transitionDs : UInt16
  deriving DecidableEq

/-- The scene-capable clusters of an endpoint, its groups, and the calls of `scene_apply` so far. -/
structure SceneEndpoint where
  clusters : List SceneCluster
  isMember : UInt16 → Bool
  applied : List Application

/-- The field set of a cluster: it ends at the first attribute that the cluster does not implement. -/
def captureSet {N : Nat} (attributes : AttributeStore N) : List AttributeId → Buf → Except ZclStatus Buf
  | [], set => .ok set
  | id :: ids, set =>
    match attributes.get id with
    | none => .ok set
    | some v =>
      match v.trySerialize (MAX_EXTENSION_DATA - set.length) with
      | none => .error .insufficientSpace
      | some bytes => captureSet attributes ids (set ++ bytes)

/-- Header and field set of every cluster, behind what `out` holds. -/
def captureLoop : List SceneCluster → ExtensionData → Except ZclStatus ExtensionData
  | [], out => .ok out
  | c :: clusters, out =>
    match captureSet c.attributes c.sceneAttributes [] with
    | .error e => .error e
    | .ok set =>
      if h : (out.1 ++ (le16 c.id ++ [UInt8.ofNat set.length] ++ set)).length ≤ MAX_EXTENSION_DATA then
        captureLoop clusters ⟨out.1 ++ (le16 c.id ++ [UInt8.ofNat set.length] ++ set), h⟩
      else .error .insufficientSpace

/-- Apply a field set, up to the first attribute that is not implemented or cannot be read. -/
def applySet (floats : FloatSupport) (transitionDs : UInt16) : List AttributeId → SceneCluster → Buf → SceneCluster × List Application
  | [], c, _ => (c, [])
  | id :: ids, c, data =>
    match c.attributes.find id with
    | none => (c, [])
    | some d =>
      match ZclValue.deserialize floats d.dataType data with
      | none => (c, [])
      | some (v, n) =>
        let (c', applied) := applySet floats transitionDs ids (c.sceneApply id v) (data.drop n)
        (c', ⟨c.id, id, v, transitionDs⟩ :: applied)

/-- The loop over the field sets in `ext`, which is no longer than the count. -/
def recallLoop (floats : FloatSupport) (transitionDs : UInt16) : Nat → Buf → SceneEndpoint → SceneEndpoint × Except ZclStatus Unit
  | 0, _, e => (e, .ok ())
  | n + 1, ext, e =>
    if ext.length < 3 then (e, .ok ())
    else if ext.length < 3 + (u8At ext 2).toNat then (e, .error .malformedCommand)
    else
      let data := (ext.drop 3).take (u8At ext 2).toNat
      let rest := ext.drop (3 + (u8At ext 2).toNat)
      -- field sets for clusters that are not on this endpoint are ignored
      match e.clusters.findIdx? (·.id == u16At ext 0) with
      | none => recallLoop floats transitionDs n rest e
      | some i =>
        match e.clusters[i]? with
        | none => recallLoop floats transitionDs n rest e
        | some c =>
          let (c', applied) := applySet floats transitionDs c.sceneAttributes c data
          recallLoop floats transitionDs n rest { e with clusters := e.clusters.set i c', applied := e.applied ++ applied }

namespace SceneEndpoint

def capture (e : SceneEndpoint) : Except ZclStatus ExtensionData := captureLoop e.clusters ⟨[], Nat.zero_le _⟩

def recallExt (floats : FloatSupport) (e : SceneEndpoint) (ext : Buf) (transitionDs : UInt16) : SceneEndpoint × Except ZclStatus Unit :=
  recallLoop floats transitionDs ext.length ext e

end SceneEndpoint

def endpointContext (floats : FloatSupport) : SceneContext SceneEndpoint where
  isGroupMember e group := e.isMember group
  capture e := e.capture
  recallExt e ext transitionDs := e.recallExt floats ext transitionDs

/-! ## What was captured -/

/-- The values of a cluster that a scene holds. -/
def snapshotSet {N : Nat} (attributes : AttributeStore N) : List AttributeId → List (AttributeId × ZclValue)
  | [] => []
  | id :: ids =>
    match attributes.get id with
    | none => []
    | some v => (id, v) :: snapshotSet attributes ids

def SceneCluster.snapshot (c : SceneCluster) : List (AttributeId × ZclValue) := snapshotSet c.attributes c.sceneAttributes

/-- The field set of the snapshot. -/
def SceneCluster.fieldSet (c : SceneCluster) : Buf := c.snapshot.flatMap (·.2.toBytes)

/-- The calls of `scene_apply` that restore the clusters. -/
def restoring (clusters : List SceneCluster) (transitionDs : UInt16) : List Application :=
  clusters.flatMap fun c => c.snapshot.map fun x => ⟨c.id, x.1, x.2, transitionDs⟩

variable {N : Nat} {attributes : AttributeStore N}

theorem captureSet_ok : ∀ {ids : List AttributeId} {set set' : Buf}, set.length ≤ MAX_EXTENSION_DATA →
    captureSet attributes ids set = .ok set' →
    set' = set ++ (snapshotSet attributes ids).flatMap (·.2.toBytes) ∧ set'.length ≤ MAX_EXTENSION_DATA
  | [], set, set', hlen, h => by
    cases h
    exact ⟨by simp [snapshotSet], hlen⟩
  | id :: ids, set, set', hlen, h => by
    rw [captureSet] at h
    rw [snapshotSet]
    cases hget : attributes.get id with
    | none =>
      rw [hget] at h
      cases h
      exact ⟨by simp, hlen⟩
    | some v =>
      simp only [hget, ZclValue.trySerialize] at h
      split at h
      · cases h
      · rename_i bytes hbytes
        split at hbytes
        · rename_i hroom
          cases hbytes
          obtain ⟨rfl, hlen'⟩ := captureSet_ok (by rw [List.length_append]; omega) h
          exact ⟨by simp, hlen'⟩
        · cases hbytes

theorem captureSet_error : ∀ {ids : List AttributeId} {set : Buf} {status : ZclStatus}, captureSet attributes ids set = .error status →
    status = .insufficientSpace
  | [], _, _, h => by cases h
  | id :: ids, set, status, h => by
    rw [captureSet] at h
    split at h
    · cases h
    · split at h
      · cases h
        rfl
      · exact captureSet_error h

theorem captureLoop_error : ∀ {clusters : List SceneCluster} {out : ExtensionData} {status : ZclStatus},
    captureLoop clusters out = .error status → status = .insufficientSpace
  | [], _, _, h => by cases h
  | c :: clusters, out, status, h => by
    rw [captureLoop] at h
    split at h
    · rename_i hset
      cases h
      exact captureSet_error hset
    · split at h
      · exact captureLoop_error h
      · cases h
        rfl

/-- The bytes of a cluster in the extension data. -/
def SceneCluster.bytes (c : SceneCluster) : Buf := le16 c.id ++ [UInt8.ofNat c.fieldSet.length] ++ c.fieldSet

theorem captureLoop_ok : ∀ {clusters : List SceneCluster} {out out' : ExtensionData}, captureLoop clusters out = .ok out' →
    out'.1 = out.1 ++ clusters.flatMap SceneCluster.bytes ∧ ∀ c ∈ clusters, c.fieldSet.length ≤ MAX_EXTENSION_DATA
  | [], out, out', h => by
    cases h
    exact ⟨by simp, fun _ hc => by cases hc⟩
  | c :: clusters, out, out', h => by
    rw [captureLoop] at h
    split at h
    · cases h
    · rename_i set hset
      obtain ⟨rfl, hlen⟩ := captureSet_ok (Nat.zero_le _) hset
      rw [List.nil_append] at h hlen
      split at h
      · obtain ⟨hout, hrest⟩ := captureLoop_ok h
        refine ⟨?_, fun c' hc' => ?_⟩
        · rw [hout, List.flatMap_cons, List.append_assoc]
          rfl
        · rcases List.mem_cons.mp hc' with rfl | hc'
          · exact hlen
          · exact hrest c' hc'
      · cases h

/-! ## What was captured is applied -/

/-- What does not change of a cluster while its values do. -/
def SceneCluster.shape (c : SceneCluster) : UInt16 × List AttributeId × List AttributeDefinition :=
  (c.id, c.sceneAttributes, c.attributes.attrs.map (·.definition))

/-- The values of the snapshot fit the types of their attributes. -/
def SceneCluster.ReadsBack (floats : FloatSupport) (c : SceneCluster) : Prop :=
  ∀ x ∈ c.snapshot, ∃ d, c.attributes.find x.1 = some d ∧ x.2.ReadsBack floats d.dataType

theorem find_eq (attributes : AttributeStore N) (id : AttributeId) :
    attributes.find id = (attributes.attrs.map (·.definition)).find? (·.id == id) := by
  rw [AttributeStore.find, List.find?_map]
  rfl

theorem find_eq_none_iff {id : AttributeId} : attributes.find id = none ↔ attributes.get id = none := by
  rw [AttributeStore.find, AttributeStore.get, Option.map_eq_none_iff, Option.map_eq_none_iff]

theorem sceneApply_shape (c : SceneCluster) (id : AttributeId) (value : ZclValue) : (c.sceneApply id value).shape = c.shape := by
  simp [SceneCluster.shape, SceneCluster.sceneApply]

theorem applySet_shape (floats : FloatSupport) (transitionDs : UInt16) : ∀ (ids : List AttributeId) (c : SceneCluster) (data : Buf),
    (applySet floats transitionDs ids c data).1.shape = c.shape
  | [], _, _ => rfl
  | id :: ids, c, data => by
    rw [applySet]
    split
    · rfl
    · split
      · rfl
      · exact (applySet_shape floats transitionDs ids _ _).trans (sceneApply_shape c id _)

theorem snapshotSet_cons_some {id : AttributeId} {v : ZclValue} (h : attributes.get id = some v) (ids : List AttributeId) :
    snapshotSet attributes (id :: ids) = (id, v) :: snapshotSet attributes ids := by
  rw [snapshotSet, h]

open SceneCluster (shape bytes snapshot sceneApply)

section FieldSet

variable {floats : FloatSupport} {transitionDs : UInt16} {id : AttributeId} {ids : List AttributeId} {c : SceneCluster}

theorem find_of_definitions (hdefinitions : c.attributes.attrs.map (·.definition) = attributes.attrs.map (·.definition)) (id : AttributeId) :
    c.attributes.find id = attributes.find id := by
  rw [find_eq, find_eq, hdefinitions]

theorem sceneApply_definitions (hdefinitions : c.attributes.attrs.map (·.definition) = attributes.attrs.map (·.definition))
    (id : AttributeId) (v : ZclValue) :
    (c.sceneApply id v).attributes.attrs.map (·.definition) = attributes.attrs.map (·.definition) := by
  rw [← hdefinitions]
  exact congrArg (·.2.2) (sceneApply_shape c id v)

theorem applySet_cons_none (hdefinitions : c.attributes.attrs.map (·.definition) = attributes.attrs.map (·.definition))
    (hget : attributes.get id = none) (data : Buf) : applySet floats transitionDs (id :: ids) c data = (c, []) := by
  rw [applySet, find_of_definitions hdefinitions, find_eq_none_iff.mpr hget]

/-- The first value of a field set is read back. -/
theorem applySet_cons_some {v : ZclValue} {d : AttributeDefinition}
    (hdefinitions : c.attributes.attrs.map (·.definition) = attributes.attrs.map (·.definition)) (hd : attributes.find id = some d)
    (hv : v.ReadsBack floats d.dataType) (rest : Buf) :
    applySet floats transitionDs (id :: ids) c (v.toBytes ++ rest) =
      ((applySet floats transitionDs ids (c.sceneApply id v) rest).1,
        ⟨c.id, id, v, transitionDs⟩ :: (applySet floats transitionDs ids (c.sceneApply id v) rest).2) := by
  rw [applySet, find_of_definitions hdefinitions, hd]
  simp only [ZclValue.deserialize_toBytes hv rest, List.drop_left]

/-- A field set is applied value by value: its attributes have its values afterwards, and no other attribute has changed. -/
theorem applySet_snapshotSet : ∀ {ids : List AttributeId} {c : SceneCluster},
    c.attributes.attrs.map (·.definition) = attributes.attrs.map (·.definition) →
    (∀ x ∈ snapshotSet attributes ids, ∃ d, attributes.find x.1 = some d ∧ x.2.ReadsBack floats d.dataType) →
    let applied := applySet floats transitionDs ids c ((snapshotSet attributes ids).flatMap (·.2.toBytes))
    (applied.2 = (snapshotSet attributes ids).map fun x => ⟨c.id, x.1, x.2, transitionDs⟩) ∧
      ∀ id', applied.1.attributes.get id' =
        if id' ∈ (snapshotSet attributes ids).map (·.1) then attributes.get id' else c.attributes.get id'
  | [], c, _, _ => by simp [snapshotSet, applySet]
  | id :: ids, c, hdefinitions, hread => by
    dsimp only
    cases hget : attributes.get id with
    | none =>
      rw [applySet_cons_none hdefinitions hget]
      simp [snapshotSet, hget]
    | some v =>
      rw [snapshotSet_cons_some hget] at hread ⊢
      obtain ⟨d, hd, hv⟩ := hread (id, v) List.mem_cons_self
      obtain ⟨hcommands, hvalues⟩ :=
        applySet_snapshotSet (sceneApply_definitions hdefinitions id v) fun x hx => hread x (List.mem_cons_of_mem _ hx)
      rw [List.flatMap_cons, applySet_cons_some hdefinitions hd hv]
      refine ⟨congrArg (_ :: ·) hcommands, fun id' => ?_⟩
      have hwritten : (c.sceneApply id v).attributes.get id' = if id' = id then some v else c.attributes.get id' := by
        have hsome : c.attributes.get id ≠ none := by
          rw [Ne, ← find_eq_none_iff, find_of_definitions hdefinitions, hd]
          simp
        obtain ⟨w, hw⟩ := Option.ne_none_iff_exists'.mp hsome
        rw [sceneApply, AttributeStore.get_setRawIgnored, hw, Option.map_some]
      dsimp only
      rw [hvalues, hwritten, List.map_cons]
      by_cases hin : id' ∈ (snapshotSet attributes ids).map (·.1)
      · rw [if_pos hin, if_pos (List.mem_cons_of_mem _ hin)]
      · rw [if_neg hin]
        by_cases heq : id' = id
        · subst heq
          rw [if_pos rfl, if_pos List.mem_cons_self, hget]
        · rw [if_neg heq, if_neg]
          rw [List.mem_cons, not_or]
          exact ⟨heq, hin⟩

theorem snapshotSet_congr {M : Nat} {other : AttributeStore M}
    (hdefinitions : other.attrs.map (·.definition) = attributes.attrs.map (·.definition)) : ∀ {ids : List AttributeId},
    (∀ x ∈ snapshotSet attributes ids, other.get x.1 = attributes.get x.1) → snapshotSet other ids = snapshotSet attributes ids
  | [], _ => rfl
  | id :: ids, hget => by
    rw [snapshotSet, snapshotSet]
    cases hid : attributes.get id with
    | none =>
      have : other.get id = none := by
        rw [← find_eq_none_iff, find_eq, hdefinitions, ← find_eq, find_eq_none_iff, hid]
      rw [this]
    | some v =>
      simp only [snapshotSet, hid] at hget
      rw [hget (id, v) List.mem_cons_self, hid, snapshotSet_congr hdefinitions fun x hx => hget x (List.mem_cons_of_mem _ hx)]

/-- The cluster has the state that was captured. -/
theorem applySet_restores (transitionDs : UInt16) {c' : SceneCluster} (hshape : c'.shape = c.shape) (hread : c.ReadsBack floats) :
    (applySet floats transitionDs c'.sceneAttributes c' c.fieldSet).1.snapshot = c.snapshot ∧
      (applySet floats transitionDs c'.sceneAttributes c' c.fieldSet).2 = c.snapshot.map fun x => ⟨c.id, x.1, x.2, transitionDs⟩ := by
  obtain ⟨hid, hattrs, hdefinitions⟩ : c'.id = c.id ∧ c'.sceneAttributes = c.sceneAttributes ∧
      c'.attributes.attrs.map (·.definition) = c.attributes.attrs.map (·.definition) := by
    simpa [shape] using hshape
  have hafter := (applySet_shape floats transitionDs c'.sceneAttributes c' c.fieldSet).trans hshape
  constructor
  · have hattrs' := congrArg (·.2.1) hafter
    have hdefs' := congrArg (·.2.2) hafter
    dsimp only [shape] at hattrs' hdefs'
    rw [snapshot, snapshot, hattrs']
    refine snapshotSet_congr hdefs' fun x hx => ?_
    rw [hattrs]
    rw [SceneCluster.fieldSet, snapshot, (applySet_snapshotSet hdefinitions hread).2, if_pos (List.mem_map_of_mem hx)]
  · rw [hattrs, ← hid]
    exact (applySet_snapshotSet hdefinitions hread).1

end FieldSet

/-- The cluster of a field set is the one it was captured from. -/
theorem cluster_found {clusters clusters' : List SceneCluster} {c : SceneCluster} (hnodup : (clusters.map (·.id)).Nodup)
    (hshape : clusters'.map shape = clusters.map shape) (hc : c ∈ clusters) :
    ∃ i c', clusters'.findIdx? (·.id == c.id) = some i ∧ clusters'[i]? = some c' ∧ c'.shape = c.shape := by
  have hids : ∀ l : List SceneCluster, l.findIdx? (·.id == c.id) = (l.map shape).findIdx? (·.1 == c.id) := by
    intro l
    rw [List.findIdx?_map]
    rfl
  cases hfind : clusters.findIdx? (·.id == c.id) with
  | none =>
    have := List.findIdx?_eq_none_iff.mp hfind c hc
    simp at this
  | some i =>
    obtain ⟨x, hx, hid⟩ := Table.getElem?_of_findIdx? hfind
    obtain rfl : x = c :=
      List.inj_on_of_nodup_map hnodup (List.mem_of_getElem? hx) hc (beq_iff_eq.mp hid)
    have hslot : (clusters'.map shape)[i]? = some x.shape := by rw [hshape, List.getElem?_map, hx, Option.map_some]
    rw [List.getElem?_map, Option.map_eq_some_iff] at hslot
    obtain ⟨c', hc', hsame⟩ := hslot
    exact ⟨i, c', by rw [hids, hshape, ← hids, hfind], hc', hsame⟩

/-- The clusters after some field sets were applied to `clusters`. -/
structure Restored (rest : List SceneCluster) (clusters clusters' : List SceneCluster) : Prop where
  shapes : clusters'.map shape = clusters.map shape
  others : ∀ (i : Nat) (c : SceneCluster), clusters'[i]? = some c → c.id ∉ rest.map (·.id) → clusters[i]? = some c
  restored : ∀ c' ∈ clusters', ∀ c ∈ rest, c'.id = c.id → c'.snapshot = c.snapshot

theorem Restored.nil (clusters : List SceneCluster) : Restored [] clusters clusters where
  shapes := rfl
  others _ _ h _ := h
  restored _ _ _ h := by cases h

theorem nodup_of_shapes {clusters clusters' : List SceneCluster} (h : clusters'.map shape = clusters.map shape) :
    clusters'.map (·.id) = clusters.map (·.id) := by
  have := congrArg (List.map (·.1)) h
  simpa [Function.comp_def, shape] using this

/-- One field set more. -/
theorem Restored.cons {c new : SceneCluster} {rest clusters clusters' : List SceneCluster} {i : Nat} {old : SceneCluster}
    (h : Restored rest (clusters.set i new) clusters') (hold : clusters[i]? = some old) (hshape : new.shape = old.shape)
    (hid : old.id = c.id) (hsnapshot : new.snapshot = c.snapshot) (hclusters : (clusters.map (·.id)).Nodup)
    (hrest : ((c :: rest).map (·.id)).Nodup) : Restored (c :: rest) clusters clusters' := by
  have hset : (clusters.set i new).map shape = clusters.map shape := Table.map_set_same hold hshape
  have hnew : new.id = c.id := (congrArg (·.1) hshape).trans hid
  have hnodup : ((clusters.set i new).map (·.id)).Nodup := by
    rw [nodup_of_shapes hset]
    exact hclusters
  have hslot : (clusters.set i new)[i]? = some new := List.getElem?_set_self (List.getElem?_eq_some_iff.mp hold).1
  rw [List.map_cons, List.nodup_cons] at hrest
  refine ⟨h.shapes.trans hset, fun j c' hj hc' => ?_, fun c' hc' x hx hxid => ?_⟩
  · rw [List.map_cons, List.mem_cons, not_or] at hc'
    have hkept := h.others j c' hj hc'.2
    by_cases hij : i = j
    · subst hij
      rw [hslot] at hkept
      cases hkept
      exact absurd hnew hc'.1
    · rwa [List.getElem?_set_ne hij] at hkept
  · rcases List.mem_cons.mp hx with rfl | hx
    · obtain ⟨j, hj⟩ := List.mem_iff_getElem?.mp hc'
      have hkept := h.others j c' hj (by rw [hxid]; exact hrest.1)
      obtain rfl : c' = new :=
        List.inj_on_of_nodup_map hnodup (List.mem_of_getElem? hkept) (List.mem_of_getElem? hslot) (hxid.trans hnew.symm)
      exact hsnapshot
    · exact h.restored c' hc' x hx hxid

theorem recallLoop_restores {floats : FloatSupport} (transitionDs : UInt16) {clusters : List SceneCluster}
    (hnodup : (clusters.map (·.id)).Nodup) : ∀ {rest : List SceneCluster} {n : Nat} {e : SceneEndpoint},
    (∀ c ∈ rest, c ∈ clusters ∧ c.ReadsBack floats ∧ c.fieldSet.length ≤ MAX_EXTENSION_DATA) → (rest.map (·.id)).Nodup →
    e.clusters.map shape = clusters.map shape → (rest.flatMap bytes).length ≤ n →
    ∃ e', recallLoop floats transitionDs n (rest.flatMap bytes) e = (e', .ok ()) ∧
      e'.applied = e.applied ++ restoring rest transitionDs ∧ Restored rest e.clusters e'.clusters
  | [], n, e, _, _, _, _ => by
    refine ⟨e, ?_, by simp [restoring], Restored.nil _⟩
    cases n <;> rfl
  | c :: rest, 0, e, _, _, _, hn => by simp [bytes] at hn
  | c :: rest, n + 1, e, hrest, hdistinct, hshape, hn => by
    obtain ⟨hc, hread, hlen⟩ := hrest c List.mem_cons_self
    obtain ⟨i, c', hfind, hc', hsame⟩ := cluster_found hnodup hshape hc
    have hlen256 : (UInt8.ofNat c.fieldSet.length).toNat = c.fieldSet.length := by
      rw [UInt8.toNat_ofNat', Nat.mod_eq_of_lt]
      simp only [MAX_EXTENSION_DATA] at hlen
      omega
    -- header, field set, and what follows
    have hext : (c :: rest).flatMap bytes =
        le16 c.id ++ ([UInt8.ofNat c.fieldSet.length] ++ (c.fieldSet ++ rest.flatMap bytes)) := by
      simp [bytes]
    have hcid : u16At ((c :: rest).flatMap bytes) 0 = c.id := by rw [hext, u16At_le16]
    have hcount : u8At ((c :: rest).flatMap bytes) 2 = UInt8.ofNat c.fieldSet.length := by
      rw [hext, u8At_append_right (by simp)]
      simp [u8At]
    have hdrop : ((c :: rest).flatMap bytes).drop 3 = c.fieldSet ++ rest.flatMap bytes := by
      rw [hext]
      simp [le16]
    have hdata : (((c :: rest).flatMap bytes).drop 3).take c.fieldSet.length = c.fieldSet := by
      rw [hdrop, List.take_left]
    have hnext : ((c :: rest).flatMap bytes).drop (3 + c.fieldSet.length) = rest.flatMap bytes := by
      rw [← List.drop_drop, hdrop, List.drop_left]
    have htotal : ((c :: rest).flatMap bytes).length = 3 + c.fieldSet.length + (rest.flatMap bytes).length := by
      rw [hext]
      simp
      omega
    obtain ⟨hsnapshot, hcalls⟩ := applySet_restores transitionDs hsame hread
    have hafter := applySet_shape floats transitionDs c'.sceneAttributes c' c.fieldSet
    have hclusters : (e.clusters.map (·.id)).Nodup := by
      rw [nodup_of_shapes hshape]
      exact hnodup
    obtain ⟨e', hloop, happlied, hrestored⟩ := recallLoop_restores transitionDs hnodup (n := n)
      (e := { e with
        clusters := e.clusters.set i (applySet floats transitionDs c'.sceneAttributes c' c.fieldSet).1
        applied := e.applied ++ (applySet floats transitionDs c'.sceneAttributes c' c.fieldSet).2 })
      (fun c hc => hrest c (List.mem_cons_of_mem _ hc)) hdistinct.of_cons
      (by rw [← hshape]; exact Table.map_set_same hc' hafter) (by omega)
    refine ⟨e', ?_, ?_, hrestored.cons hc' hafter (congrArg (·.1) hsame) hsnapshot hclusters hdistinct⟩
    · rw [recallLoop, if_neg (by omega), hcount, hlen256, if_neg (by omega)]
      simp only [hcid, hfind, hc', hdata, hnext]
      exact hloop
    · rw [happlied, hcalls, List.append_assoc]
      simp [restoring]

/-- The states of clusters with the ids and the order of others, where each has the state of its namesake. -/
theorem Restored.snapshots {clusters before after : List SceneCluster} (h : Restored clusters before after)
    (hshape : before.map shape = clusters.map shape) :
    after.map snapshot = clusters.map snapshot := by
  have hshapes := h.shapes.trans hshape
  have hlen : after.length = clusters.length := by simpa using congrArg List.length hshapes
  refine List.ext_getElem (by simpa using hlen) fun i hi hi' => ?_
  rw [List.length_map] at hi hi'
  rw [List.getElem_map, List.getElem_map]
  refine h.restored _ (List.getElem_mem hi) _ (List.getElem_mem hi') ?_
  have := congrArg (·[i]?) hshapes
  simp only [List.getElem?_map, List.getElem?_eq_getElem hi, List.getElem?_eq_getElem hi', Option.map_some] at this
  exact congrArg (·.1) (Option.some.inj this)

/-- **What was captured is applied**, to the clusters it was captured from and in order. -/
theorem recall_capture {floats : FloatSupport} {e e' : SceneEndpoint} {ext : ExtensionData} (hcapture : e.capture = .ok ext)
    (hnodup : (e.clusters.map (·.id)).Nodup) (hread : ∀ c ∈ e.clusters, c.ReadsBack floats)
    (hshape : e'.clusters.map shape = e.clusters.map shape) (transitionDs : UInt16) :
    ∃ e'', e'.recallExt floats ext.1 transitionDs = (e'', .ok ()) ∧ e''.applied = e'.applied ++ restoring e.clusters transitionDs ∧
      e''.clusters.map snapshot = e.clusters.map snapshot := by
  obtain ⟨hext, hlen⟩ := captureLoop_ok hcapture
  rw [List.nil_append] at hext
  rw [SceneEndpoint.recallExt, hext]
  obtain ⟨e'', hloop, happlied, hrestored⟩ :=
    recallLoop_restores transitionDs hnodup (fun c hc => ⟨hc, hread c hc, hlen c hc⟩) hnodup hshape le_rfl
  exact ⟨e'', hloop, happlied, hrestored.snapshots hshape⟩

end Zigbee.Zcl.Scenes
