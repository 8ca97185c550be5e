import Zigbee.Lib.Run
import Zigbee.Zcl.SceneContext

/-!
# Scenes cluster

Model of the scene table in `zigbee-zcl/src/clusters/scenes.rs`.

* `ScenesCluster` — the table and the attributes that track it.
* `handleCommandWith` — the commands, with the endpoint's groups and scene-capable clusters.
* `Intact` — every scene is stored once, and SceneCount is their number.
* `scene_table_integrity` — commands keep the table intact, refused ones leave it alone, and a stored scene
  is recalled as it was captured.
-/

namespace Zigbee.Zcl.Scenes

open Bytes SceneCluster

def ATTR_SCENE_COUNT : AttributeId := 0x0000
def ATTR_CURRENT_SCENE : AttributeId := 0x0001
def ATTR_CURRENT_GROUP : AttributeId := 0x0002
def ATTR_SCENE_VALID : AttributeId := 0x0003
def ATTR_NAME_SUPPORT : AttributeId := 0x0004
def ATTR_LAST_CONFIGURED_BY : AttributeId := 0x0005

def CMD_ADD_SCENE : UInt8 := 0x00
def CMD_VIEW_SCENE : UInt8 := 0x01
def CMD_REMOVE_SCENE : UInt8 := 0x02
def CMD_REMOVE_ALL_SCENES : UInt8 := 0x03
def CMD_STORE_SCENE : UInt8 := 0x04
def CMD_RECALL_SCENE : UInt8 := 0x05
def CMD_GET_SCENE_MEMBERSHIP : UInt8 := 0x06

/-- Maximum number of scenes the table can hold. -/
def MAX_SCENES : Nat := 16

structure SceneEntry where
  groupId : UInt16
  sceneId : UInt8
  transitionTime : UInt16
  extensionData : ExtensionData
  active : Bool
  deriving DecidableEq

def SceneEntry.empty : SceneEntry := ⟨0, 0, 0, ⟨[], Nat.zero_le _⟩, false⟩

structure ScenesCluster where
  store : AttributeStore 8
  scenes : List SceneEntry
  slots : scenes.length = MAX_SCENES

/-- The tracking attributes with their initial values. -/
def initialAttributes : List (AttributeDefinition × ZclValue) :=
  [(⟨ATTR_SCENE_COUNT, .u8, .readOnly⟩, .u8 0),
    (⟨ATTR_CURRENT_SCENE, .u8, .readOnly⟩, .u8 0),
    (⟨ATTR_CURRENT_GROUP, .u16, .readOnly⟩, .u16 0),
    (⟨ATTR_SCENE_VALID, .bool, .readOnly⟩, .bool false),
    (⟨ATTR_NAME_SUPPORT, .bitmap8, .readOnly⟩, .bitmap8 0),
    (⟨ATTR_LAST_CONFIGURED_BY, .ieeeAddr, .readOnly⟩, .ieeeAddr 0)]

/-- `status(1) + group_id(2) [+ scene_id(1)]` response. -/
def response (status : ZclStatus) (groupId : UInt16) (sceneId : Option UInt8) : Buf :=
  status.toU8 :: le16 groupId ++ sceneId.toList

namespace ScenesCluster

def new : ScenesCluster :=
  ⟨initialAttributes.foldl AttributeStore.registerIgnored .new, List.replicate MAX_SCENES .empty, List.length_replicate⟩

/-- Number of active scenes. -/
def sceneCount (c : ScenesCluster) : UInt8 := UInt8.ofNat (c.scenes.countP (·.active))

def setRawIgnored (c : ScenesCluster) (id : AttributeId) (value : ZclValue) : ScenesCluster :=
  { c with store := c.store.setRawIgnored id value }

def updateSceneCount (c : ScenesCluster) : ScenesCluster := c.setRawIgnored ATTR_SCENE_COUNT (.u8 c.sceneCount)

/-- The slot holds the scene. -/
def isScene (groupId : UInt16) (sceneId : UInt8) (s : SceneEntry) : Bool :=
  s.active && s.groupId == groupId && s.sceneId == sceneId

def findScene (c : ScenesCluster) (groupId : UInt16) (sceneId : UInt8) : Option Nat := c.scenes.findIdx? (isScene groupId sceneId)

def findEmptySlot (c : ScenesCluster) : Option Nat := c.scenes.findIdx? (!·.active)

def sceneAt (c : ScenesCluster) (idx : Nat) : SceneEntry := c.scenes.getD idx .empty

def setScene (c : ScenesCluster) (idx : Nat) (s : SceneEntry) : ScenesCluster :=
  { c with
    scenes := c.scenes.set idx s
    slots := List.length_set.trans c.slots }

def setCurrent (c : ScenesCluster) (groupId : UInt16) (sceneId : UInt8) : ScenesCluster :=
  ((c.setRawIgnored ATTR_CURRENT_SCENE (.u8 sceneId)).setRawIgnored ATTR_CURRENT_GROUP (.u16 groupId)).setRawIgnored
    ATTR_SCENE_VALID (.bool true)

/-- Transition time, name and extension field sets; the name is not stored. -/
def addScene (c : ScenesCluster) (groupId : UInt16) (sceneId : UInt8) (body : Buf) : ScenesCluster × Except ZclStatus ZclStatus :=
  if body.length < 2 then (c, .error .malformedCommand)
  else if body.length < 3 then (c, .error .malformedCommand)
  else if body.length < 3 + (u8At body 2).toNat then (c, .error .malformedCommand)
  else if h : (body.drop (3 + (u8At body 2).toNat)).length ≤ MAX_EXTENSION_DATA then
    match (c.findScene groupId sceneId).or c.findEmptySlot with
    | none => (c, .ok .insufficientSpace)
    | some idx =>
      ((c.setScene idx ⟨groupId, sceneId, u16At body 0, ⟨body.drop (3 + (u8At body 2).toNat), h⟩, true⟩).updateSceneCount,
        .ok .success)
  else (c, .ok .insufficientSpace)

def viewScene (c : ScenesCluster) (groupId : UInt16) (sceneId : UInt8) : Buf :=
  match c.findScene groupId sceneId with
  | some idx =>
    response .success groupId (some sceneId) ++ le16 (c.sceneAt idx).transitionTime ++ [0] ++ (c.sceneAt idx).extensionData.1
  | none => response .notFound groupId (some sceneId)

def removeScene (c : ScenesCluster) (groupId : UInt16) (sceneId : UInt8) : ScenesCluster × ZclStatus :=
  match c.findScene groupId sceneId with
  | some idx => ((c.setScene idx { c.sceneAt idx with active := false }).updateSceneCount, .success)
  | none => (c, .notFound)

def removeAllScenes (c : ScenesCluster) (groupId : UInt16) : ScenesCluster :=
  updateSceneCount
    { c with
      scenes := c.scenes.map fun s => if s.groupId = groupId then { s with active := false } else s
      slots := List.length_map _ |>.trans c.slots }

def membershipResponse (c : ScenesCluster) (groupId : UInt16) (groupOk : Bool) : Buf :=
  let scenes := (c.scenes.filter fun s => s.active && s.groupId == groupId).map (·.sceneId)
  [(if groupOk then ZclStatus.success else .invalidField).toU8, UInt8.ofNat (MAX_SCENES - c.sceneCount.toNat)] ++ le16 groupId ++
    if groupOk then UInt8.ofNat scenes.length :: scenes else []

section
variable {σ : Type} (ctx : SceneContext σ)

/-- Store Scene: snapshot the endpoint's scene-capable clusters. -/
def storeScene (c : ScenesCluster) (groupId : UInt16) (sceneId : UInt8) (e : σ) : ScenesCluster × ZclStatus :=
  match (c.findScene groupId sceneId).or c.findEmptySlot with
  | none => (c, .insufficientSpace)
  | some idx =>
    match ctx.capture e with
    | .error status => (c, status)
    | .ok ext =>
      let transitionTime :=
        match c.findScene groupId sceneId with
        | some i => (c.sceneAt i).transitionTime
        | none => 0
      (((c.setScene idx ⟨groupId, sceneId, transitionTime, ext, true⟩).setCurrent groupId sceneId).updateSceneCount, .success)

def saturatingMul10 (v : UInt16) : UInt16 := if v.toNat * 10 < 65536 then v * 10 else 0xFFFF

/-- The transition of a recall: its own one, unless it is absent or 0xFFFF. -/
def recallTransition (transition : Option UInt16) (s : SceneEntry) : UInt16 :=
  match transition with
  | some t => if t ≠ 0xFFFF then t else saturatingMul10 s.transitionTime
  | none => saturatingMul10 s.transitionTime

/-- Recall Scene: apply the stored extension field sets. -/
def recallScene (c : ScenesCluster) (groupId : UInt16) (sceneId : UInt8) (transition : Option UInt16) (e : σ) :
    ScenesCluster × σ × ZclStatus :=
  match c.findScene groupId sceneId with
  | none => (c, e, .notFound)
  | some idx =>
    match ctx.recallExt e (c.sceneAt idx).extensionData.1 (recallTransition transition (c.sceneAt idx)) with
    | (e', .error status) => (c, e', status)
    | (e', .ok _) => (c.setCurrent groupId sceneId, e', .success)

/-- The commands that name a scene. -/
def handleSceneCommand (c : ScenesCluster) (cmdId : UInt8) (payload : Buf) (groupId : UInt16) (groupOk : Bool) (e : σ) :
    ScenesCluster × σ × Except ZclStatus Buf :=
  if payload.length < 3 then (c, e, .error .malformedCommand)
  else
    let sceneId := u8At payload 2
    if cmdId = CMD_RECALL_SCENE ∧ groupOk = false then (c, e, .error .invalidField)
    else if groupOk = false then (c, e, .ok (response .invalidField groupId (some sceneId)))
    else if cmdId = CMD_ADD_SCENE then
      match c.addScene groupId sceneId (payload.drop 3) with
      | (c', .error status) => (c', e, .error status)
      | (c', .ok status) => (c', e, .ok (response status groupId (some sceneId)))
    else if cmdId = CMD_VIEW_SCENE then (c, e, .ok (c.viewScene groupId sceneId))
    else if cmdId = CMD_REMOVE_SCENE then
      let (c', status) := c.removeScene groupId sceneId
      (c', e, .ok (response status groupId (some sceneId)))
    else if cmdId = CMD_STORE_SCENE then
      let (c', status) := c.storeScene ctx groupId sceneId e
      (c', e, .ok (response status groupId (some sceneId)))
    else
      -- Recall Scene has no response command
      let transition := if payload.length < 5 then none else some (u16At payload 3)
      match c.recallScene ctx groupId sceneId transition e with
      | (c', e', .success) => (c', e', .ok [])
      | (c', e', status) => (c', e', .error status)

def handleCommandWith (c : ScenesCluster) (cmdId : UInt8) (payload : Buf) (e : σ) : ScenesCluster × σ × Except ZclStatus Buf :=
  if payload.length < 2 then (c, e, .error .malformedCommand)
  else
    let groupId := u16At payload 0
    let groupOk := groupId == 0 || ctx.isGroupMember e groupId
    if cmdId = CMD_REMOVE_ALL_SCENES then
      if groupOk then (c.removeAllScenes groupId, e, .ok (response .success groupId none))
      else (c, e, .ok (response .invalidField groupId none))
    else if cmdId = CMD_GET_SCENE_MEMBERSHIP then (c, e, .ok (c.membershipResponse groupId groupOk))
    else if cmdId = CMD_ADD_SCENE ∨ cmdId = CMD_VIEW_SCENE ∨ cmdId = CMD_REMOVE_SCENE ∨ cmdId = CMD_STORE_SCENE ∨
        cmdId = CMD_RECALL_SCENE then
      c.handleSceneCommand ctx cmdId payload groupId groupOk e
    else (c, e, .error .unsupClusterCommand)

end

end ScenesCluster

/-! ## Commands -/

open ScenesCluster

/-- A command, with the services of the endpoint or on the plain path. -/
inductive Command where
  | endpoint (e : SceneEndpoint) (cmdId : UInt8) (payload : Buf)
  | plain (cmdId : UInt8) (payload : Buf)

namespace Command

def cmdId : Command → UInt8
  | endpoint _ cmdId _ | plain cmdId _ => cmdId

def payload : Command → Buf
  | endpoint _ _ payload | plain _ payload => payload

def groupId (cmd : Command) : UInt16 := u16At cmd.payload 0

def sceneId (cmd : Command) : UInt8 := u8At cmd.payload 2

end Command

/-- The cluster after a command, and the response. -/
def handle (floats : FloatSupport) (c : ScenesCluster) : Command → ScenesCluster × Except ZclStatus Buf
  | .endpoint e cmdId payload =>
    let (c', _, result) := handleCommandWith (endpointContext floats) c cmdId payload e
    (c', result)
  | .plain cmdId payload =>
    let (c', _, result) := handleCommandWith NoSceneContext c cmdId payload ()
    (c', result)

def step (floats : FloatSupport) (c : ScenesCluster) (cmd : Command) : ScenesCluster := (handle floats c cmd).1

/-- An error, or a response with another status than Success. -/
def refused : Except ZclStatus Buf → Bool
  | .error _ => true
  | .ok bytes => bytes.head?.any (· ≠ 0)

/-- The command is accepted and is one that rewrites or removes the scene. -/
def Changes (floats : FloatSupport) (groupId : UInt16) (sceneId : UInt8) (c : ScenesCluster) (cmd : Command) : Prop :=
  refused (handle floats c cmd).2 = false ∧ cmd.groupId = groupId ∧
    (cmd.cmdId = CMD_REMOVE_ALL_SCENES ∨
      cmd.sceneId = sceneId ∧ (cmd.cmdId = CMD_ADD_SCENE ∨ cmd.cmdId = CMD_REMOVE_SCENE ∨ cmd.cmdId = CMD_STORE_SCENE))

instance (floats : FloatSupport) (groupId : UInt16) (sceneId : UInt8) (c : ScenesCluster) (cmd : Command) :
    Decidable (Changes floats groupId sceneId c cmd) :=
  inferInstanceAs (Decidable (_ ∧ _ ∧ _))

/-- What a command does to the cluster. -/
inductive Effect (c : ScenesCluster) (groupId : UInt16) (sceneId : UInt8) : UInt8 → ScenesCluster → Prop where
  | unchanged {cmdId : UInt8} : Effect c groupId sceneId cmdId c
  | removedAll : Effect c groupId sceneId CMD_REMOVE_ALL_SCENES (c.removeAllScenes groupId)
  | added {idx : Nat} {transitionTime : UInt16} {ext : ExtensionData}
      (hslot : (c.findScene groupId sceneId).or c.findEmptySlot = some idx) :
      Effect c groupId sceneId CMD_ADD_SCENE (c.setScene idx ⟨groupId, sceneId, transitionTime, ext, true⟩).updateSceneCount
  | removed {idx : Nat} (hslot : c.findScene groupId sceneId = some idx) :
      Effect c groupId sceneId CMD_REMOVE_SCENE (c.setScene idx { c.sceneAt idx with active := false }).updateSceneCount
  | stored {idx : Nat} {transitionTime : UInt16} {ext : ExtensionData}
      (hslot : (c.findScene groupId sceneId).or c.findEmptySlot = some idx) :
      Effect c groupId sceneId CMD_STORE_SCENE
        ((c.setScene idx ⟨groupId, sceneId, transitionTime, ext, true⟩).setCurrent groupId sceneId).updateSceneCount
  | recalled : Effect c groupId sceneId CMD_RECALL_SCENE (c.setCurrent groupId sceneId)

variable {status : ZclStatus} {groupId : UInt16}

theorem refused_response {sceneId : Option UInt8} : refused (.ok (response status groupId sceneId)) = true ↔ status ≠ .success := by
  simp [refused, response, ZclStatus.toU8_eq_zero]

variable {cmdId : UInt8} {payload : Buf}

section Effects

variable {σ : Type} {ctx : SceneContext σ} {c c' : ScenesCluster} {groupId : UInt16} {sceneId : UInt8}

theorem addScene_effect {body : Buf} {result : Except ZclStatus ZclStatus} (h : c.addScene groupId sceneId body = (c', result)) :
    Effect c groupId sceneId CMD_ADD_SCENE c' ∧ (result ≠ .ok .success → c' = c) := by
  unfold addScene at h
  split_ifs at h with h2 h3 hname hext
  · cases h
    exact ⟨.unchanged, fun _ => rfl⟩
  · cases h
    exact ⟨.unchanged, fun _ => rfl⟩
  · cases h
    exact ⟨.unchanged, fun _ => rfl⟩
  · split at h
    · cases h
      exact ⟨.unchanged, fun _ => rfl⟩
    · rename_i idx hslot
      cases h
      exact ⟨.added hslot, fun hne => absurd rfl hne⟩
  · cases h
    exact ⟨.unchanged, fun _ => rfl⟩

theorem removeScene_effect (h : c.removeScene groupId sceneId = (c', status)) :
    Effect c groupId sceneId CMD_REMOVE_SCENE c' ∧ (status ≠ .success → c' = c) := by
  unfold removeScene at h
  split at h
  · rename_i idx hslot
    cases h
    exact ⟨.removed hslot, fun hne => absurd rfl hne⟩
  · cases h
    exact ⟨.unchanged, fun _ => rfl⟩

theorem storeScene_effect {e : σ} (h : c.storeScene ctx groupId sceneId e = (c', status)) :
    Effect c groupId sceneId CMD_STORE_SCENE c' ∧ (status ≠ .success → c' = c) := by
  unfold storeScene at h
  split at h
  · cases h
    exact ⟨.unchanged, fun _ => rfl⟩
  · rename_i idx hslot
    split at h
    · cases h
      exact ⟨.unchanged, fun _ => rfl⟩
    · cases h
      exact ⟨.stored hslot, fun hne => absurd rfl hne⟩

theorem recallScene_effect {transition : Option UInt16} {e e' : σ} (h : c.recallScene ctx groupId sceneId transition e = (c', e', status)) :
    Effect c groupId sceneId CMD_RECALL_SCENE c' ∧ (status ≠ .success → c' = c) := by
  unfold recallScene at h
  split at h
  · cases h
    exact ⟨.unchanged, fun _ => rfl⟩
  · split at h
    · cases h
      exact ⟨.unchanged, fun _ => rfl⟩
    · cases h
      exact ⟨.recalled, fun hne => absurd rfl hne⟩

theorem handleSceneCommand_effect {groupOk : Bool} {e e' : σ} {result : Except ZclStatus Buf}
    (hcmd : cmdId = CMD_ADD_SCENE ∨ cmdId = CMD_VIEW_SCENE ∨ cmdId = CMD_REMOVE_SCENE ∨ cmdId = CMD_STORE_SCENE ∨
      cmdId = CMD_RECALL_SCENE) (h : c.handleSceneCommand ctx cmdId payload groupId groupOk e = (c', e', result)) :
    Effect c groupId (u8At payload 2) cmdId c' ∧ (refused result = true → c' = c) := by
  unfold handleSceneCommand at h
  split at h
  · cases h
    exact ⟨.unchanged, fun _ => rfl⟩
  dsimp only at h
  split at h
  · cases h
    exact ⟨.unchanged, fun _ => rfl⟩
  split at h
  · cases h
    exact ⟨.unchanged, fun _ => rfl⟩
  rcases hcmd with rfl | rfl | rfl | rfl | rfl
  case inl =>
    rw [if_pos rfl] at h
    split at h
    · rename_i hres
      cases h
      obtain ⟨heffect, hkept⟩ := addScene_effect hres
      exact ⟨heffect, fun _ => hkept (by simp)⟩
    · rename_i hres
      cases h
      obtain ⟨heffect, hkept⟩ := addScene_effect hres
      exact ⟨heffect, fun h => hkept (by simpa using refused_response.mp h)⟩
  case inr.inl =>
    rw [if_neg (by decide), if_pos rfl] at h
    cases h
    exact ⟨.unchanged, fun _ => rfl⟩
  case inr.inr.inl =>
    rw [if_neg (by decide), if_neg (by decide), if_pos rfl] at h
    cases h
    obtain ⟨heffect, hkept⟩ := removeScene_effect (c := c) rfl
    exact ⟨heffect, fun h => hkept (refused_response.mp h)⟩
  case inr.inr.inr.inl =>
    rw [if_neg (by decide), if_neg (by decide), if_neg (by decide), if_pos rfl] at h
    cases h
    obtain ⟨heffect, hkept⟩ := storeScene_effect (c := c) rfl
    exact ⟨heffect, fun h => hkept (refused_response.mp h)⟩
  case inr.inr.inr.inr =>
    rw [if_neg (by decide), if_neg (by decide), if_neg (by decide), if_neg (by decide)] at h
    split at h
    · rename_i hres
      cases h
      exact ⟨(recallScene_effect hres).1, fun h => by cases h⟩
    · rename_i hne hres
      cases h
      obtain ⟨heffect, hkept⟩ := recallScene_effect hres
      exact ⟨heffect, fun _ => hkept hne⟩

/-- **What a command does**: one of the effects, and none where it is refused. -/
theorem handleCommandWith_effect {e e' : σ} {result : Except ZclStatus Buf}
    (h : handleCommandWith ctx c cmdId payload e = (c', e', result)) :
    Effect c (u16At payload 0) (u8At payload 2) cmdId c' ∧ (refused result = true → c' = c) := by
  unfold handleCommandWith at h
  dsimp only at h
  split at h
  · cases h
    exact ⟨.unchanged, fun _ => rfl⟩
  split at h
  · rename_i hall
    subst hall
    split at h
    · cases h
      exact ⟨.removedAll, fun h => absurd rfl (refused_response.mp h)⟩
    · cases h
      exact ⟨.unchanged, fun _ => rfl⟩
  split at h
  · cases h
    exact ⟨.unchanged, fun _ => rfl⟩
  split at h
  · rename_i hcmd
    exact handleSceneCommand_effect hcmd h
  · cases h
    exact ⟨.unchanged, fun _ => rfl⟩

end Effects

/-! ## The table -/

/-- Every scene stands in one slot, and SceneCount is the number of scenes. -/
structure Intact (c : ScenesCluster) : Prop where
  unique : Table.UniqueLive (·.active) (fun s : SceneEntry => (s.groupId, s.sceneId)) c.scenes
  layout : c.store.attrs.map (·.definition) = initialAttributes.map (·.1)
  counted : c.store.get ATTR_SCENE_COUNT = some (.u8 c.sceneCount)

/-- The scene that is stored for the pair. -/
def lookup (c : ScenesCluster) (groupId : UInt16) (sceneId : UInt8) : Option SceneEntry := c.scenes.find? (isScene groupId sceneId)

variable {s : SceneEntry}

section Slots

variable {c : ScenesCluster} {groupId groupId' : UInt16} {sceneId sceneId' : UInt8} {idx : Nat}

theorem isScene_iff : isScene groupId sceneId s = true ↔ s.active = true ∧ s.groupId = groupId ∧ s.sceneId = sceneId := by
  simp [isScene, and_assoc]

theorem isScene_of_inactive (h : s.active = false) : isScene groupId sceneId s = false := by
  simp [isScene, h]

/-- A scene is not the scene of another pair. -/
theorem isScene_of_ne (h : isScene groupId sceneId s = true) (hne : (groupId, sceneId) ≠ (groupId', sceneId')) :
    isScene groupId' sceneId' s = false := by
  obtain ⟨-, rfl, rfl⟩ := isScene_iff.mp h
  rw [Bool.eq_false_iff]
  intro h'
  obtain ⟨-, hg, hs⟩ := isScene_iff.mp h'
  exact hne (by rw [hg, hs])

theorem sceneAt_of_getElem? (h : c.scenes[idx]? = some s) : c.sceneAt idx = s := by
  rw [sceneAt, List.getD_eq_getElem?_getD, h, Option.getD_some]

theorem findScene_some (h : c.findScene groupId sceneId = some idx) :
    c.scenes[idx]? = some (c.sceneAt idx) ∧ isScene groupId sceneId (c.sceneAt idx) = true := by
  obtain ⟨s, hs, hscene⟩ := Table.getElem?_of_findIdx? h
  rw [sceneAt_of_getElem? hs]
  exact ⟨hs, hscene⟩

theorem lookup_of_findScene (h : c.findScene groupId sceneId = some idx) : lookup c groupId sceneId = some (c.sceneAt idx) := by
  obtain ⟨-, hidx⟩ := List.findIdx?_eq_some_iff_findIdx_eq.mp h
  rw [lookup, List.find?_eq_getElem?_findIdx, hidx, (findScene_some h).1]

theorem findScene_of_lookup (h : lookup c groupId sceneId = some s) :
    ∃ idx, c.findScene groupId sceneId = some idx ∧ c.sceneAt idx = s := by
  cases hfind : c.findScene groupId sceneId with
  | none =>
    have := List.findIdx?_eq_none_iff.mp hfind s (List.mem_of_find?_eq_some h)
    rw [List.find?_some h] at this
    cases this
  | some idx =>
    rw [lookup_of_findScene hfind] at h
    exact ⟨idx, rfl, Option.some.inj h⟩

/-- The slot that a scene is written to holds it already, or it holds none and there is none of the pair. -/
theorem slot_cases (h : (c.findScene groupId sceneId).or c.findEmptySlot = some idx) :
    ∃ s, c.scenes[idx]? = some s ∧ (isScene groupId sceneId s = true ∨
      s.active = false ∧ ∀ x ∈ c.scenes, isScene groupId sceneId x = false) := by
  cases hfind : c.findScene groupId sceneId with
  | none =>
    rw [hfind, Option.none_or] at h
    obtain ⟨s, hs, hfree⟩ := Table.getElem?_of_findIdx? h
    exact ⟨s, hs, Or.inr ⟨by simpa using hfree, List.findIdx?_eq_none_iff.mp hfind⟩⟩
  | some i =>
    rw [hfind, Option.some_or] at h
    cases h
    exact ⟨_, (findScene_some hfind).1, Or.inl (findScene_some hfind).2⟩

theorem findScene_setScene (h : (c.findScene groupId sceneId).or c.findEmptySlot = some idx) (hs : isScene groupId sceneId s = true) :
    (c.setScene idx s).findScene groupId sceneId = some idx := by
  obtain ⟨old, hold, -⟩ := slot_cases h
  refine Table.findIdx?_set (List.getElem?_eq_some_iff.mp hold).1 hs fun j y hj hy => ?_
  cases hfind : c.findScene groupId sceneId with
  | none => exact List.findIdx?_eq_none_iff.mp hfind y (List.mem_of_getElem? hy)
  | some i =>
    rw [hfind, Option.some_or] at h
    cases h
    exact Table.before_findIdx? hfind j y hj hy

end Slots

/-! ### Effects on the table -/

section Invariant

variable {c c' : ScenesCluster} {groupId groupId' : UInt16} {sceneId sceneId' : UInt8}

@[simp] theorem updateSceneCount_scenes (c : ScenesCluster) : c.updateSceneCount.scenes = c.scenes := rfl

@[simp] theorem setCurrent_layout (c : ScenesCluster) (groupId : UInt16) (sceneId : UInt8) :
    (c.setCurrent groupId sceneId).store.attrs.map (·.definition) = c.store.attrs.map (·.definition) := by
  simp [setCurrent, setRawIgnored]

/-- SceneCount is there to be written. -/
theorem sceneCount_present (h : c.store.attrs.map (·.definition) = initialAttributes.map (·.1)) :
    ∃ v, c.store.get ATTR_SCENE_COUNT = some v := by
  refine Option.ne_none_iff_exists'.mp fun hnone => ?_
  rw [← find_eq_none_iff, find_eq, h] at hnone
  exact absurd hnone (by decide)

/-- Once the count was updated, the cluster is intact if its scenes are. -/
theorem updateSceneCount_intact (hlayout : c.store.attrs.map (·.definition) = initialAttributes.map (·.1))
    (hunique : Table.UniqueLive (·.active) (fun s : SceneEntry => (s.groupId, s.sceneId)) c.scenes) : Intact c.updateSceneCount := by
  refine ⟨hunique, ?_, ?_⟩
  · rw [← hlayout]
    simp [updateSceneCount, setRawIgnored]
  · obtain ⟨v, hv⟩ := sceneCount_present hlayout
    rw [updateSceneCount, setRawIgnored, AttributeStore.get_setRawIgnored, if_pos rfl, hv]
    rfl

theorem setCurrent_intact (h : Intact c) (groupId : UInt16) (sceneId : UInt8) : Intact (c.setCurrent groupId sceneId) := by
  refine ⟨h.unique, by rw [setCurrent_layout, h.layout], ?_⟩
  rw [← show c.sceneCount = (c.setCurrent groupId sceneId).sceneCount from rfl, ← h.counted]
  simp only [setCurrent, setRawIgnored]
  rw [AttributeStore.get_setRawIgnored, if_neg (by decide), AttributeStore.get_setRawIgnored, if_neg (by decide),
    AttributeStore.get_setRawIgnored, if_neg (by decide)]

/-- A scene that is written to its slot is there once. -/
theorem setScene_unique {idx : Nat} {transitionTime : UInt16} {ext : ExtensionData} (h : Intact c)
    (hslot : (c.findScene groupId sceneId).or c.findEmptySlot = some idx) :
    Table.UniqueLive (·.active) (fun s : SceneEntry => (s.groupId, s.sceneId))
      (c.setScene idx ⟨groupId, sceneId, transitionTime, ext, true⟩).scenes := by
  obtain ⟨s, hs, hscene | ⟨-, hnone⟩⟩ := slot_cases hslot
  · obtain ⟨hactive, rfl, rfl⟩ := isScene_iff.mp hscene
    exact h.unique.set_same hs rfl fun _ => hactive
  · refine h.unique.set fun _ j y _ hy hactive hkey => ?_
    have hother := hnone y (List.mem_of_getElem? hy)
    cases hkey
    rw [isScene_iff.mpr ⟨hactive, rfl, rfl⟩] at hother
    cases hother

theorem Effect.intact (heffect : Effect c groupId sceneId cmdId c') (h : Intact c) : Intact c' := by
  cases heffect with
  | unchanged => exact h
  | removedAll =>
    refine updateSceneCount_intact h.layout (h.unique.map (fun s => ?_) fun s hs => ?_)
    · split <;> rfl
    · split at hs
      · cases hs
      · exact hs
  | added hslot => exact updateSceneCount_intact h.layout (setScene_unique h hslot)
  | removed hslot =>
    refine updateSceneCount_intact h.layout (h.unique.set_same (findScene_some hslot).1 rfl fun hactive => ?_)
    cases hactive
  | stored hslot => exact updateSceneCount_intact (by rw [setCurrent_layout]; exact h.layout) (setScene_unique h hslot)
  | recalled => exact setCurrent_intact h _ _

/-- The scene of a pair is the same, unless the command is about it. -/
theorem Effect.lookup_eq (heffect : Effect c groupId sceneId cmdId c') (hother : ¬ (groupId = groupId' ∧ (cmdId = CMD_REMOVE_ALL_SCENES ∨
      sceneId = sceneId' ∧ (cmdId = CMD_ADD_SCENE ∨ cmdId = CMD_REMOVE_SCENE ∨ cmdId = CMD_STORE_SCENE)))) :
    lookup c' groupId' sceneId' = lookup c groupId' sceneId' := by
  have hwritten : ∀ {idx : Nat} {s : SceneEntry}, (groupId, sceneId) ≠ (groupId', sceneId') →
      (c.findScene groupId sceneId).or c.findEmptySlot = some idx → isScene groupId' sceneId' s = false →
      (c.scenes.set idx s).find? (isScene groupId' sceneId') = c.scenes.find? (isScene groupId' sceneId') := by
    intro idx s hne hslot hs
    obtain ⟨old, hold, hscene | ⟨hfree, -⟩⟩ := slot_cases hslot
    · exact Table.find?_set_of_not hold (isScene_of_ne hscene hne) hs
    · exact Table.find?_set_of_not hold (isScene_of_inactive hfree) hs
  cases heffect with
  | unchanged => rfl
  | removedAll =>
    have hne : groupId ≠ groupId' := fun heq => hother ⟨heq, Or.inl rfl⟩
    have hkept : ∀ s : SceneEntry, isScene groupId' sceneId' (if s.groupId = groupId then { s with active := false } else s) =
        isScene groupId' sceneId' s := by
      intro s
      split
      · rename_i hgroup
        simp [isScene, hgroup, hne]
      · rfl
    simp only [lookup, removeAllScenes, updateSceneCount_scenes, List.find?_map, Function.comp_def, hkept]
    cases hfind : c.scenes.find? (isScene groupId' sceneId') with
    | none => rfl
    | some s =>
      obtain ⟨-, hgroup, -⟩ := isScene_iff.mp (List.find?_some hfind)
      rw [Option.map_some, if_neg (by rw [hgroup]; exact hne.symm)]
  | added hslot =>
    have hne : (groupId, sceneId) ≠ (groupId', sceneId') := fun heq => hother (by cases heq; exact ⟨rfl, Or.inr ⟨rfl, Or.inl rfl⟩⟩)
    exact hwritten hne hslot (isScene_of_ne (isScene_iff.mpr ⟨rfl, rfl, rfl⟩) hne)
  | removed hslot =>
    have hne : (groupId, sceneId) ≠ (groupId', sceneId') :=
      fun heq => hother (by cases heq; exact ⟨rfl, Or.inr ⟨rfl, Or.inr (Or.inl rfl)⟩⟩)
    exact hwritten hne (by rw [hslot, Option.some_or]) (isScene_of_inactive rfl)
  | stored hslot =>
    have hne : (groupId, sceneId) ≠ (groupId', sceneId') :=
      fun heq => hother (by cases heq; exact ⟨rfl, Or.inr ⟨rfl, Or.inr (Or.inr rfl)⟩⟩)
    exact hwritten hne hslot (isScene_of_ne (isScene_iff.mpr ⟨rfl, rfl, rfl⟩) hne)
  | recalled => rfl

end Invariant

/-! ## Runs -/

variable {sceneId : UInt8} {e : SceneEndpoint}

section Runs

variable {floats : FloatSupport} {c : ScenesCluster}

theorem handle_effect (floats : FloatSupport) (c : ScenesCluster) (cmd : Command) :
    Effect c cmd.groupId cmd.sceneId cmd.cmdId (step floats c cmd) ∧ (refused (handle floats c cmd).2 = true → step floats c cmd = c) := by
  cases cmd with
  | endpoint e cmdId payload => exact handleCommandWith_effect rfl
  | plain cmdId payload => exact handleCommandWith_effect rfl

theorem new_intact : Intact .new where
  unique := by
    intro i j x y hi hj hx hy _
    rw [ScenesCluster.new] at hi
    obtain rfl := List.eq_of_mem_replicate (List.mem_of_getElem? hi)
    cases hx
  layout := by decide
  counted := by decide

theorem run_intact (floats : FloatSupport) (cmds : List Command) : Intact (Run.run (step floats) .new cmds) :=
  Run.run_invariant (fun c cmd h => (handle_effect floats c cmd).1.intact h) new_intact cmds

/-- A scene stays as it is while no command changes it. -/
theorem lookup_kept {cmds : List Command} (hlookup : lookup c groupId sceneId = some s)
    (halong : Run.Along (step floats) (fun c cmd => ¬ Changes floats groupId sceneId c cmd) c cmds) :
    lookup (Run.run (step floats) c cmds) groupId sceneId = some s := by
  refine Run.run_induct (I := fun c => lookup c groupId sceneId = some s) (fun c cmd hc hkeeps => ?_) hlookup halong
  obtain ⟨heffect, hrefused⟩ := handle_effect floats c cmd
  cases href : refused (handle floats c cmd).2 with
  | true => rw [hrefused href, hc]
  | false => rw [heffect.lookup_eq fun h => hkeeps ⟨href, h⟩, hc]

/-- The endpoint takes commands for the group. -/
def Member (e : SceneEndpoint) (groupId : UInt16) : Prop := groupId = 0 ∨ e.isMember groupId = true

theorem groupOk_of_member (floats : FloatSupport) (h : Member e groupId) :
    (groupId == 0 || (endpointContext floats).isGroupMember e groupId) = true := by
  rcases h with rfl | h
  · rfl
  · simp [endpointContext, h]

/-- A scene that was stored has captured the endpoint. -/
theorem storeScene_success (h : (c.storeScene (endpointContext floats) groupId sceneId e).2 = .success) :
    ∃ s, lookup (c.storeScene (endpointContext floats) groupId sceneId e).1 groupId sceneId = some s ∧
      e.capture = .ok s.extensionData := by
  generalize hstore : c.storeScene (endpointContext floats) groupId sceneId e = r at h ⊢
  unfold storeScene at hstore
  split at hstore
  · subst hstore
    cases h
  · rename_i idx hslot
    obtain ⟨old, hold, -⟩ := slot_cases hslot
    split at hstore
    · rename_i status hcapture
      subst hstore
      cases captureLoop_error hcapture
      cases h
    · rename_i ext hcapture
      subst hstore
      have hlookup : ∀ t : UInt16, lookup ((c.setScene idx ⟨groupId, sceneId, t, ext, true⟩).setCurrent groupId sceneId).updateSceneCount
          groupId sceneId = some ⟨groupId, sceneId, t, ext, true⟩ := by
        intro t
        have hslot' := List.getElem?_set_self (a := (⟨groupId, sceneId, t, ext, true⟩ : SceneEntry)) (List.getElem?_eq_some_iff.mp hold).1
        have hfind := lookup_of_findScene (findScene_setScene (s := ⟨groupId, sceneId, t, ext, true⟩) hslot (isScene_iff.mpr ⟨rfl, rfl, rfl⟩))
        rw [sceneAt_of_getElem? hslot'] at hfind
        exact hfind
      exact ⟨_, hlookup _, hcapture⟩

/-- An accepted Store Scene has stored the scene. -/
theorem handle_store (h : refused (handle floats c (.endpoint e CMD_STORE_SCENE payload)).2 = false) :
    step floats c (.endpoint e CMD_STORE_SCENE payload) =
        (c.storeScene (endpointContext floats) (u16At payload 0) (u8At payload 2) e).1 ∧
      (c.storeScene (endpointContext floats) (u16At payload 0) (u8At payload 2) e).2 = .success := by
  simp only [step, handle] at h ⊢
  unfold handleCommandWith at h ⊢
  dsimp only at h ⊢
  split at h
  · cases h
  rename_i hlen
  rw [if_neg hlen]
  rw [if_neg (by decide), if_neg (by decide), if_pos (by decide)] at h ⊢
  unfold handleSceneCommand at h ⊢
  split at h
  · cases h
  rename_i hlen
  rw [if_neg hlen]
  rw [if_neg (by simp [CMD_STORE_SCENE, CMD_RECALL_SCENE])] at h ⊢
  split at h
  · rw [Bool.eq_false_iff] at h
    exact absurd (refused_response.mpr (by decide)) h
  rename_i hgroup
  rw [if_neg hgroup]
  rw [if_neg (by decide), if_neg (by decide), if_neg (by decide), if_pos rfl] at h ⊢
  refine ⟨rfl, ?_⟩
  by_contra hne
  rw [Bool.eq_false_iff] at h
  exact h (refused_response.mpr hne)

/-- A Recall Scene that reaches the table and succeeds. -/
theorem handle_recall {c' : ScenesCluster} {e' : SceneEndpoint} (hlen : 3 ≤ payload.length) (hmember : Member e (u16At payload 0))
    (h : c.recallScene (endpointContext floats) (u16At payload 0) (u8At payload 2)
      (if payload.length < 5 then none else some (u16At payload 3)) e = (c', e', .success)) :
    c.handleCommandWith (endpointContext floats) CMD_RECALL_SCENE payload e = (c', e', .ok []) := by
  have hgroup := groupOk_of_member floats hmember
  unfold handleCommandWith
  dsimp only
  rw [if_neg (by omega), if_neg (by decide), if_neg (by decide), if_pos (by decide), hgroup]
  unfold handleSceneCommand
  rw [if_neg (by omega)]
  dsimp only
  rw [if_neg (by simp), if_neg (by simp), if_neg (by decide), if_neg (by decide), if_neg (by decide), if_neg (by decide), h]

/-- **A scene is recalled as it was captured.** -/
theorem recall_stored (hlookup : lookup c groupId sceneId = some s) {e' : SceneEndpoint} (hcapture : e.capture = .ok s.extensionData)
    (hnodup : (e.clusters.map (·.id)).Nodup) (hread : ∀ x ∈ e.clusters, x.ReadsBack floats)
    (hshape : e'.clusters.map shape = e.clusters.map shape) (hlen : 3 ≤ payload.length)
    (hgroup : u16At payload 0 = groupId) (hscene : u8At payload 2 = sceneId) (hmember : Member e' groupId) :
    ∃ c' e'' transitionDs, c.handleCommandWith (endpointContext floats) CMD_RECALL_SCENE payload e' = (c', e'', .ok []) ∧
      e''.applied = e'.applied ++ restoring e.clusters transitionDs ∧
      e''.clusters.map snapshot = e.clusters.map snapshot := by
  subst hgroup hscene
  obtain ⟨idx, hfind, hat⟩ := findScene_of_lookup hlookup
  obtain ⟨e'', hrecall, happlied, hsnapshot⟩ := recall_capture hcapture hnodup hread hshape
    (recallTransition (if payload.length < 5 then none else some (u16At payload 3)) s)
  refine ⟨c.setCurrent (u16At payload 0) (u8At payload 2), e'', _, ?_, happlied, hsnapshot⟩
  have hscene : c.recallScene (endpointContext floats) (u16At payload 0) (u8At payload 2)
      (if payload.length < 5 then none else some (u16At payload 3)) e' = (c.setCurrent (u16At payload 0) (u8At payload 2), e'', .success) := by
    rw [recallScene, hfind]
    simp only [hat, endpointContext, hrecall]
  exact handle_recall hlen hmember hscene

end Runs

/-- **Integrity of the scene table** over every sequence of commands: a scene is stored once, SceneCount is the
    number of scenes, a refused command changes nothing, and a stored scene is recalled as it was captured,
    whatever happened to the other scenes. -/
theorem scene_table_integrity (floats : FloatSupport) (cmds : List Command) :
    let c := Run.run (step floats) .new cmds
    Table.UniqueLive (·.active) (fun s : SceneEntry => (s.groupId, s.sceneId)) c.scenes ∧
    (∃ n : UInt8, c.store.get ATTR_SCENE_COUNT = some (.u8 n) ∧ n.toNat = c.scenes.countP (·.active)) ∧
    (∀ cmd, refused (handle floats c cmd).2 = true → step floats c cmd = c) ∧
    ∀ (e : SceneEndpoint) (payload : Buf), refused (handle floats c (.endpoint e CMD_STORE_SCENE payload)).2 = false →
      (e.clusters.map (·.id)).Nodup → (∀ x ∈ e.clusters, x.ReadsBack floats) →
      ∀ cmds' : List Command,
        Run.Along (step floats) (fun c cmd => ¬ Changes floats (u16At payload 0) (u8At payload 2) c cmd)
          (step floats c (.endpoint e CMD_STORE_SCENE payload)) cmds' →
        ∀ (e' : SceneEndpoint) (payload' : Buf), e'.clusters.map shape = e.clusters.map shape →
          3 ≤ payload'.length → u16At payload' 0 = u16At payload 0 → u8At payload' 2 = u8At payload 2 →
          Member e' (u16At payload 0) →
          ∃ c' e'' transitionDs,
            (Run.run (step floats) (step floats c (.endpoint e CMD_STORE_SCENE payload)) cmds').handleCommandWith
              (endpointContext floats) CMD_RECALL_SCENE payload' e' = (c', e'', .ok []) ∧
            e''.applied = e'.applied ++ restoring e.clusters transitionDs ∧
            e''.clusters.map snapshot = e.clusters.map snapshot := by
  intro c
  have hintact : Intact c := run_intact floats cmds
  refine ⟨hintact.unique, ⟨c.sceneCount, hintact.counted, ?_⟩, fun cmd => (handle_effect floats c cmd).2, ?_⟩
  · have hle : c.scenes.countP (·.active) ≤ MAX_SCENES := by
      rw [← c.slots]
      exact List.countP_le_length
    rw [ScenesCluster.sceneCount, UInt8.toNat_ofNat', Nat.mod_eq_of_lt]
    simp only [MAX_SCENES] at hle
    omega
  · intro e payload hstored hnodup hread cmds' halong e' payload' hshape hlen hgroup hscene hmember
    obtain ⟨hstep, hsuccess⟩ := handle_store hstored
    obtain ⟨s, hlookup, hcapture⟩ := storeScene_success hsuccess
    rw [← hstep] at hlookup
    exact recall_stored (lookup_kept hlookup halong) hcapture hnodup hread hshape hlen hgroup hscene hmember

/-- An endpoint with an On/Off cluster. -/
def onOffEndpoint (on : Bool) : SceneEndpoint :=
  ⟨[⟨0x0006, [0], 8, ⟨[⟨⟨0, .bool, .reportable⟩, .bool on⟩], Nat.le_add_left 1 7⟩⟩], fun _ => true, []⟩

/-- Stored while on, then another scene is added, then recalled while off. -/
theorem example_recalled : ∃ c' e'' transitionDs,
    (Run.run (step ⟨false, false⟩) (step ⟨false, false⟩ .new (.endpoint (onOffEndpoint true) CMD_STORE_SCENE [0, 0, 3]))
        [.plain CMD_ADD_SCENE [0, 0, 4, 5, 0, 0]]).handleCommandWith
      (endpointContext ⟨false, false⟩) CMD_RECALL_SCENE [0, 0, 3] (onOffEndpoint false) = (c', e'', .ok []) ∧
    e''.applied = [] ++ restoring (onOffEndpoint true).clusters transitionDs ∧
    e''.clusters.map snapshot = (onOffEndpoint true).clusters.map snapshot :=
  (scene_table_integrity ⟨false, false⟩ []).2.2.2 (onOffEndpoint true) [0, 0, 3] (by decide) (by decide)
    (fun x hx => by
      obtain rfl := List.mem_singleton.mp hx
      intro y hy
      obtain rfl := List.mem_singleton.mp hy
      exact ⟨⟨0, .bool, .reportable⟩, rfl, rfl, rfl, trivial⟩)
    [.plain CMD_ADD_SCENE [0, 0, 4, 5, 0, 0]] (by decide) (onOffEndpoint false) [0, 0, 3] (by decide) (by decide) (by decide)
    (by decide) (Or.inl (by decide))

/-- Two clusters with one id. -/
def twinEndpoint : SceneEndpoint :=
  ⟨(onOffEndpoint true).clusters ++ (onOffEndpoint false).clusters, fun _ => true, []⟩

/-- A cluster whose attribute holds a value of another type than the declared one. -/
def mistypedEndpoint : SceneEndpoint :=
  ⟨[⟨0x0008, [0], 8, ⟨[⟨⟨0, .u16, .reportable⟩, .u8 7⟩], by decide⟩⟩], fun _ => true, []⟩

/-- Both are stored, and neither is recalled as it was captured: the first cluster gets both field sets,
    and the value is not read back. -/
theorem recall_differs :
    (refused (handle ⟨true, true⟩ .new (.endpoint twinEndpoint CMD_STORE_SCENE [0, 0, 1])).2 = false ∧
      ((step ⟨true, true⟩ .new (.endpoint twinEndpoint CMD_STORE_SCENE [0, 0, 1])).handleCommandWith
        (endpointContext ⟨true, true⟩) CMD_RECALL_SCENE [0, 0, 1] twinEndpoint).2.1.clusters.map snapshot ≠
          twinEndpoint.clusters.map snapshot) ∧
    refused (handle ⟨true, true⟩ .new (.endpoint mistypedEndpoint CMD_STORE_SCENE [0, 0, 1])).2 = false ∧
      ((step ⟨true, true⟩ .new (.endpoint mistypedEndpoint CMD_STORE_SCENE [0, 0, 1])).handleCommandWith
        (endpointContext ⟨true, true⟩) CMD_RECALL_SCENE [0, 0, 1] mistypedEndpoint).2.1.applied = [] := by
  decide

end Zigbee.Zcl.Scenes
