import Zigbee.Lib.Table
import Zigbee.Zcl.DataTypes

/-!
# Attribute stores

Model of `zigbee-zcl/src/attribute.rs`: the attributes of a cluster, each with its definition and its
value, in a list of at most `N`.

* `resolveWritableSlot` — the checks that `set` and `validateSet` share.
* `AttributeStore` — reads, checked writes (`set`, `validateSet`) and unchecked ones (`setRaw`).
-/

namespace Zigbee.Zcl

abbrev AttributeId := UInt16

inductive AttributeAccess where
  | readOnly
  | writeOnly
  | readWrite
  | reportable
  deriving DecidableEq, Repr

def AttributeAccess.isWritable : AttributeAccess → Bool
  | .writeOnly | .readWrite => true
  | _ => false

structure AttributeDefinition where
  id : AttributeId
  dataType : ZclDataType
  access : AttributeAccess
  deriving DecidableEq, Repr

structure AttributeValue where
  definition : AttributeDefinition
  value : ZclValue
  deriving DecidableEq

/-- The slot of a writable attribute that accepts the value. -/
def resolveWritableSlot (attrs : List AttributeValue) (id : AttributeId) (value : ZclValue) : Except ZclStatus Nat :=
  match attrs.findIdx? (·.definition.id == id) with
  | none => .error .unsupportedAttribute
  | some idx =>
    match attrs[idx]? with
    | none => .error .unsupportedAttribute
    | some a =>
      if !a.definition.access.isWritable then .error .readOnly
      else if value.dataType ≠ a.definition.dataType then .error .invalidDataType
      else .ok idx

structure AttributeStore (N : Nat) where
  attrs : List AttributeValue
  room : attrs.length ≤ N

variable {id : AttributeId} {value : ZclValue}

namespace AttributeStore

open Table (modifyFirst)

variable {N : Nat} {store : AttributeStore N}

@[ext] theorem ext {a b : AttributeStore N} (h : a.attrs = b.attrs) : a = b := by
  cases a
  cases b
  cases h
  rfl

def new : AttributeStore N := ⟨[], Nat.zero_le _⟩

def register (store : AttributeStore N) (definition : AttributeDefinition) (initial : ZclValue) :
    Except ZclStatus (AttributeStore N) :=
  if h : store.attrs.length < N then
    .ok ⟨store.attrs ++ [⟨definition, initial⟩], by
      rw [List.length_append, List.length_singleton]
      exact h⟩
  else .error .insufficientSpace

/-- `let _ = register(..)`: an attribute without room is left out. -/
def registerIgnored (store : AttributeStore N) (entry : AttributeDefinition × ZclValue) : AttributeStore N :=
  match store.register entry.1 entry.2 with
  | .error _ => store
  | .ok store' => store'

theorem foldl_registerIgnored_attrs : ∀ (entries : List (AttributeDefinition × ZclValue)) (store : AttributeStore N),
    store.attrs.length + entries.length ≤ N →
    (entries.foldl registerIgnored store).attrs = store.attrs ++ entries.map fun x => ⟨x.1, x.2⟩
  | [], store, _ => by simp
  | entry :: entries, store, hroom => by
    rw [List.length_cons] at hroom
    have hregister : (store.registerIgnored entry).attrs = store.attrs ++ [⟨entry.1, entry.2⟩] := by
      simp only [registerIgnored, register]
      rw [dif_pos (by omega)]
    rw [List.foldl_cons, foldl_registerIgnored_attrs entries _ (by rw [hregister]; simp; omega), hregister]
    simp

def get (store : AttributeStore N) (id : AttributeId) : Option ZclValue :=
  (store.attrs.find? (·.definition.id == id)).map (·.value)

def find (store : AttributeStore N) (id : AttributeId) : Option AttributeDefinition :=
  (store.attrs.find? (·.definition.id == id)).map (·.definition)

/-- The store with the value of slot `idx` replaced. -/
def setSlot (store : AttributeStore N) (idx : Nat) (value : ZclValue) : AttributeStore N :=
  ⟨store.attrs.modify idx fun a => { a with value := value }, by
    rw [List.length_modify]
    exact store.room⟩

@[simp] theorem setSlot_attrs (store : AttributeStore N) (idx : Nat) (value : ZclValue) :
    (store.setSlot idx value).attrs = store.attrs.modify idx fun a => { a with value := value } := rfl

/-- Write a value, respecting access control and type. -/
def set (store : AttributeStore N) (id : AttributeId) (value : ZclValue) : Except ZclStatus (AttributeStore N) :=
  match resolveWritableSlot store.attrs id value with
  | .error e => .error e
  | .ok idx => .ok (store.setSlot idx value)

def validateSet (store : AttributeStore N) (id : AttributeId) (value : ZclValue) : Except ZclStatus Unit :=
  match resolveWritableSlot store.attrs id value with
  | .error e => .error e
  | .ok _ => .ok ()

/-- Replace a value whatever its access and type. -/
def setRaw (store : AttributeStore N) (id : AttributeId) (value : ZclValue) : Except ZclStatus (AttributeStore N) :=
  match store.attrs.findIdx? (·.definition.id == id) with
  | none => .error .unsupportedAttribute
  | some idx => .ok (store.setSlot idx value)

/-- `let _ = set_raw(..)`: the store stays as it is when there is no such attribute. -/
def setRawIgnored (store : AttributeStore N) (id : AttributeId) (value : ZclValue) : AttributeStore N :=
  match store.setRaw id value with
  | .error _ => store
  | .ok store' => store'

/-! ### What a write leaves alone -/

theorem setSlot_definitions (store : AttributeStore N) (idx : Nat) (value : ZclValue) :
    (store.setSlot idx value).attrs.map (·.definition) = store.attrs.map (·.definition) := by
  rw [setSlot_attrs]
  apply List.ext_getElem?
  intro i
  by_cases hi : idx = i <;> simp [hi, Option.map_map, Function.comp_def]

theorem set_definitions {store' : AttributeStore N} (h : store.set id value = .ok store') :
    store'.attrs.map (·.definition) = store.attrs.map (·.definition) := by
  unfold set at h
  split at h <;> cases h
  exact setSlot_definitions _ _ _

theorem setRaw_definitions {store' : AttributeStore N} (h : store.setRaw id value = .ok store') :
    store'.attrs.map (·.definition) = store.attrs.map (·.definition) := by
  unfold setRaw at h
  split at h <;> cases h
  exact setSlot_definitions _ _ _

@[simp] theorem setRawIgnored_definitions (store : AttributeStore N) (id : AttributeId) (value : ZclValue) :
    (store.setRawIgnored id value).attrs.map (·.definition) = store.attrs.map (·.definition) := by
  unfold setRawIgnored
  split
  · rfl
  · rename_i hset
    exact setRaw_definitions hset

/-- The slot depends on the definitions alone. -/
theorem resolve_eq_of_definitions {a b : List AttributeValue} (h : a.map (·.definition) = b.map (·.definition))
    (id : AttributeId) (value : ZclValue) : resolveWritableSlot a id value = resolveWritableSlot b id value := by
  have hfind : a.findIdx? (·.definition.id == id) = b.findIdx? (·.definition.id == id) := by
    have := congrArg (List.findIdx? (fun d : AttributeDefinition => d.id == id)) h
    simpa [Function.comp_def] using this
  unfold resolveWritableSlot
  rw [hfind]
  cases b.findIdx? (·.definition.id == id) with
  | none => rfl
  | some idx =>
    have hslot : a[idx]?.map (·.definition) = b[idx]?.map (·.definition) := by
      rw [← List.getElem?_map, ← List.getElem?_map, h]
    cases ha : a[idx]? with
    | none =>
      rw [ha, Option.map_none, eq_comm, Option.map_eq_none_iff] at hslot
      simp only [ha, hslot]
    | some x =>
      rw [ha, Option.map_some, eq_comm, Option.map_eq_some_iff] at hslot
      obtain ⟨y, hy, hxy⟩ := hslot
      simp only [ha, hy, hxy]

theorem validateSet_eq_of_definitions {store' : AttributeStore N}
    (h : store'.attrs.map (·.definition) = store.attrs.map (·.definition)) (id : AttributeId) (value : ZclValue) :
    store'.validateSet id value = store.validateSet id value := by
  rw [validateSet, validateSet, resolve_eq_of_definitions h]

theorem validateSet_ok_iff : store.validateSet id value = .ok () ↔ ∃ idx, resolveWritableSlot store.attrs id value = .ok idx := by
  unfold validateSet
  cases resolveWritableSlot store.attrs id value <;> simp

theorem validateSet_ne_success : store.validateSet id value ≠ .error .success := by
  unfold validateSet resolveWritableSlot
  intro h
  split at h
  · rename_i e hresolve
    cases h
    split at hresolve
    · cases hresolve
    · split at hresolve
      · cases hresolve
      · split_ifs at hresolve <;> cases hresolve
  · cases h

/-- A write goes to the attribute, which can be written. -/
theorem resolve_writable {idx : Nat} (h : resolveWritableSlot store.attrs id value = .ok idx) :
    store.attrs.findIdx? (·.definition.id == id) = some idx ∧
      ∃ a, store.attrs[idx]? = some a ∧ a.definition.access.isWritable = true := by
  unfold resolveWritableSlot at h
  split at h
  · cases h
  · split at h
    · cases h
    · rename_i hidx _ a ha
      split_ifs at h with haccess htype
      cases h
      exact ⟨hidx, a, ha, by simpa using haccess⟩

theorem findIdx?_setSlot (store : AttributeStore N) (idx : Nat) (value : ZclValue) (id : AttributeId) :
    (store.setSlot idx value).attrs.findIdx? (·.definition.id == id) = store.attrs.findIdx? (·.definition.id == id) := by
  have := congrArg (List.findIdx? (fun d : AttributeDefinition => d.id == id)) (store.setSlot_definitions idx value)
  simpa [Function.comp_def] using this

theorem get_eq_of_findIdx? {j : Nat} (hj : store.attrs.findIdx? (·.definition.id == id) = some j) :
    store.get id = store.attrs[j]?.map (·.value) := by
  obtain ⟨-, hidx⟩ := List.findIdx?_eq_some_iff_findIdx_eq.mp hj
  rw [get, List.find?_eq_getElem?_findIdx, hidx]

theorem get_eq_none_iff : store.get id = none ↔ store.attrs.findIdx? (·.definition.id == id) = none := by
  rw [get, Option.map_eq_none_iff, List.find?_eq_none, List.findIdx?_eq_none_iff]
  simp

/-- A value that is stored is read back, and seen nowhere else. -/
theorem get_setSlot {idx : Nat} (hidx : store.attrs.findIdx? (·.definition.id == id) = some idx) (id' : AttributeId)
    (value : ZclValue) : (store.setSlot idx value).get id' = if id' = id then some value else store.get id' := by
  obtain ⟨a, ha, hid⟩ := Table.getElem?_of_findIdx? hidx
  split
  · rename_i heq
    rw [heq, get_eq_of_findIdx? ((findIdx?_setSlot _ _ _ _).trans hidx), setSlot_attrs, List.getElem?_modify_eq, ha]
    rfl
  · rename_i hne
    cases hj : store.attrs.findIdx? (·.definition.id == id') with
    | none => rw [get_eq_none_iff.mpr hj, get_eq_none_iff.mpr ((findIdx?_setSlot _ _ _ _).trans hj)]
    | some j =>
      rw [get_eq_of_findIdx? hj, get_eq_of_findIdx? ((findIdx?_setSlot _ _ _ _).trans hj), setSlot_attrs, List.getElem?_modify_ne]
      rintro rfl
      obtain ⟨b, hb, hid'⟩ := Table.getElem?_of_findIdx? hj
      rw [ha] at hb
      cases hb
      exact hne ((beq_iff_eq.mp hid').symm.trans (beq_iff_eq.mp hid))

theorem get_setRawIgnored (store : AttributeStore N) (id id' : AttributeId) (value : ZclValue) :
    (store.setRawIgnored id value).get id' = if id' = id then (store.get id).map fun _ => value else store.get id' := by
  unfold setRawIgnored setRaw
  cases hidx : store.attrs.findIdx? (·.definition.id == id) with
  | none => simp +contextual [get_eq_none_iff.mpr hidx]
  | some idx =>
    obtain ⟨a, ha, -⟩ := Table.getElem?_of_findIdx? hidx
    rw [get_eq_of_findIdx? hidx, ha]
    exact get_setSlot hidx id' value

/-- A checked write leaves the attributes alone that cannot be written. -/
theorem get_set_of_readOnly {id' : AttributeId} {idx j : Nat} {a : AttributeValue}
    (h : resolveWritableSlot store.attrs id value = .ok idx) (hj : store.attrs.findIdx? (·.definition.id == id') = some j)
    (ha : store.attrs[j]? = some a) (hreadOnly : a.definition.access.isWritable = false) :
    (store.setSlot idx value).get id' = store.get id' := by
  obtain ⟨hidx, b, hb, hwritable⟩ := resolve_writable h
  rw [get_setSlot hidx, if_neg]
  rintro rfl
  obtain rfl := Option.some.inj (hj.symm.trans hidx)
  rw [ha] at hb
  cases hb
  rw [hreadOnly] at hwritable
  cases hwritable

end AttributeStore

end Zigbee.Zcl
