import Zigbee.Lib.Records
import Zigbee.Types

/-!
# APS binding and group tables

Models of `zigbee-aps/src/binding.rs` and `zigbee-aps/src/group.rs`.  A binding table holds no binding
twice, and a group table no group twice.
-/

namespace Zigbee.Aps

open Records (Bounded)
open Table (modifyFirst swapRemove)

/-! ## Bindings -/

def MAX_BINDING_ENTRIES : Nat := 32

inductive BindingDst where
  | group (group : UInt16)
  | unicast (dstAddr : IeeeAddress) (dstEndpoint : UInt8)
  deriving DecidableEq

inductive BindingDstMode where
  | group
  | extended
  deriving DecidableEq, Repr

def BindingDstMode.toU8 : BindingDstMode → UInt8
  | .group => 0x01
  | .extended => 0x03

structure BindingEntry where
  srcAddr : IeeeAddress
  srcEndpoint : UInt8
  clusterId : UInt16
  dstAddrMode : BindingDstMode
  dst : BindingDst
  deriving DecidableEq

namespace BindingEntry

def unicast (srcAddr : IeeeAddress) (srcEndpoint : UInt8) (clusterId : UInt16) (dstAddr : IeeeAddress)
    (dstEndpoint : UInt8) : BindingEntry :=
  ⟨srcAddr, srcEndpoint, clusterId, .extended, .unicast dstAddr dstEndpoint⟩

def group (srcAddr : IeeeAddress) (srcEndpoint : UInt8) (clusterId groupAddress : UInt16) : BindingEntry :=
  ⟨srcAddr, srcEndpoint, clusterId, .group, .group groupAddress⟩

/-- What `find_exact` compares. -/
def key (e : BindingEntry) : IeeeAddress × UInt8 × UInt16 × BindingDst := (e.srcAddr, e.srcEndpoint, e.clusterId, e.dst)

end BindingEntry

structure BindingTable where
  entries : List BindingEntry
  bounded : entries.length ≤ MAX_BINDING_ENTRIES
  distinct : (entries.map BindingEntry.key).Nodup
  deriving DecidableEq

namespace BindingTable

def new : BindingTable := ⟨[], Nat.zero_le _, List.nodup_nil⟩

@[ext] theorem ext {t t' : BindingTable} (h : t.entries = t'.entries) : t = t' := by
  cases t
  cases t'
  cases h
  rfl

/-- `none` when the table is full or has the binding. -/
def add (t : BindingTable) (entry : BindingEntry) : Option BindingTable :=
  if hnew : ∀ e ∈ t.entries, e.key ≠ entry.key then
    if hroom : t.entries.length < MAX_BINDING_ENTRIES then
      some {
        entries := t.entries ++ [entry]
        bounded := by
          rw [List.length_append, List.length_singleton]
          exact hroom
        distinct := Table.nodup_append_new t.distinct hnew }
    else none
  else none

theorem add_eq_some {t : BindingTable} {entry : BindingEntry} (hnew : ∀ e ∈ t.entries, e.key ≠ entry.key)
    (hroom : t.entries.length < MAX_BINDING_ENTRIES) :
    ∃ t', t.add entry = some t' ∧ t'.entries = t.entries ++ [entry] := by
  unfold add
  rw [dif_pos hnew, dif_pos hroom]
  exact ⟨_, rfl, rfl⟩

end BindingTable

/-! ## Groups -/

/-- The `router` feature quadruples the table. -/
def MAX_GROUPS (router : Bool) : Nat := if router then 16 else 4
def MAX_ENDPOINTS_PER_GROUP : Nat := 8

structure GroupEntry where
  groupAddress : UInt16
  endpointList : Bounded UInt8 MAX_ENDPOINTS_PER_GROUP
  deriving DecidableEq

structure GroupTable (router : Bool) where
  groups : List GroupEntry
  bounded : groups.length ≤ MAX_GROUPS router
  distinct : (groups.map GroupEntry.groupAddress).Nodup
  deriving DecidableEq

/-- The list of a new group. -/
def onlyEndpoint (endpoint : UInt8) : Bounded UInt8 MAX_ENDPOINTS_PER_GROUP :=
  ⟨[endpoint], (by decide : 1 ≤ MAX_ENDPOINTS_PER_GROUP)⟩

namespace GroupTable

variable {router : Bool}

def new : GroupTable router := ⟨[], Nat.zero_le _, List.nodup_nil⟩

@[ext] theorem ext {t t' : GroupTable router} (h : t.groups = t'.groups) : t = t' := by
  cases t
  cases t'
  cases h
  rfl

def find (t : GroupTable router) (groupAddress : UInt16) : Option GroupEntry :=
  t.groups.find? (·.groupAddress == groupAddress)

/-- The endpoint list of one group, replaced. -/
def setEndpoints (t : GroupTable router) (groupAddress : UInt16) (endpoints : Bounded UInt8 MAX_ENDPOINTS_PER_GROUP) :
    GroupTable router where
  groups := modifyFirst (·.groupAddress == groupAddress) (fun g => { g with endpointList := endpoints }) t.groups
  bounded := by
    rw [Table.length_modifyFirst]
    exact t.bounded
  distinct := by
    have hkeys : ∀ g : GroupEntry, GroupEntry.groupAddress { g with endpointList := endpoints } = g.groupAddress := fun _ => rfl
    rw [Table.map_modifyFirst hkeys]
    exact t.distinct

/-- `none` for `false`: the table or the group is full. -/
def addGroup (t : GroupTable router) (groupAddress : UInt16) (endpoint : UInt8) : Option (GroupTable router) :=
  match hfind : t.find groupAddress with
  | some group =>
    if group.endpointList.items.contains endpoint then some t
    else (group.endpointList.push endpoint).map (t.setEndpoints groupAddress)
  | none =>
    if hroom : t.groups.length < MAX_GROUPS router then
      some {
        groups := t.groups ++ [⟨groupAddress, onlyEndpoint endpoint⟩]
        bounded := by
          rw [List.length_append, List.length_singleton]
          exact hroom
        distinct := Table.nodup_append_new t.distinct fun g hg => by
          simpa using List.find?_eq_none.mp hfind g hg }
    else none

/-- The first endpoint of a group. -/
theorem addGroup_new {t : GroupTable router} {groupAddress : UInt16} (hnew : ∀ g ∈ t.groups, g.groupAddress ≠ groupAddress)
    (hroom : t.groups.length < MAX_GROUPS router) (endpoint : UInt8) :
    ∃ t', t.addGroup groupAddress endpoint = some t' ∧
      t'.groups = t.groups ++ [⟨groupAddress, onlyEndpoint endpoint⟩] := by
  have hfind : t.find groupAddress = none := List.find?_eq_none.mpr fun g hg => by simpa using hnew g hg
  unfold addGroup
  split
  · rename_i group hsome
    rw [hfind] at hsome
    cases hsome
  · rw [dif_pos hroom]
    exact ⟨_, rfl, rfl⟩

/-- One more endpoint of the last group. -/
theorem addGroup_last {t : GroupTable router} {pre : List GroupEntry} {group : GroupEntry} (hgroups : t.groups = pre ++ [group])
    {endpoint : UInt8} (hendpoint : endpoint ∉ group.endpointList.items)
    (hroom : group.endpointList.items.length < MAX_ENDPOINTS_PER_GROUP) :
    ∃ t' list, t.addGroup group.groupAddress endpoint = some t' ∧
      t'.groups = pre ++ [⟨group.groupAddress, list⟩] ∧ list.items = group.endpointList.items ++ [endpoint] := by
  have hdistinct := t.distinct
  rw [hgroups, List.map_append, List.nodup_append] at hdistinct
  have hpre : ∀ g ∈ pre, (g.groupAddress == group.groupAddress) = false := by
    intro g hg
    simpa using hdistinct.2.2 _ (List.mem_map_of_mem hg) _ (List.mem_map_of_mem List.mem_cons_self)
  have hfind : t.find group.groupAddress = some group := by
    unfold find
    rw [hgroups, List.find?_append, List.find?_eq_none.mpr fun g hg => by simp [hpre g hg]]
    simp
  obtain ⟨list, hpush, hitems⟩ := Bounded.push_eq_some (a := endpoint) hroom
  refine ⟨t.setEndpoints group.groupAddress list, list, ?_, ?_, hitems⟩
  · unfold addGroup
    split
    · rename_i group' hsome
      rw [hfind] at hsome
      cases hsome
      rw [if_neg (by simpa using hendpoint), hpush]
      rfl
    · rename_i hnone
      rw [hfind] at hnone
      cases hnone
  · change modifyFirst _ _ t.groups = _
    rw [hgroups]
    exact Table.modifyFirst_append_last hpre (by simp)

end GroupTable

end Zigbee.Aps
