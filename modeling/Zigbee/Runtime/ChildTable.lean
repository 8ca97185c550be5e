import Zigbee.Lib.Returns
import Zigbee.Lib.Run
import Zigbee.Lib.Table
import Zigbee.Types

/-!
# The persistent child table

Model of `PersistentChildTable` of `zigbee-runtime` (`child_store.rs`): the snapshot of a parent's
children with the transactions that are pending for each of them, and the operations that stage and
complete these.

An operation returns the table it leaves behind also when it fails.  Most of them check what they are
about to do; three change the table first and leave the check to `validate`.
-/

namespace Zigbee.Runtime

open Table (modifyFirst)

def MAX_PERSISTED_CHILDREN : Nat := 32
def MAX_CHILD_REMOVAL_ATTEMPTS : UInt8 := 3

/-- The highest End Device Timeout enumeration. -/
def CHILD_TIMEOUT_ENUM_MAX : UInt8 := 14

inductive ChildStoreError where
  | corrupt
  | full
  | hardware
  | generationExhausted
  | foreignNetwork
  deriving DecidableEq, Repr

/-! ## Children -/

structure PersistentChild where
  ieeeAddress : IeeeAddress
  shortAddress : UInt16
  rxOnWhenIdle : Bool
  securityCapable : Bool
  isRouter : Bool
  endDeviceTimeout : UInt8
  /-- The parent-side Leave and eviction is still to be done. -/
  removalPending : Bool
  removalAttempts : UInt8
  /-- Replacement address that has not been delivered. -/
  reassignmentAddress : Option UInt16
  /-- The child has left, but the Trust Center has not been told. -/
  departurePending : Bool
  deriving DecidableEq

namespace PersistentChild

/-- A short address that a device can have. -/
def allocated (address : UInt16) : Bool := 0x0001 ≤ address && address ≤ 0xFFF7

def validate (c : PersistentChild) : Except ChildStoreError Unit :=
  if CHILD_TIMEOUT_ENUM_MAX < c.endDeviceTimeout then .error .corrupt
  else if !allocated c.shortAddress then .error .corrupt
  else if c.ieeeAddress = Vector.replicate 8 0 then .error .corrupt
  else if MAX_CHILD_REMOVAL_ATTEMPTS < c.removalAttempts || (!c.removalPending && c.removalAttempts != 0) then
    .error .corrupt
  else if c.reassignmentAddress.any fun a =>
      c.removalPending || c.departurePending || a == c.shortAddress || !allocated a then
    .error .corrupt
  else if c.departurePending && c.removalPending then .error .corrupt
  else .ok ()

/-- What `validate` checks. -/
structure Valid (c : PersistentChild) : Prop where
  timeout : ¬ CHILD_TIMEOUT_ENUM_MAX < c.endDeviceTimeout
  short : allocated c.shortAddress = true
  ieee : c.ieeeAddress ≠ Vector.replicate 8 0
  attempts : ¬ MAX_CHILD_REMOVAL_ATTEMPTS < c.removalAttempts
  noAttempts : c.removalPending = false → c.removalAttempts = 0
  reassignment : ∀ a, c.reassignmentAddress = some a →
    c.removalPending = false ∧ c.departurePending = false ∧ a ≠ c.shortAddress ∧ allocated a = true
  departure : c.departurePending = true → c.removalPending = false

theorem validate_ok_iff {c : PersistentChild} : c.validate = .ok () ↔ c.Valid := by
  simp only [validate, check_eq_ok]
  constructor
  · rintro ⟨h1, h2, h3, h4, h5, h6, -⟩
    refine ⟨h1, by simpa using h2, h3, ?_, ?_, ?_, by simpa using h6⟩
    · intro h
      simp [h] at h4
    · intro h
      by_contra hne
      simp [h, hne] at h4
    · intro a ha
      rw [ha] at h5
      simpa [and_assoc] using h5
  · rintro ⟨h1, h2, h3, h4, h5, h6, h7⟩
    refine ⟨h1, by simpa using h2, h3, ?_, ?_, by simpa using h7, trivial⟩
    · simp only [Bool.or_eq_true, Bool.and_eq_true, decide_eq_true_eq, Bool.not_eq_true', bne_iff_ne, not_or, not_and, not_not]
      exact ⟨h4, h5⟩
    · cases ha : c.reassignmentAddress with
      | none => simp
      | some a =>
        obtain ⟨h61, h62, h63, h64⟩ := h6 a ha
        simp [h61, h62, h63, h64]

/-- At most one of the three transactions is pending. -/
def AtMostOnePending (c : PersistentChild) : Prop :=
  (c.removalPending = true → c.reassignmentAddress = none ∧ c.departurePending = false) ∧
    (c.departurePending = true → c.reassignmentAddress = none)

theorem Valid.atMostOnePending {c : PersistentChild} (h : c.Valid) : c.AtMostOnePending := by
  have hreassign : ∀ a, c.reassignmentAddress = some a → c.removalPending = false ∧ c.departurePending = false :=
    fun a ha => ⟨(h.reassignment a ha).1, (h.reassignment a ha).2.1⟩
  refine ⟨fun hremoval => ⟨?_, ?_⟩, fun hdeparture => ?_⟩
  · cases ha : c.reassignmentAddress with
    | none => rfl
    | some a =>
      rw [(hreassign a ha).1] at hremoval
      cases hremoval
  · cases hd : c.departurePending with
    | false => rfl
    | true =>
      rw [h.departure hd] at hremoval
      cases hremoval
  · cases ha : c.reassignmentAddress with
    | none => rfl
    | some a =>
      rw [(hreassign a ha).2] at hdeparture
      cases hdeparture

/-- Two children that one table cannot hold. -/
def clashes (c other : PersistentChild) : Bool :=
  c.shortAddress == other.shortAddress || c.ieeeAddress == other.ieeeAddress ||
    c.reassignmentAddress.any (· == other.shortAddress) || other.reassignmentAddress.any (· == c.shortAddress) ||
    (c.reassignmentAddress.isSome && c.reassignmentAddress == other.reassignmentAddress)

/-- What holds of two children that do not clash. -/
theorem clashes_false_iff {c other : PersistentChild} :
    c.clashes other = false ↔ c.shortAddress ≠ other.shortAddress ∧ c.ieeeAddress ≠ other.ieeeAddress ∧
      c.reassignmentAddress ≠ some other.shortAddress ∧ other.reassignmentAddress ≠ some c.shortAddress ∧
      (∀ a, c.reassignmentAddress = some a → some a ≠ other.reassignmentAddress) := by
  unfold clashes
  cases c.reassignmentAddress <;> cases other.reassignmentAddress <;> simp [and_assoc]

theorem clashes_comm (c other : PersistentChild) : c.clashes other = other.clashes c := by
  have hiff : c.clashes other = false ↔ other.clashes c = false := by
    rw [clashes_false_iff, clashes_false_iff]
    constructor
    · rintro ⟨h1, h2, h3, h4, h5⟩
      exact ⟨h1.symm, h2.symm, h4, h3, fun a ha h => h5 a h.symm ha.symm⟩
    · rintro ⟨h1, h2, h3, h4, h5⟩
      exact ⟨h1.symm, h2.symm, h4, h3, fun a ha h => h5 a h.symm ha.symm⟩
  cases h : c.clashes other <;> cases h' : other.clashes c <;> simp_all

end PersistentChild

/-! ## The table -/

/-- A `heapless::Vec` of children, the network they belong to and the parent's own Leave. -/
structure PersistentChildTable where
  extendedPanId : IeeeAddress
  leaveCascadePending : Bool
  leaveCascadeRejoin : Bool
  children : List PersistentChild
  bounded : children.length ≤ MAX_PERSISTED_CHILDREN

open PersistentChild

namespace PersistentChildTable

def new (extendedPanId : IeeeAddress) : PersistentChildTable where
  extendedPanId := extendedPanId
  leaveCascadePending := false
  leaveCascadeRejoin := false
  children := []
  bounded := Nat.zero_le _

/-- The checks of the children, each of them against those that follow. -/
def validateChildren : List PersistentChild → Except ChildStoreError Unit
  | [] => .ok ()
  | c :: rest =>
    match c.validate with
    | .error e => .error e
    | .ok () => if rest.any c.clashes then .error .corrupt else validateChildren rest

/-- An extended PAN ID that names a network. -/
def realNetwork (t : PersistentChildTable) : Bool :=
  !(t.extendedPanId == Vector.replicate 8 0 || t.extendedPanId == Vector.replicate 8 0xFF)

def validate (t : PersistentChildTable) : Except ChildStoreError Unit :=
  if (!t.children.isEmpty || t.leaveCascadePending) && !t.realNetwork then .error .corrupt
  else if t.leaveCascadeRejoin && !t.leaveCascadePending then .error .corrupt
  else validateChildren t.children

/-- What `validate` checks. -/
structure Valid (t : PersistentChildTable) : Prop where
  network : t.children ≠ [] ∨ t.leaveCascadePending = true → t.realNetwork = true
  rejoin : t.leaveCascadeRejoin = true → t.leaveCascadePending = true
  each : ∀ c ∈ t.children, c.Valid
  distinct : t.children.Pairwise fun c other => c.clashes other = false

theorem validateChildren_ok_iff {l : List PersistentChild} :
    validateChildren l = .ok () ↔ (∀ c ∈ l, c.Valid) ∧ l.Pairwise fun c other => c.clashes other = false := by
  induction l with
  | nil => simp [validateChildren]
  | cons c l ih =>
    unfold validateChildren
    cases hc : c.validate with
    | error e =>
      have hinvalid : ¬ c.Valid := by
        rw [← validate_ok_iff, hc]
        simp
      simp [hinvalid]
    | ok =>
      have hvalid : c.Valid := validate_ok_iff.mp hc
      simp only [check_eq_ok, ih, List.mem_cons, forall_eq_or_imp, List.pairwise_cons, hvalid, true_and]
      constructor
      · rintro ⟨hany, heach, hpair⟩
        exact ⟨heach, by simpa using hany, hpair⟩
      · rintro ⟨heach, hfirst, hpair⟩
        exact ⟨by simpa using hfirst, heach, hpair⟩

theorem validate_ok_iff {t : PersistentChildTable} : t.validate = .ok () ↔ t.Valid := by
  simp only [validate, check_eq_ok, validateChildren_ok_iff]
  constructor
  · rintro ⟨h1, h2, h3, h4⟩
    refine ⟨fun h => ?_, by simpa using h2, h3, h4⟩
    by_contra hreal
    apply h1
    simp only [Bool.not_eq_true] at hreal
    simpa [hreal] using h
  · rintro ⟨h1, h2, h3, h4⟩
    refine ⟨fun h => ?_, by simpa using h2, h3, h4⟩
    simp only [Bool.and_eq_true, Bool.or_eq_true, Bool.not_eq_true', List.isEmpty_eq_false_iff] at h
    rw [h1 h.1] at h
    cases h.2

/-! ## Operations -/

def child (t : PersistentChildTable) (ieeeAddress : IeeeAddress) : Option PersistentChild :=
  t.children.find? (·.ieeeAddress == ieeeAddress)

/-- The child with the address, changed. -/
def modifyChild (t : PersistentChildTable) (ieeeAddress : IeeeAddress) (f : PersistentChild → PersistentChild) :
    PersistentChildTable where
  extendedPanId := t.extendedPanId
  leaveCascadePending := t.leaveCascadePending
  leaveCascadeRejoin := t.leaveCascadeRejoin
  children := modifyFirst (·.ieeeAddress == ieeeAddress) f t.children
  bounded := by
    rw [Table.length_modifyFirst]
    exact t.bounded

/-- Every child changed. -/
def mapChildren (t : PersistentChildTable) (f : PersistentChild → PersistentChild) : PersistentChildTable where
  extendedPanId := t.extendedPanId
  leaveCascadePending := t.leaveCascadePending
  leaveCascadeRejoin := t.leaveCascadeRejoin
  children := t.children.map f
  bounded := by
    rw [List.length_map]
    exact t.bounded

/-- The child with the address taken out. -/
def removeChild (t : PersistentChildTable) (ieeeAddress : IeeeAddress) : PersistentChildTable where
  extendedPanId := t.extendedPanId
  leaveCascadePending := t.leaveCascadePending
  leaveCascadeRejoin := t.leaveCascadeRejoin
  children := t.children.eraseP (·.ieeeAddress == ieeeAddress)
  bounded := (List.length_eraseP_le).trans t.bounded

def push (t : PersistentChildTable) (c : PersistentChild) : Option PersistentChildTable :=
  if h : t.children.length < MAX_PERSISTED_CHILDREN then
    some { t with
      children := t.children ++ [c]
      bounded := by
        rw [List.length_append, List.length_singleton]
        exact h }
  else none

/-- The table and the result of an operation. -/
abbrev Answer (α : Type) := PersistentChildTable × Except ChildStoreError α

/-- `self.validate()?; Ok(true)`, after the table was changed. -/
def checked (t : PersistentChildTable) : Answer Bool := (t, t.validate.map fun _ => true)

/-- Remove-Device supersedes an address reassignment. -/
def stageRemoval (t : PersistentChildTable) (ieeeAddress : IeeeAddress) : Answer Bool :=
  match t.child ieeeAddress with
  | none => (t, .ok false)
  | some c =>
    if c.departurePending then (t, .ok false)
    else if c.removalPending then (t, .ok false)
    else
      (t.modifyChild ieeeAddress fun c =>
        { c with reassignmentAddress := none, removalPending := true, removalAttempts := 0 }).checked

def stageReassignment (t : PersistentChildTable) (ieeeAddress : IeeeAddress) (newShortAddress : UInt16) : Answer Bool :=
  match t.child ieeeAddress with
  | none => (t, .ok false)
  | some c =>
    if c.reassignmentAddress = some newShortAddress then (t, .ok false)
    else if c.reassignmentAddress.isSome || c.removalPending then (t, .error .corrupt)
    else (t.modifyChild ieeeAddress fun c => { c with reassignmentAddress := some newShortAddress }).checked

def completeReassignment (t : PersistentChildTable) (ieeeAddress : IeeeAddress) : Answer Bool :=
  match t.child ieeeAddress with
  | none => (t, .ok false)
  | some c =>
    match c.reassignmentAddress with
    | none => (t, .error .corrupt)
    | some newShortAddress =>
      (t.modifyChild ieeeAddress fun c =>
        { c with reassignmentAddress := none, shortAddress := newShortAddress }).checked

def stageDeparture (t : PersistentChildTable) (departed : PersistentChild) : Answer Bool :=
  match t.child departed.ieeeAddress with
  | some c =>
    if c.departurePending then (t, .ok false)
    else if c.removalPending || c.reassignmentAddress.isSome then (t, .error .corrupt)
    else (t.modifyChild departed.ieeeAddress fun c => { c with departurePending := true }).checked
  | none =>
    match t.push { departed with
        removalPending := false, removalAttempts := 0, reassignmentAddress := none, departurePending := true } with
    | none => (t, .error .full)
    | some t => t.checked

def completeDeparture (t : PersistentChildTable) (ieeeAddress : IeeeAddress) : Answer Bool :=
  match t.child ieeeAddress with
  | none => (t, .ok false)
  | some c => if !c.departurePending then (t, .error .corrupt) else (t.removeChild ieeeAddress, .ok true)

/-- Leaving the network removes every child. -/
def stageLeaveCascade (t : PersistentChildTable) (rejoin : Bool) : Answer Bool :=
  if t.leaveCascadePending then
    if t.leaveCascadeRejoin ≠ rejoin then (t, .error .corrupt) else (t, .ok false)
  else
    ({ t with leaveCascadePending := true, leaveCascadeRejoin := rejoin }.mapChildren fun c =>
      if c.departurePending then c
      else { c with removalPending := true, removalAttempts := 0, reassignmentAddress := none }).checked

def completeLeaveCascade (t : PersistentChildTable) : Answer Bool :=
  if !t.leaveCascadePending then (t, .ok false)
  else if !t.children.isEmpty then (t, .error .corrupt)
  else ({ t with leaveCascadePending := false, leaveCascadeRejoin := false }, .ok true)

/-- One more failed attempt, at most `MAX_CHILD_REMOVAL_ATTEMPTS`. -/
def moreAttempts (attempts : UInt8) : UInt8 :=
  if attempts < MAX_CHILD_REMOVAL_ATTEMPTS then attempts + 1 else MAX_CHILD_REMOVAL_ATTEMPTS

def recordRemovalFailure (t : PersistentChildTable) (ieeeAddress : IeeeAddress) : Answer UInt8 :=
  match t.child ieeeAddress with
  | none => (t, .error .corrupt)
  | some c =>
    if !c.removalPending then (t, .error .corrupt)
    else
      (t.modifyChild ieeeAddress fun c => { c with removalAttempts := moreAttempts c.removalAttempts },
        .ok (moreAttempts c.removalAttempts))

def completeRemoval (t : PersistentChildTable) (ieeeAddress : IeeeAddress) : Answer Bool :=
  match t.child ieeeAddress with
  | none => (t, .ok false)
  | some c => if !c.removalPending then (t, .error .corrupt) else (t.removeChild ieeeAddress, .ok true)

/-- A completed Leave becomes a departure that the Trust Center is still to be told. -/
def completeRemovalWithDeparture (t : PersistentChildTable) (ieeeAddress : IeeeAddress) : Answer Bool :=
  match t.child ieeeAddress with
  | none => (t, .ok false)
  | some c =>
    if !c.removalPending then (t, .error .corrupt)
    else
      (t.modifyChild ieeeAddress fun c =>
        { c with removalPending := false, removalAttempts := 0, reassignmentAddress := none, departurePending := true }).checked

/-! ## A change of one child -/

section Change

variable {t : PersistentChildTable} {ieeeAddress : IeeeAddress} {c : PersistentChild}

theorem child_mem (h : t.child ieeeAddress = some c) : c ∈ t.children ∧ c.ieeeAddress = ieeeAddress :=
  ⟨List.mem_of_find?_eq_some h, by simpa using List.find?_some h⟩

theorem Valid.mem_network (h : t.Valid) (hc : c ∈ t.children) : t.realNetwork = true :=
  h.network (Or.inl (List.ne_nil_of_mem hc))

/-- Where a child stands is decided by the child. -/
theorem Valid.slot_eq (h : t.Valid) {i j : Nat} (hi : t.children[i]? = some c) (hj : t.children[j]? = some c) : i = j := by
  obtain ⟨hil, rfl⟩ := List.getElem?_eq_some_iff.mp hi
  obtain ⟨hjl, heq⟩ := List.getElem?_eq_some_iff.mp hj
  have hpair := List.pairwise_iff_getElem.mp h.distinct
  have hself : (t.children[i]).clashes t.children[i] = true := by simp [clashes]
  rcases Nat.lt_trichotomy i j with hlt | heq' | hgt
  · have := hpair i j hil hjl hlt
    rw [heq, hself] at this
    cases this
  · exact heq'
  · have := hpair j i hjl hil hgt
    rw [heq, hself] at this
    cases this

/-- A changed child keeps the table valid exactly when it is valid itself and clashes with no other. -/
theorem Valid.modifyChild_iff (h : t.Valid) (hc : t.child ieeeAddress = some c) (f : PersistentChild → PersistentChild) :
    (t.modifyChild ieeeAddress f).Valid ↔ (f c).Valid ∧ ∀ other ∈ t.children, other ≠ c → (f c).clashes other = false := by
  rcases Table.modifyFirst_cases (·.ieeeAddress == ieeeAddress) f t.children with ⟨i, x, hi, hx, -, heq⟩ | ⟨hnone, -⟩
  · have hxc : some x = some c := hx.symm.trans hc
    cases hxc
    obtain ⟨hlt, -⟩ := List.getElem?_eq_some_iff.mp hi
    have hchildren : (t.modifyChild ieeeAddress f).children = t.children.set i (f c) := heq
    have hpair := Table.pairwise_set_iff (x := f c)
      (R := fun c other : PersistentChild => c.clashes other = false)
      (fun x y hxy => by rw [clashes_comm]; exact hxy) h.distinct hi
    constructor
    · intro h'
      have hnew := h'.each (f c) (by rw [hchildren]; exact List.mem_set hlt _)
      refine ⟨hnew, fun other hother hne => ?_⟩
      have hdistinct := h'.distinct
      rw [hchildren] at hdistinct
      obtain ⟨j, hj⟩ := List.mem_iff_getElem?.mp hother
      refine hpair.mp hdistinct j other (fun hji => hne ?_) hj
      rw [hji, hi] at hj
      exact (Option.some.inj hj).symm
    · rintro ⟨hnew, hclear⟩
      refine ⟨fun _ => h.mem_network (child_mem hc).1, h.rejoin, fun x hx => ?_, ?_⟩
      · rw [hchildren] at hx
        rcases List.mem_or_eq_of_mem_set hx with hmem | rfl
        · exact h.each x hmem
        · exact hnew
      · rw [hchildren]
        refine hpair.mpr fun j y hji hj => hclear y (List.mem_of_getElem? hj) fun hyc => ?_
        subst hyc
        exact hji (h.slot_eq hj hi)
  · have := hnone c (child_mem hc).1
    simp [(child_mem hc).2] at this

/-- The children that a child does not clash with, before it is changed. -/
theorem Valid.clear (h : t.Valid) (hc : c ∈ t.children) : ∀ other ∈ t.children, other ≠ c → c.clashes other = false := by
  intro other hother hne
  obtain ⟨i, hi⟩ := List.mem_iff_getElem?.mp hc
  obtain ⟨j, hj⟩ := List.mem_iff_getElem?.mp hother
  obtain ⟨hil, rfl⟩ := List.getElem?_eq_some_iff.mp hi
  obtain ⟨hjl, rfl⟩ := List.getElem?_eq_some_iff.mp hj
  have hpair := List.pairwise_iff_getElem.mp h.distinct
  rcases Nat.lt_trichotomy i j with hlt | rfl | hgt
  · exact hpair i j hil hjl hlt
  · exact absurd rfl hne
  · rw [clashes_comm]
    exact hpair j i hjl hil hgt

/-- A change that takes no address keeps the table valid if it keeps the child valid. -/
theorem Valid.modifyChild (h : t.Valid) (hc : t.child ieeeAddress = some c) {f : PersistentChild → PersistentChild}
    (hvalid : (f c).Valid) (hshort : (f c).shortAddress = c.shortAddress) (hieee : (f c).ieeeAddress = c.ieeeAddress)
    (hreassign : (f c).reassignmentAddress = none ∨ (f c).reassignmentAddress = c.reassignmentAddress) :
    (t.modifyChild ieeeAddress f).Valid := by
  refine (h.modifyChild_iff hc f).mpr ⟨hvalid, fun other hother hne => ?_⟩
  obtain ⟨h1, h2, h3, h4, h5⟩ := clashes_false_iff.mp (h.clear (child_mem hc).1 other hother hne)
  rw [clashes_false_iff, hshort, hieee]
  rcases hreassign with hnone | hsame
  · rw [hnone]
    exact ⟨h1, h2, by simp, h4, by simp⟩
  · rw [hsame]
    exact ⟨h1, h2, h3, h4, h5⟩

theorem Valid.removeChild (h : t.Valid) (hc : t.child ieeeAddress = some c) : (t.removeChild ieeeAddress).Valid where
  network := fun _ => h.mem_network (child_mem hc).1
  rejoin := h.rejoin
  each := fun x hx => h.each x (List.mem_of_mem_eraseP hx)
  distinct := h.distinct.sublist List.eraseP_sublist

end Change

/-! ## Runs of operations -/

inductive ChildOp where
  | stageRemoval (ieeeAddress : IeeeAddress)
  | stageReassignment (ieeeAddress : IeeeAddress) (newShortAddress : UInt16)
  | completeReassignment (ieeeAddress : IeeeAddress)
  | stageDeparture (departed : PersistentChild)
  | completeDeparture (ieeeAddress : IeeeAddress)
  | stageLeaveCascade (rejoin : Bool)
  | completeLeaveCascade
  | recordRemovalFailure (ieeeAddress : IeeeAddress)
  | completeRemoval (ieeeAddress : IeeeAddress)
  | completeRemovalWithDeparture (ieeeAddress : IeeeAddress)

/-- The result without its value. -/
def Answer.forget {α : Type} (a : Answer α) : Answer Unit := (a.1, a.2.map fun _ => ())

def apply (t : PersistentChildTable) : ChildOp → Answer Unit
  | .stageRemoval a => (t.stageRemoval a).forget
  | .stageReassignment a newShortAddress => (t.stageReassignment a newShortAddress).forget
  | .completeReassignment a => (t.completeReassignment a).forget
  | .stageDeparture departed => (t.stageDeparture departed).forget
  | .completeDeparture a => (t.completeDeparture a).forget
  | .stageLeaveCascade rejoin => (t.stageLeaveCascade rejoin).forget
  | .completeLeaveCascade => t.completeLeaveCascade.forget
  | .recordRemovalFailure a => (t.recordRemovalFailure a).forget
  | .completeRemoval a => (t.completeRemoval a).forget
  | .completeRemovalWithDeparture a => (t.completeRemovalWithDeparture a).forget

def step (t : PersistentChildTable) (op : ChildOp) : PersistentChildTable := (t.apply op).1

/-- The operation leaves a table that can be stored, at most one transaction pending for a child of it, and the
    table as it was if it fails. -/
def Storable {α : Type} (t : PersistentChildTable) (a : Answer α) : Prop :=
  a.1.validate = .ok () ∧ (∀ c ∈ a.1.children, c.AtMostOnePending) ∧ ∀ e, a.2 = .error e → a.1 = t

/-- A short address that the child may be moved to. -/
def Assignable (t : PersistentChildTable) (c : PersistentChild) (address : UInt16) : Prop :=
  c.departurePending = false ∧ allocated address = true ∧ address ≠ c.shortAddress ∧
    ∀ other ∈ t.children, other ≠ c → other.shortAddress ≠ address ∧ other.reassignmentAddress ≠ some address

/-- A device that the table can take in as one that has left. -/
def Admissible (t : PersistentChildTable) (departed : PersistentChild) : Prop :=
  t.realNetwork = true ∧ ¬ CHILD_TIMEOUT_ENUM_MAX < departed.endDeviceTimeout ∧
    allocated departed.shortAddress = true ∧ departed.ieeeAddress ≠ Vector.replicate 8 0 ∧
    ∀ other ∈ t.children, other.shortAddress ≠ departed.shortAddress ∧
      other.reassignmentAddress ≠ some departed.shortAddress

/-- What the operations that change the table before they check it leave to their callers. -/
def Careful (t : PersistentChildTable) : ChildOp → Prop
  | .stageReassignment a newShortAddress =>
    ∀ c, t.child a = some c → c.reassignmentAddress = none → c.removalPending = false → t.Assignable c newShortAddress
  | .stageDeparture departed =>
    t.child departed.ieeeAddress = none → t.children.length < MAX_PERSISTED_CHILDREN → t.Admissible departed
  | .stageLeaveCascade _ => t.leaveCascadePending = false → t.realNetwork = true
  | _ => True

section Steps

variable {t : PersistentChildTable} {α : Type}

theorem storable_forget {a : Answer α} : Storable t a.forget ↔ Storable t a := by
  unfold Storable Answer.forget
  cases a.2 <;> simp [Except.map]

theorem storable_same (h : t.Valid) (r : Except ChildStoreError α) : Storable t (t, r) :=
  ⟨validate_ok_iff.mpr h, fun c hc => (h.each c hc).atMostOnePending, fun _ _ => rfl⟩

theorem storable_ok {t' : PersistentChildTable} (h : t'.Valid) (a : α) : Storable t (t', .ok a) :=
  ⟨validate_ok_iff.mpr h, fun c hc => (h.each c hc).atMostOnePending, fun _ he => by cases he⟩

/-- The final check fails where the changed table is invalid, and the change stays. -/
theorem storable_checked {t' : PersistentChildTable} : Storable t t'.checked ↔ t'.Valid := by
  constructor
  · rintro ⟨h, -⟩
    exact validate_ok_iff.mp h
  · intro h
    unfold checked
    rw [validate_ok_iff.mpr h]
    exact storable_ok h true

theorem fresh_attempts : ¬ MAX_CHILD_REMOVAL_ATTEMPTS < 0 := by decide

theorem stageRemoval_storable (h : t.Valid) (a : IeeeAddress) : Storable t (t.stageRemoval a) := by
  unfold stageRemoval
  split
  · exact storable_same h _
  · rename_i c hc
    split
    · exact storable_same h _
    · rename_i hdeparture
      split
      · exact storable_same h _
      · refine storable_checked.mpr (h.modifyChild hc ?_ rfl rfl (Or.inl rfl))
        obtain ⟨h1, h2, h3, -⟩ := h.each c (child_mem hc).1
        exact ⟨h1, h2, h3, fresh_attempts, fun _ => rfl, by simp, fun hd => absurd hd hdeparture⟩

theorem stageReassignment_storable_iff (h : t.Valid) (a : IeeeAddress) (newShortAddress : UInt16) :
    Storable t (t.stageReassignment a newShortAddress) ↔ t.Careful (.stageReassignment a newShortAddress) := by
  simp only [Careful]
  unfold stageReassignment
  split
  · rename_i hnone
    rw [hnone]
    simp only [reduceCtorEq, false_imp_iff, implies_true, iff_true]
    exact storable_same h _
  · rename_i c hc
    rw [hc]
    split
    · rename_i hsame
      refine iff_of_true (storable_same h _) fun x hx hnone _ => ?_
      cases hx
      rw [hsame] at hnone
      cases hnone
    · split
      · rename_i hother
        refine iff_of_true (storable_same h _) fun x hx hnone hremoval => ?_
        cases hx
        simp [hnone, hremoval] at hother
      · rename_i hfree
        obtain ⟨hnone, hremoval⟩ : c.reassignmentAddress = none ∧ c.removalPending = false := by simpa using hfree
        rw [storable_checked, h.modifyChild_iff hc]
        obtain ⟨h1, h2, h3, h4, h5, -, h7⟩ := h.each c (child_mem hc).1
        constructor
        · rintro ⟨hvalid, hclear⟩ x hx - -
          cases hx
          obtain ⟨-, hdeparture, hne, halloc⟩ := hvalid.reassignment newShortAddress rfl
          refine ⟨hdeparture, halloc, hne, fun other hother hoc => ?_⟩
          obtain ⟨-, -, h13, -, h15⟩ := clashes_false_iff.mp (hclear other hother hoc)
          exact ⟨fun hs => h13 (by rw [hs]), fun hr => h15 newShortAddress rfl hr.symm⟩
        · intro hcareful
          obtain ⟨hdeparture, halloc, hne, hothers⟩ := hcareful c rfl hnone hremoval
          refine ⟨⟨h1, h2, h3, h4, h5, fun x hx => ?_, h7⟩, fun other hother hoc => ?_⟩
          · cases hx
            exact ⟨hremoval, hdeparture, hne, halloc⟩
          · obtain ⟨h11, h12, -, h14, -⟩ := clashes_false_iff.mp (h.clear (child_mem hc).1 other hother hoc)
            obtain ⟨hs, hr⟩ := hothers other hother hoc
            refine clashes_false_iff.mpr ⟨h11, h12, fun h => hs (Option.some.inj h).symm, h14, ?_⟩
            intro x hx hxo
            cases hx
            exact hr hxo.symm

theorem completeReassignment_storable (h : t.Valid) (a : IeeeAddress) : Storable t (t.completeReassignment a) := by
  unfold completeReassignment
  split
  · exact storable_same h _
  · rename_i c hc
    split
    · exact storable_same h _
    · rename_i newShortAddress hnew
      obtain ⟨h1, h2, h3, h4, h5, h6, h7⟩ := h.each c (child_mem hc).1
      obtain ⟨-, -, -, halloc⟩ := h6 newShortAddress hnew
      refine storable_checked.mpr ((h.modifyChild_iff hc _).mpr ⟨⟨h1, halloc, h3, h4, h5, by simp, h7⟩, ?_⟩)
      intro other hother hoc
      obtain ⟨-, h12, h13, -, h15⟩ := clashes_false_iff.mp (h.clear (child_mem hc).1 other hother hoc)
      refine clashes_false_iff.mpr ⟨fun hs => h13 (hnew.trans (congrArg some hs)), h12, by simp, ?_, by simp⟩
      exact fun hr => h15 newShortAddress hnew hr.symm

theorem stageDeparture_storable_iff (h : t.Valid) (departed : PersistentChild) :
    Storable t (t.stageDeparture departed) ↔ t.Careful (.stageDeparture departed) := by
  simp only [Careful]
  unfold stageDeparture
  split
  · rename_i c hc
    refine iff_of_true ?_ fun hnone => by
      rw [hc] at hnone
      cases hnone
    split
    · exact storable_same h _
    · split
      · exact storable_same h _
      · rename_i hfree
        obtain ⟨hremoval, hnone⟩ : c.removalPending = false ∧ c.reassignmentAddress = none := by simpa using hfree
        refine storable_checked.mpr (h.modifyChild hc ?_ rfl rfl (Or.inr rfl))
        obtain ⟨h1, h2, h3, h4, h5, -, -⟩ := h.each c (child_mem hc).1
        refine ⟨h1, h2, h3, h4, h5, fun x hx => ?_, fun _ => hremoval⟩
        rw [show c.reassignmentAddress = some x from hx] at hnone
        cases hnone
  · rename_i hnone
    unfold push
    split
    · rename_i _ hpush
      split at hpush
      · cases hpush
      · rename_i hfull
        exact iff_of_true (storable_same h _) fun _ hlt => absurd hlt hfull
    · rename_i t' hpush
      split at hpush
      · rename_i hlt
        cases hpush
        rw [storable_checked]
        have hnew : ∀ other ∈ t.children, other.ieeeAddress ≠ departed.ieeeAddress := by
          intro other hother
          simpa using List.find?_eq_none.mp hnone other hother
        constructor
        · rintro hvalid - -
          have hlast := hvalid.each _ (List.mem_append_right _ List.mem_cons_self)
          refine ⟨hvalid.network (Or.inl (by simp)), hlast.timeout, hlast.short, hlast.ieee, fun other hother => ?_⟩
          have hclear := (List.pairwise_append.mp hvalid.distinct).2.2 other hother _ List.mem_cons_self
          obtain ⟨h1, -, h3, -, -⟩ := clashes_false_iff.mp hclear
          exact ⟨h1, h3⟩
        · intro hcareful
          obtain ⟨hreal, htimeout, hshort, hieee, hothers⟩ := hcareful hnone hlt
          refine ⟨fun _ => hreal, h.rejoin, fun x hx => ?_, ?_⟩
          · rcases List.mem_append.mp hx with hmem | hmem
            · exact h.each x hmem
            · rw [List.mem_singleton.mp hmem]
              exact ⟨htimeout, hshort, hieee, fresh_attempts, fun _ => rfl, by simp, fun _ => rfl⟩
          · refine List.pairwise_append.mpr ⟨h.distinct, List.pairwise_singleton _ _, fun x hx y hy => ?_⟩
            rw [List.mem_singleton.mp hy]
            obtain ⟨hs, hr⟩ := hothers x hx
            exact clashes_false_iff.mpr ⟨hs, hnew x hx, hr, by simp, by simp⟩
      · cases hpush

theorem completeDeparture_storable (h : t.Valid) (a : IeeeAddress) : Storable t (t.completeDeparture a) := by
  unfold completeDeparture
  split
  · exact storable_same h _
  · rename_i c hc
    split
    · exact storable_same h _
    · exact storable_ok (h.removeChild hc) true

theorem completeRemoval_storable (h : t.Valid) (a : IeeeAddress) : Storable t (t.completeRemoval a) := by
  unfold completeRemoval
  split
  · exact storable_same h _
  · rename_i c hc
    split
    · exact storable_same h _
    · exact storable_ok (h.removeChild hc) true

theorem stageLeaveCascade_storable_iff (h : t.Valid) (rejoin : Bool) :
    Storable t (t.stageLeaveCascade rejoin) ↔ t.Careful (.stageLeaveCascade rejoin) := by
  simp only [Careful]
  unfold stageLeaveCascade
  split
  · rename_i hpending
    refine iff_of_true ?_ fun hnot => by
      rw [hpending] at hnot
      cases hnot
    split
    · exact storable_same h _
    · exact storable_same h _
  · rename_i hpending
    rw [storable_checked]
    constructor
    · exact fun hvalid _ => hvalid.network (Or.inr rfl)
    · intro hcareful
      have hreal := hcareful (by simpa using hpending)
      refine ⟨fun _ => hreal, fun _ => rfl, fun x hx => ?_, ?_⟩
      · obtain ⟨c, hc, rfl⟩ := List.mem_map.mp hx
        have hvalid := h.each c hc
        split
        · exact hvalid
        · rename_i hdeparture
          obtain ⟨h1, h2, h3, -⟩ := hvalid
          exact ⟨h1, h2, h3, fresh_attempts, fun _ => rfl, by simp, fun hd => absurd hd hdeparture⟩
      · refine List.pairwise_map.mpr (h.distinct.imp fun {c other} hclear => ?_)
        obtain ⟨h1, h2, h3, h4, h5⟩ := clashes_false_iff.mp hclear
        rw [clashes_false_iff]
        split <;> split <;> simp_all

theorem completeLeaveCascade_storable (h : t.Valid) : Storable t t.completeLeaveCascade := by
  unfold completeLeaveCascade
  split
  · exact storable_same h _
  · split
    · exact storable_same h _
    · rename_i hempty
      have hnil : t.children = [] := by simpa using hempty
      have hvalid : Valid { t with leaveCascadePending := false, leaveCascadeRejoin := false } := by
        refine ⟨fun hne => ?_, fun hrejoin => ?_, h.each, h.distinct⟩
        · rcases hne with hne | hpending
          · exact absurd hnil hne
          · cases hpending
        · cases hrejoin
      exact storable_ok hvalid true

theorem moreAttempts_le (attempts : UInt8) : ¬ MAX_CHILD_REMOVAL_ATTEMPTS < moreAttempts attempts := by
  unfold moreAttempts MAX_CHILD_REMOVAL_ATTEMPTS
  split
  · rename_i hlt
    intro h
    have h1 : attempts.toNat < 3 := hlt
    have h2 : 3 < (attempts + 1).toNat := h
    rw [UInt8.toNat_add] at h2
    have h3 : (1 : UInt8).toNat = 1 := rfl
    omega
  · decide

theorem recordRemovalFailure_storable (h : t.Valid) (a : IeeeAddress) : Storable t (t.recordRemovalFailure a) := by
  unfold recordRemovalFailure
  split
  · exact storable_same h _
  · rename_i c hc
    split
    · exact storable_same h _
    · rename_i hpending
      have hpending : c.removalPending = true := by simpa using hpending
      obtain ⟨h1, h2, h3, -, -, h6, h7⟩ := h.each c (child_mem hc).1
      refine storable_ok (h.modifyChild hc ⟨h1, h2, h3, moreAttempts_le _, fun hno => ?_, h6, h7⟩ rfl rfl (Or.inr rfl)) _
      rw [hpending] at hno
      cases hno

theorem completeRemovalWithDeparture_storable (h : t.Valid) (a : IeeeAddress) :
    Storable t (t.completeRemovalWithDeparture a) := by
  unfold completeRemovalWithDeparture
  split
  · exact storable_same h _
  · rename_i c hc
    split
    · exact storable_same h _
    · refine storable_checked.mpr (h.modifyChild hc ?_ rfl rfl (Or.inl rfl))
      obtain ⟨h1, h2, h3, -⟩ := h.each c (child_mem hc).1
      exact ⟨h1, h2, h3, fresh_attempts, fun _ => rfl, by simp, fun _ => rfl⟩

/-- **An operation is safe exactly when its condition holds.** -/
theorem storable_iff (h : t.Valid) (op : ChildOp) : Storable t (t.apply op) ↔ t.Careful op := by
  cases op with
  | stageRemoval a => exact iff_of_true (storable_forget.mpr (stageRemoval_storable h a)) trivial
  | stageReassignment a newShortAddress => exact storable_forget.trans (stageReassignment_storable_iff h a newShortAddress)
  | completeReassignment a => exact iff_of_true (storable_forget.mpr (completeReassignment_storable h a)) trivial
  | stageDeparture departed => exact storable_forget.trans (stageDeparture_storable_iff h departed)
  | completeDeparture a => exact iff_of_true (storable_forget.mpr (completeDeparture_storable h a)) trivial
  | stageLeaveCascade rejoin => exact storable_forget.trans (stageLeaveCascade_storable_iff h rejoin)
  | completeLeaveCascade => exact iff_of_true (storable_forget.mpr (completeLeaveCascade_storable h)) trivial
  | recordRemovalFailure a => exact iff_of_true (storable_forget.mpr (recordRemovalFailure_storable h a)) trivial
  | completeRemoval a => exact iff_of_true (storable_forget.mpr (completeRemoval_storable h a)) trivial
  | completeRemovalWithDeparture a =>
    exact iff_of_true (storable_forget.mpr (completeRemovalWithDeparture_storable h a)) trivial

end Steps

/-- **The child table stays storable** in a run exactly when every operation of it meets its condition. -/
theorem child_table_stays_storable (t : PersistentChildTable) (h : t.validate = .ok ()) (ops : List ChildOp) :
    Run.Along step (fun t op => Storable t (t.apply op)) t ops ↔ Run.Along step Careful t ops :=
  Run.along_iff_of_invariant (I := Valid) (fun _ op h => storable_iff h op) (fun _ _ h => validate_ok_iff.mp h.1)
    (validate_ok_iff.mp h)

/-- A sleepy end device that has just been taken in. -/
def sleepyChild (ieeeAddress : IeeeAddress) (shortAddress : UInt16) : PersistentChild where
  ieeeAddress := ieeeAddress
  shortAddress := shortAddress
  rxOnWhenIdle := false
  securityCapable := false
  isRouter := false
  endDeviceTimeout := 8
  removalPending := false
  removalAttempts := 0
  reassignmentAddress := none
  departurePending := false

/-- A child that leaves while the parent is about to leave as well. -/
theorem departure_during_cascade_stays_storable :
    Run.Along step (fun t op => Storable t (t.apply op)) (new (Vector.replicate 8 0x11))
      [.stageDeparture (sleepyChild (Vector.replicate 8 0x22) 0x1234), .stageLeaveCascade true,
        .completeDeparture (Vector.replicate 8 0x22), .completeLeaveCascade] := by
  refine (child_table_stays_storable (new (Vector.replicate 8 0x11)) (by decide) _).mpr ⟨?_, ?_, trivial, trivial, trivial⟩
  · intro _ _
    refine ⟨by decide, by decide, by decide, by decide, fun other hother => ?_⟩
    cases hother
  · intro _
    decide

/-- The reassignment of a child that has left is refused only after the table has taken it. -/
theorem reassignment_of_departed_child_is_stored :
    ¬ ∀ t : PersistentChildTable, t.validate = .ok () →
      ∀ ops, Run.Along step (fun t op => Storable t (t.apply op)) t ops := by
  intro h
  let t : PersistentChildTable :=
    ((new (Vector.replicate 8 0x11)).stageDeparture (sleepyChild (Vector.replicate 8 0x22) 0x1234)).1
  have hstorable := (h t (by decide) [.stageReassignment (Vector.replicate 8 0x22) 0x5678]).1
  exact absurd hstorable.1 (by decide)

end PersistentChildTable

end Zigbee.Runtime
