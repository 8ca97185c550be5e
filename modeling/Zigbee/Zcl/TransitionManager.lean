import Zigbee.Lib.Run
import Zigbee.Lib.Table
import Zigbee.Zcl.Transition

/-!
# The transitions of several attributes

Model of `TransitionManager` of `zigbee-zcl/src/transition.rs`: a list of at most `N` transitions, one
for each attribute.

* `Solo` — the transition of one attribute, without a manager.
* `step_alone` — what a step of the manager means for one attribute.
* `run_alone` — a run of the manager reports for an attribute what the operations on it would give by
  themselves.  A transition that starts when all `N` places are taken is dropped (`accepts`).
-/

namespace Zigbee.Zcl

/-- `tick` without the overflow that cannot happen. -/
def Transition.advance (t : Transition) (elapsedDs : UInt16) : Transition × Int32 :=
  (t.tick elapsedDs).get (by
    obtain ⟨r, hr, -⟩ := t.tick_spec elapsedDs
    rw [hr, Option.isSome_some])

/-- The running transitions, each with its attribute. -/
structure TransitionManager (N : Nat) where
  transitions : List (UInt16 × Transition)
  room : transitions.length ≤ N
  distinct : (transitions.map (·.1)).Nodup

namespace TransitionManager

open Table

variable {N : Nat} {m : TransitionManager N}

def new : TransitionManager N := ⟨[], Nat.zero_le _, List.nodup_nil⟩

def stop (m : TransitionManager N) (attrId : UInt16) : TransitionManager N :=
  match m.transitions.findIdx? (·.1 == attrId) with
  | none => m
  | some pos =>
    ⟨swapRemove m.transitions pos, (length_swapRemove_le _ _).trans m.room, nodup_swapRemove m.distinct⟩

/-- The transition of an attribute. -/
def running (m : TransitionManager N) (attrId : UInt16) : Option Transition :=
  (m.transitions.find? (·.1 == attrId)).map (·.2)

theorem find?_stop (m : TransitionManager N) (attrId id : UInt16) :
    (m.stop attrId).transitions.find? (·.1 == id) =
      if id = attrId then none else m.transitions.find? (·.1 == id) := by
  unfold stop
  cases hpos : m.transitions.findIdx? (·.1 == attrId) with
  | none =>
    change m.transitions.find? (·.1 == id) = _
    by_cases hid : id = attrId
    · rw [if_pos hid, hid, List.find?_eq_none]
      intro x hx
      rw [List.findIdx?_eq_none_iff.mp hpos x hx]
      exact Bool.false_ne_true
    · rw [if_neg hid]
  | some pos =>
    obtain ⟨e, hi, he⟩ := getElem?_of_findIdx? hpos
    obtain ⟨hlt, rfl⟩ := List.getElem?_eq_some_iff.mp hi
    exact find?_swapRemove_key m.distinct hlt (beq_iff_eq.mp he) id

theorem stop_gone (m : TransitionManager N) (attrId : UInt16) : ∀ x ∈ (m.stop attrId).transitions, x.1 ≠ attrId := by
  intro x hx heq
  have hnone := m.find?_stop attrId attrId
  rw [if_pos rfl] at hnone
  exact List.find?_eq_none.mp hnone x hx (beq_iff_eq.mpr heq)

/-- There is a place for a transition of the attribute. -/
def accepts (m : TransitionManager N) (attrId : UInt16) : Bool := (m.stop attrId).transitions.length < N

/-- Start a transition for the attribute.  It replaces any other; without a place it is dropped. -/
def start (m : TransitionManager N) (attrId : UInt16) (start target : Int32) (timeDs : UInt16) : TransitionManager N :=
  if h : (m.stop attrId).transitions.length < N then
    ⟨(m.stop attrId).transitions ++ [(attrId, Transition.new start target timeDs)], by
      rw [List.length_append, List.length_singleton]
      exact h, nodup_append_new (m.stop attrId).distinct (m.stop_gone attrId)⟩
  else m.stop attrId

def stopAll (_ : TransitionManager N) : TransitionManager N := new

/-- The transitions that are not complete. -/
def incomplete (l : List (UInt16 × Transition)) : List (UInt16 × Transition) := l.filter (!·.2.isComplete)

/-- Every transition advanced. -/
def advanced (m : TransitionManager N) (elapsedDs : UInt16) : List (UInt16 × Transition) :=
  m.transitions.map fun x => (x.1, (x.2.advance elapsedDs).1)

theorem advanced_ids (m : TransitionManager N) (elapsedDs : UInt16) :
    (m.advanced elapsedDs).map (·.1) = m.transitions.map (·.1) := by
  rw [advanced, List.map_map]
  rfl

/-- Tick all running transitions; the complete ones are removed.  The list of the values has room for all. -/
def tick (m : TransitionManager N) (elapsedDs : UInt16) : TransitionManager N × List (UInt16 × Int32) :=
  (⟨incomplete (m.advanced elapsedDs), by
      refine (List.length_filter_le _ _).trans ?_
      rw [advanced, List.length_map]
      exact m.room, by
      refine List.Nodup.sublist (List.filter_sublist.map _) ?_
      rw [advanced_ids]
      exact m.distinct⟩,
    m.transitions.map fun x => (x.1, (x.2.advance elapsedDs).2))

/-! ## Operations -/

inductive Op where
  | start (attrId : UInt16) (start target : Int32) (timeDs : UInt16)
  | stop (attrId : UInt16)
  | stopAll
  | tick (elapsedDs : UInt16)
  deriving DecidableEq

/-- One operation, and the values that it reports. -/
def step (m : TransitionManager N) : Op → TransitionManager N × List (UInt16 × Int32)
  | .start attrId start target timeDs => (m.start attrId start target timeDs, [])
  | .stop attrId => (m.stop attrId, [])
  | .stopAll => (m.stopAll, [])
  | .tick elapsedDs => m.tick elapsedDs

/-- The value of an attribute in a report. -/
def valueOf (id : UInt16) (report : List (UInt16 × Int32)) : Option Int32 := (report.find? (·.1 == id)).map (·.2)

end TransitionManager

/-! ## One attribute alone -/

namespace Solo

inductive Op where
  | start (start target : Int32) (timeDs : UInt16)
  | stop
  | tick (elapsedDs : UInt16)
  deriving DecidableEq

def step (t : Option Transition) : Op → Option Transition × Option Int32
  | .start start target timeDs => (some (Transition.new start target timeDs), none)
  | .stop => (none, none)
  | .tick elapsedDs =>
    (t.bind fun t => if (t.advance elapsedDs).1.isComplete then none else some (t.advance elapsedDs).1,
      t.map fun t => (t.advance elapsedDs).2)

end Solo

namespace TransitionManager

open Table

variable {N : Nat} {m : TransitionManager N}

/-- What an operation of the manager is for one attribute; a transition that is dropped is nothing to it. -/
def own (m : TransitionManager N) (id : UInt16) : Op → Option Solo.Op
  | .start attrId start target timeDs =>
    if attrId = id ∧ m.accepts id = true then some (.start start target timeDs) else none
  | .stop attrId => if attrId = id then some .stop else none
  | .stopAll => some .stop
  | .tick elapsedDs => some (.tick elapsedDs)

theorem running_stop (m : TransitionManager N) (attrId id : UInt16) :
    (m.stop attrId).running id = if id = attrId then none else m.running id := by
  rw [running, find?_stop]
  split
  · rfl
  · rfl

/-- A transition is dropped only when the attribute has none and all the places are taken. -/
theorem accepts_iff (m : TransitionManager N) (id : UInt16) :
    m.accepts id = true ↔ (m.running id).isSome ∨ m.transitions.length < N := by
  unfold accepts stop running
  rw [decide_eq_true_iff, Option.isSome_map, List.find?_isSome]
  cases hpos : m.transitions.findIdx? (·.1 == id) with
  | none =>
    refine ⟨Or.inr, fun h => h.resolve_left ?_⟩
    rintro ⟨x, hx, hxid⟩
    rw [List.findIdx?_eq_none_iff.mp hpos x hx] at hxid
    cases hxid
  | some pos =>
    obtain ⟨e, hi, he⟩ := getElem?_of_findIdx? hpos
    obtain ⟨hlt, -⟩ := List.getElem?_eq_some_iff.mp hi
    have hlen := length_swapRemove hlt
    have hroom := m.room
    refine iff_of_true ?_ (Or.inl ⟨e, List.mem_of_getElem? hi, he⟩)
    change (swapRemove m.transitions pos).length < N
    omega

theorem running_start (m : TransitionManager N) (attrId : UInt16) (start target : Int32) (timeDs : UInt16) (id : UInt16) :
    (m.start attrId start target timeDs).running id =
      if attrId = id ∧ m.accepts id = true then some (Transition.new start target timeDs) else m.running id := by
  unfold TransitionManager.start
  by_cases hid : attrId = id
  · subst hid
    have hgone : (m.stop attrId).running attrId = none := by rw [running_stop, if_pos rfl]
    by_cases hroom : (m.stop attrId).transitions.length < N
    · have haccepts : m.accepts attrId = true := decide_eq_true hroom
      rw [dif_pos hroom, if_pos ⟨rfl, haccepts⟩, running, List.find?_append, Option.map_eq_none_iff.mp hgone]
      simp
    · have hrefused : ¬ m.accepts attrId = true := by
        rw [accepts, decide_eq_true_iff]
        exact hroom
      have hnone : m.running attrId = none := by
        rw [accepts_iff, not_or] at hrefused
        exact Option.not_isSome_iff_eq_none.mp hrefused.1
      rw [dif_neg hroom, if_neg fun h => hrefused h.2, hgone, hnone]
  · have hother : (m.stop attrId).running id = m.running id := by rw [running_stop, if_neg (Ne.symm hid)]
    rw [if_neg fun h => hid h.1, ← hother]
    split
    · rw [running, List.find?_append, running]
      simp [hid]
    · rfl

theorem running_tick (m : TransitionManager N) (elapsedDs : UInt16) (id : UInt16) :
    (m.tick elapsedDs).1.running id = (Solo.step (m.running id) (.tick elapsedDs)).1 := by
  have hdistinct : ((m.advanced elapsedDs).map (·.1)).Nodup := by
    rw [advanced_ids]
    exact m.distinct
  change ((incomplete (m.advanced elapsedDs)).find? (·.1 == id)).map (·.2) = _
  rw [incomplete, find?_filter_key hdistinct, advanced, List.find?_map, running]
  change ((Option.map _ (m.transitions.find? (·.1 == id))).filter _).map _ = _
  cases m.transitions.find? (·.1 == id) with
  | none => rfl
  | some x =>
    simp only [Option.map_some, Option.filter_some, Solo.step, Option.bind_some]
    cases (x.2.advance elapsedDs).1.isComplete <;> rfl

theorem valueOf_tick (m : TransitionManager N) (elapsedDs : UInt16) (id : UInt16) :
    valueOf id (m.tick elapsedDs).2 = (Solo.step (m.running id) (.tick elapsedDs)).2 := by
  rw [valueOf, TransitionManager.tick, List.find?_map, running]
  change (Option.map _ (m.transitions.find? (·.1 == id))).map _ = _
  cases m.transitions.find? (·.1 == id) <;> rfl

/-- **An operation means for an attribute what its own part of it means.** -/
theorem step_alone (m : TransitionManager N) (op : Op) (id : UInt16) :
    ((m.step op).1.running id, valueOf id (m.step op).2) =
      match m.own id op with
      | none => (m.running id, none)
      | some own => Solo.step (m.running id) own := by
  cases op with
  | start attrId start target timeDs =>
    rw [own]
    change ((m.start attrId start target timeDs).running id, none) = _
    rw [running_start]
    split <;> rfl
  | stop attrId =>
    rw [own]
    change ((m.stop attrId).running id, none) = _
    rw [running_stop]
    by_cases h : attrId = id
    · rw [if_pos h.symm, if_pos h]
      rfl
    · rw [if_neg (Ne.symm h), if_neg h]
  | stopAll => rfl
  | tick elapsedDs =>
    change ((m.tick elapsedDs).1.running id, valueOf id (m.tick elapsedDs).2) = _
    rw [running_tick, valueOf_tick]
    rfl

/-! ## Runs -/

/-- The parts of a run that concern one attribute. -/
def ownRun (id : UInt16) : TransitionManager N → List Op → List Solo.Op
  | _, [] => []
  | m, op :: ops => (m.own id op).toList ++ ownRun id (m.step op).1 ops

/-- The values of one attribute that a run reports. -/
def reported (m : TransitionManager N) (id : UInt16) (ops : List Op) : List Int32 :=
  (Run.outputs step m ops).filterMap (valueOf id)

theorem run_alone (m : TransitionManager N) (ops : List Op) (id : UInt16) :
    (Run.run (fun m op => (step m op).1) m ops).running id =
      Run.run (fun t op => (Solo.step t op).1) (m.running id) (ownRun id m ops) ∧
    m.reported id ops = (Run.outputs Solo.step (m.running id) (ownRun id m ops)).filterMap fun v => v := by
  induction ops generalizing m with
  | nil => exact ⟨rfl, rfl⟩
  | cons op ops ih =>
    obtain ⟨hstate, hvalues⟩ := ih (m.step op).1
    have hstep := m.step_alone op id
    have hcons : m.reported id (op :: ops) = (valueOf id (m.step op).2).toList ++ (m.step op).1.reported id ops := by
      rw [reported, Run.outputs, List.filterMap_cons]
      cases valueOf id (m.step op).2 <;> rfl
    rw [hcons, hvalues, ownRun, Run.run_cons, hstate]
    cases hown : m.own id op with
    | none =>
      rw [hown] at hstep
      have hrunning : (m.step op).1.running id = m.running id := congrArg Prod.fst hstep
      have hvalue : valueOf id (m.step op).2 = none := congrArg Prod.snd hstep
      rw [hrunning, hvalue]
      exact ⟨rfl, rfl⟩
    | some own =>
      rw [hown] at hstep
      have hrunning : (m.step op).1.running id = (Solo.step (m.running id) own).1 := congrArg Prod.fst hstep
      have hvalue : valueOf id (m.step op).2 = (Solo.step (m.running id) own).2 := congrArg Prod.snd hstep
      rw [hrunning, hvalue, Option.toList_some, List.singleton_append, Run.outputs, List.filterMap_cons]
      refine ⟨rfl, ?_⟩
      cases (Solo.step (m.running id) own).2 <;> rfl

end TransitionManager

/-- **Transitions are path-independent**: the value after some ticks is a point of the way that their
    length together determines, and no tick overflows.  In a manager an attribute goes the way it would
    go alone; a transition is dropped only where the attribute has none and all places are taken. -/
theorem transition_path :
    (∀ (start target : Int32) (timeDs : UInt16), ∃ value : Nat → Int32,
      Transition.Path start target timeDs.toNat value ∧
      ∀ (es : List UInt16) (last : UInt16),
        (Transition.new start target timeDs).valueAfter es last =
          some (value (min (Transition.totalOf es + last.toNat) timeDs.toNat))) ∧
    (∀ (N : Nat) (m : TransitionManager N) (ops : List TransitionManager.Op) (id : UInt16),
      (Run.run (fun m op => (TransitionManager.step m op).1) m ops).running id =
        Run.run (fun t op => (Solo.step t op).1) (m.running id) (TransitionManager.ownRun id m ops) ∧
      m.reported id ops =
        (Run.outputs Solo.step (m.running id) (TransitionManager.ownRun id m ops)).filterMap fun v => v) ∧
    (∀ (N : Nat) (m : TransitionManager N) (id : UInt16),
      m.accepts id = true ↔ (m.running id).isSome ∨ m.transitions.length < N) :=
  ⟨fun start target timeDs => ⟨_, Transition.valueAt_path start target timeDs, Transition.valueAfter_new start target timeDs⟩,
    fun _ m ops id => m.run_alone ops id, fun _ m id => m.accepts_iff id⟩

/-- A transition to the value it starts from is there at once, and a manager without a place left drops
    the transition of another attribute. -/
theorem arrives_early_or_dropped :
    (Transition.new 5 5 10).valueAfter [] 1 = some 5 ∧ Transition.totalOf [] + (1 : UInt16).toNat < (10 : UInt16).toNat ∧
    (TransitionManager.new : TransitionManager 1).reported 2 [.start 2 0 100 10, .tick 5] = [50] ∧
    (TransitionManager.new : TransitionManager 1).reported 2 [.start 1 0 100 10, .start 2 0 100 10, .tick 5] = [] := by
  decide +kernel

end Zigbee.Zcl
