import Mathlib.Data.List.Induction
import Mathlib.Data.List.Nodup
import Mathlib.Logic.Function.Basic
import Zigbee.Lib.Run

/-!
# Logs of a key-value map

A log of entries, the latest of which counts for each key; an entry without a value deletes its key.

* `replay` — the map of a log.
* `survivors`, `replay_survivors` — the log that a compaction writes has the same map.
* `Ending`, `Allowed`, `Refines` — an implementation whose operations can be cut follows an abstract state:
  an operation that completes has its effect, one that fails has none, one that is cut has either.
* `refines_of_simulation` — it does if a relation between the two is kept by every step.
-/

namespace KeyValueLog

open Run

section

variable {κ ν : Type} [DecidableEq κ]

abbrev Map (κ ν : Type) := κ → Option ν

/-- The map a log stands for. -/
def replay (log : List (κ × Option ν)) : Map κ ν :=
  log.foldl (fun m e => Function.update m e.1 e.2) fun _ => none

theorem replay_snoc (log : List (κ × Option ν)) (k : κ) (v : Option ν) :
    replay (log ++ [(k, v)]) = Function.update (replay log) k v := by
  unfold replay
  rw [List.foldl_append]
  rfl

/-- A key without an entry has no value. -/
theorem replay_absent {log : List (κ × Option ν)} {k : κ} (h : k ∉ log.map (·.1)) : replay log k = none := by
  induction log using List.reverseRecOn with
  | nil => rfl
  | append_singleton log e ih =>
    obtain ⟨k', v⟩ := e
    rw [List.map_append, List.mem_append, not_or] at h
    rw [replay_snoc, Function.update_of_ne (by simpa using h.2)]
    exact ih h.1

/-- What a compaction of the map `m` writes, for the keys it has seen. -/
def survivors (keys : List κ) (m : Map κ ν) : List (κ × Option ν) :=
  keys.filterMap fun k => (m k).map fun v => (k, some v)

omit [DecidableEq κ] in
theorem survivors_snoc (keys : List κ) (k : κ) (m : Map κ ν) :
    survivors (keys ++ [k]) m = survivors keys m ++ ((m k).map fun v => (k, some v)).toList := by
  unfold survivors
  rw [List.filterMap_append]
  cases hm : m k with
  | none => simp [hm]
  | some v => simp [hm]

theorem replay_survivors_apply (keys : List κ) (m : Map κ ν) (k : κ) :
    replay (survivors keys m) k = if k ∈ keys then m k else none := by
  induction keys using List.reverseRecOn with
  | nil => rfl
  | append_singleton keys k' ih =>
    rw [survivors_snoc]
    by_cases hk : k = k'
    · subst hk
      rw [if_pos (by simp)]
      cases hm : m k with
      | none =>
        rw [Option.map_none, Option.toList_none, List.append_nil, ih, hm]
        split <;> rfl
      | some v =>
        rw [Option.map_some, Option.toList_some, replay_snoc, Function.update_self]
    · have hmem : k ∈ keys ++ [k'] ↔ k ∈ keys := by simp [hk]
      simp only [hmem]
      cases hm : m k' with
      | none =>
        rw [Option.map_none, Option.toList_none, List.append_nil]
        exact ih
      | some v =>
        rw [Option.map_some, Option.toList_some, replay_snoc, Function.update_of_ne hk]
        exact ih

/-- **Compaction keeps the map** if it has seen every key with a value. -/
theorem replay_survivors {keys : List κ} {m : Map κ ν} (h : ∀ k, m k ≠ none → k ∈ keys) :
    replay (survivors keys m) = m := by
  funext k
  rw [replay_survivors_apply]
  split
  · rfl
  · rename_i hk
    exact (not_not.mp fun hne => hk (h k hne)).symm

/-- Keys in the order in which they are first seen. -/
def see (seen : List κ) (k : κ) : List κ := if k ∈ seen then seen else seen ++ [k]

theorem mem_see {seen : List κ} {k k' : κ} : k' ∈ see seen k ↔ k' ∈ seen ∨ k' = k := by
  unfold see
  split
  · rename_i h
    exact ⟨Or.inl, fun h' => h'.elim id fun heq => heq ▸ h⟩
  · simp

theorem see_nodup {seen : List κ} (h : seen.Nodup) (k : κ) : (see seen k).Nodup := by
  unfold see
  split
  · exact h
  · rename_i hk
    exact h.append (List.nodup_singleton k) (by simpa using hk)

end

/-! ## Operations that may be cut -/

/-- How an operation ended; `off` if there was nothing to run it. -/
inductive Ending where
  | done
  | failed
  | cut
  | off
  deriving DecidableEq, Repr

variable {σ ε α : Type}

/-- What an operation may leave of the abstract state. -/
def Allowed (effect : α → α) (a a' : α) : Ending → Prop
  | .done => a' = effect a
  | .failed | .off => a' = a
  | .cut => a' = a ∨ a' = effect a

/-- From `s` on, a sequence of abstract states starting at `a` explains everything `Shows` says. -/
def Refines (step : σ → ε → σ) (ending : σ → ε → Ending) (effect : ε → α → α) (Shows : σ → α → Prop) :
    σ → α → List ε → Prop
  | s, a, [] => Shows s a
  | s, a, e :: es =>
    Shows s a ∧ ∃ a', Allowed (effect e) a a' (ending s e) ∧ Refines step ending effect Shows (step s e) a' es

/-- **The simulation rule.** -/
theorem refines_of_simulation {step : σ → ε → σ} {ending : σ → ε → Ending} {effect : ε → α → α} {Shows : σ → α → Prop}
    {P : σ → ε → Prop} (R : σ → α → Prop) (hshows : ∀ s a, R s a → Shows s a)
    (hstep : ∀ s a e, R s a → P s e → ∃ a', Allowed (effect e) a a' (ending s e) ∧ R (step s e) a')
    {s : σ} {a : α} {es : List ε} (h : R s a) (hes : Along step P s es) : Refines step ending effect Shows s a es := by
  induction es generalizing s a with
  | nil => exact hshows s a h
  | cons e es ih =>
    obtain ⟨he, hes⟩ := hes
    obtain ⟨a', hallowed, h'⟩ := hstep s a e h he
    exact ⟨hshows s a h, a', hallowed, ih h' hes⟩

end KeyValueLog
