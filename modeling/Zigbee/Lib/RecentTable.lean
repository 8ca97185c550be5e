import Mathlib.Data.List.Forall2
import Mathlib.Data.List.Perm.Subperm
import Mathlib.Data.List.ReduceOption
import Zigbee.Lib.Table

/-!
# Tables of recent recordings

A table has room for a few recordings, which time out.  A new one takes a slot whose recording has timed
out, or else the slot that was taken first.

* `Tracks` — the slots hold recordings of a log, at most one slot each, and among them every one of the
  last recordings that has not timed out.
* `Tracks.advance`, `Tracks.forget`, `Tracks.record` — time passes, a slot is given up, a slot is taken.
* `Tracks.recent` — a recording is in the table until it times out, unless as many as there are slots came
  after it.
-/

namespace RecentTable

structure Recording (κ : Type) where
  key : κ
  time : Nat

variable {κ : Type} {timeout now : Nat} {log : List (Recording κ)} {held : List (Option Nat)}

/-- The slot's recording, by its place in the log. -/
def recording (log : List (Recording κ)) (o : Option Nat) : Option (Recording κ) := o.bind (log[·]?)

/-- The slot's recording has not timed out. -/
def live (timeout now : Nat) (log : List (Recording κ)) (o : Option Nat) : Bool :=
  (recording log o).any fun r => decide (now < r.time + timeout)

theorem live_iff {o : Option Nat} :
    live timeout now log o = true ↔ ∃ p r, o = some p ∧ log[p]? = some r ∧ now < r.time + timeout := by
  cases o with
  | none => simp [live, recording]
  | some p => simp [live, recording, Option.any_eq_true]

theorem live_append {o : Option Nat} {added : Recording κ} (ho : ∀ p, o = some p → p < log.length) :
    live timeout now (log ++ [added]) o = live timeout now log o := by
  cases o with
  | none => rfl
  | some p =>
    unfold live recording
    rw [Option.bind_some, Option.bind_some, List.getElem?_append_left (ho p rfl)]

/-- Time passes: what has timed out stays so. -/
theorem live_advance {now' : Nat} (hle : now ≤ now') {o : Option Nat} (h : live timeout now log o = false) :
    live timeout now' log o = false := by
  rw [Bool.eq_false_iff] at h ⊢
  intro hlive
  obtain ⟨p, r, ho, hp, hr⟩ := live_iff.mp hlive
  exact h (live_iff.mpr ⟨p, r, ho, hp, by omega⟩)

structure Tracks (timeout now : Nat) (log : List (Recording κ)) (held : List (Option Nat)) : Prop where
  past : ∀ r ∈ log, r.time ≤ now
  logged : ∀ p, some p ∈ held → p < log.length
  distinct : held.reduceOption.Nodup
  /-- Fewer recordings came after it than there are slots. -/
  kept : ∀ p r, log[p]? = some r → log.length ≤ p + held.length → now < r.time + timeout → some p ∈ held

namespace Tracks

theorem empty (timeout now slots : Nat) : Tracks timeout now ([] : List (Recording κ)) (List.replicate slots none) where
  past := nofun
  logged p hp := by cases List.eq_of_mem_replicate hp
  distinct := by
    rw [List.reduceOption_replicate_none]
    exact List.nodup_nil
  kept p r hp := by cases hp

theorem advance (h : Tracks timeout now log held) {now' : Nat} (hle : now ≤ now') : Tracks timeout now' log held where
  past r hr := Nat.le_trans (h.past r hr) hle
  logged := h.logged
  distinct := h.distinct
  kept p r hp hrecent hr := h.kept p r hp hrecent (by omega)

/-- Slots may be given up whose recording has timed out. -/
theorem forget (h : Tracks timeout now log held) {held' : List (Option Nat)}
    (hf : List.Forall₂ (fun o o' => o' = o ∨ (o' = none ∧ live timeout now log o = false)) held held') :
    Tracks timeout now log held' := by
  have hsub : held'.reduceOption.Sublist held.reduceOption := by
    clear h
    induction hf with
    | nil => exact List.Sublist.refl _
    | @cons o o' l l' ho _ ih =>
      rcases ho with rfl | ⟨rfl, -⟩
      · cases o' with
        | none => simpa only [List.reduceOption_cons_of_none] using ih
        | some p => simpa only [List.reduceOption_cons_of_some] using ih.cons_cons p
      · cases o with
        | none => simpa only [List.reduceOption_cons_of_none] using ih
        | some p => simpa only [List.reduceOption_cons_of_none, List.reduceOption_cons_of_some] using ih.cons p
  have hmem : ∀ p, some p ∈ held' → some p ∈ held := fun p hp =>
    List.reduceOption_mem_iff.mp (hsub.subset (List.reduceOption_mem_iff.mpr hp))
  refine ⟨h.past, fun p hp => h.logged p (hmem p hp), h.distinct.sublist hsub, fun p r hp hrecent hr => ?_⟩
  rw [← hf.length_eq] at hrecent
  obtain ⟨i, hi⟩ := List.mem_iff_getElem?.mp (h.kept p r hp hrecent hr)
  have hi' : i < held'.length := hf.length_eq ▸ (List.getElem?_eq_some_iff.mp hi).1
  have hsame := List.forall₂_iff_get.mp hf |>.2 i (List.getElem?_eq_some_iff.mp hi).1 hi'
  simp only [List.get_eq_getElem, (List.getElem?_eq_some_iff.mp hi).2] at hsame
  rcases hsame with hsame | ⟨-, hdead⟩
  · exact hsame ▸ List.getElem_mem hi'
  · rw [live_iff.mpr ⟨p, r, rfl, hp, hr⟩] at hdead
    cases hdead

/-- A slot is taken whose recording has timed out, or the one that was taken first. -/
theorem record (h : Tracks timeout now log held) {i : Nat} {o : Option Nat} (hi : held[i]? = some o)
    (hreuse : live timeout now log o = false ∨ ∃ p, o = some p ∧ ∀ o' ∈ held.eraseIdx i, ∃ q, o' = some q ∧ p < q)
    (key : κ) : Tracks timeout now (log ++ [⟨key, now⟩]) (held.set i (some log.length)) := by
  have hlt := (List.getElem?_eq_some_iff.mp hi).1
  have hdistinct : (held.eraseIdx i).reduceOption.Nodup :=
    h.distinct.sublist ((List.eraseIdx_sublist held i).filterMap id)
  have hset : (held.set i (some log.length)).Perm (some log.length :: held.eraseIdx i) := by
    have := (List.getElem_cons_eraseIdx_perm (l := held.set i (some log.length)) (by rwa [List.length_set])).symm
    rwa [List.getElem_set_self, List.eraseIdx_set_eq] at this
  refine ⟨fun r hr => ?_, fun p hp => ?_, ?_, fun p r hp hrecent hr => ?_⟩
  · rcases List.mem_append.mp hr with hr | hr
    · exact h.past r hr
    · exact Nat.le_of_eq (congrArg Recording.time (List.mem_singleton.mp hr))
  · rw [List.length_append, List.length_singleton]
    rcases List.mem_or_eq_of_mem_set hp with hp | hp
    · exact Nat.lt_succ_of_lt (h.logged p hp)
    · cases hp
      exact Nat.lt_succ_self _
  · have hslots : (held.set i (some log.length)).reduceOption.Perm (log.length :: (held.eraseIdx i).reduceOption) :=
      hset.filterMap id
    rw [hslots.nodup_iff]
    refine List.nodup_cons.mpr ⟨fun hmem => ?_, hdistinct⟩
    exact Nat.lt_irrefl _ (h.logged log.length (List.mem_of_mem_eraseIdx (List.reduceOption_mem_iff.mp hmem)))
  · rw [List.length_append, List.length_singleton, List.length_set] at hrecent
    by_cases hnew : p = log.length
    · rw [hnew]
      exact List.mem_set hlt _
    · have hp' : log[p]? = some r := by
        have hple : p < (log ++ [(⟨key, now⟩ : Recording κ)]).length := (List.getElem?_eq_some_iff.mp hp).1
        rw [List.length_append, List.length_singleton] at hple
        rwa [List.getElem?_append_left (by omega)] at hp
      have hmem := h.kept p r hp' (by omega) hr
      rcases Table.mem_set_of_mem (i := i) (some log.length) hmem with hsame | hmem
      · exfalso
        obtain rfl : o = some p := Option.some.inj (hi.symm.trans hsame)
        rcases hreuse with hdead | ⟨q, hq, hother⟩
        · rw [live_iff.mpr ⟨p, r, rfl, hp', hr⟩] at hdead
          cases hdead
        · -- the other slots hold later recordings
          cases hq
          have hlength : (held.eraseIdx i).reduceOption.length = (held.eraseIdx i).length := by
            refine List.reduceOption_length_eq_iff.mpr fun o' ho' => ?_
            obtain ⟨q, rfl, -⟩ := hother o' ho'
            rfl
          have hrange : (held.eraseIdx i).reduceOption ⊆ List.range' (p + 1) (log.length - (p + 1)) := by
            intro q hq
            have hmem := List.reduceOption_mem_iff.mp hq
            obtain ⟨q', hq', hlater⟩ := hother _ hmem
            cases hq'
            have hlogged := h.logged q (List.mem_of_mem_eraseIdx hmem)
            exact List.mem_range'_1.mpr ⟨hlater, by omega⟩
          have hcount := (List.subperm_of_subset hdistinct hrange).length_le
          rw [List.length_range', hlength, List.length_eraseIdx_of_lt hlt] at hcount
          have := h.logged p (List.mem_of_getElem? hi)
          omega
      · exact hmem

end Tracks

end RecentTable
