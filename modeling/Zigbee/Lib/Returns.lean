import Mathlib.Logic.Basic

/-!
# What a fallible computation can return

`Returns x P`: if `x` returns, the result meets `P`.  The lemmas take a `do` block apart, one for each
of its constructs.
-/

variable {ε α β : Type} {P Q : α → Prop}

def Returns (x : Except ε α) (P : α → Prop) : Prop := ∀ a, x = .ok a → P a

theorem returns_ok {a : α} (h : P a) : Returns (ε := ε) (.ok a) P := by
  intro b hb
  cases hb
  exact h

theorem returns_pure {a : α} (h : P a) : Returns (ε := ε) (pure a) P := returns_ok h

theorem returns_error (e : ε) : Returns (.error e) P := by
  intro a ha
  cases ha

theorem returns_throw (e : ε) : Returns (throw e : Except ε α) P := returns_error e

/-- The continuation may use what the first computation returns. -/
theorem returns_bind {x : Except ε β} {f : β → Except ε α} {R : β → Prop} (hx : Returns x R)
    (hf : ∀ b, R b → Returns (f b) P) : Returns (x >>= f) P := by
  intro a ha
  cases hb : x with
  | error e =>
    rw [hb] at ha
    cases ha
  | ok b =>
    rw [hb] at ha
    exact hf b (hx b hb) a ha

/-- A computation that only checks. -/
theorem returns_check {x : Except ε β} {f : β → Except ε α} (hf : ∀ b, Returns (f b) P) :
    Returns (x >>= f) P :=
  returns_bind (R := fun _ => True) (fun _ _ => trivial) fun b _ => hf b

theorem returns_ite {c : Prop} [Decidable c] {x y : Except ε α} (hx : c → Returns x P)
    (hy : ¬ c → Returns y P) : Returns (if c then x else y) P := by
  split
  · exact hx ‹_›
  · exact hy ‹_›

/-- `if c then throw e`, with what follows as a join point. -/
theorem returns_guard {c : Prop} [Decidable c] {e : ε} {rest : Unit → Except ε α}
    (h : ¬ c → Returns (rest ()) P) : Returns (if c then throw e >>= rest else rest ()) P :=
  returns_ite (fun _ => returns_error e) h

/-- One check of a chain. -/
theorem check_eq_ok {c : Prop} [Decidable c] {e : ε} {x : Except ε α} {a : α} :
    (if c then .error e else x) = .ok a ↔ ¬ c ∧ x = .ok a := by
  split <;> simp_all
