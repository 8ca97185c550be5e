import Zigbee.Lib.Checked

/-!
# Programs over a state

A program reads and changes a state, and ends with a result, with an error of its own, or in a trap. An
error keeps the state that it was met in.

* `Machine`, `get`, `modify`, `fail`, `add`, `sub`, `whileLoop` — the programs.
* `bind_ok`, `bind_error`, `add_ok`, `sub_ok` — how they run, as rewrite rules.
* `Ends` — a run ends as `Q` says; `ends_bind` composes two parts.
* `ends_whileLoop` — a loop with an invariant and a measure, both over the loop variable and the state.
-/

namespace Checked

/-- A program over a state of type `σ`. -/
def Machine (σ ε α : Type) := σ → Outcome ε α × σ

variable {σ τ ε α β : Type}

variable {m : Machine σ ε α} {k : α → Machine σ ε β}

namespace Machine

protected def pure (a : α) : Machine σ ε α := fun s => (.ok a, s)

protected def bind (m : Machine σ ε α) (k : α → Machine σ ε β) : Machine σ ε β := fun s =>
  match m s with
  | (.ok a, s) => k a s
  | (.error e, s) => (.error e, s)
  | (.trap, s) => (.trap, s)

instance : Monad (Machine σ ε) where
  pure := Machine.pure
  bind := Machine.bind

def fail (e : ε) : Machine σ ε α := fun s => (.error e, s)

def trap : Machine σ ε α := fun s => (.trap, s)

def get : Machine σ ε σ := fun s => (.ok s, s)

def modify (f : σ → σ) : Machine σ ε Unit := fun s => (.ok (), f s)

/-- An addition of words below `size`. -/
def add (size a b : Nat) : Machine σ ε Nat := if a + b < size then pure (a + b) else trap

/-- A subtraction of words. -/
def sub (a b : Nat) : Machine σ ε Nat := if b ≤ a then pure (a - b) else trap

/-- `while cond { body }`, with a bound on its passes. -/
def whileLoop (cond : τ → Bool) (body : τ → Machine σ ε τ) : Nat → τ → Machine σ ε τ
  | 0, _ => trap
  | fuel + 1, t => if cond t then body t >>= whileLoop cond body fuel else pure t

/-! ## How programs run -/

variable {s s' : σ}

@[simp] theorem pure_run (a : α) : (pure a : Machine σ ε α) s = (.ok a, s) := rfl

@[simp] theorem get_bind (k : σ → Machine σ ε β) : (get >>= k) s = k s s := rfl

@[simp] theorem modify_bind (f : σ → σ) (k : Unit → Machine σ ε β) : (modify f >>= k) s = k () (f s) := rfl

theorem bind_ok {a : α} (h : m s = (.ok a, s')) : (m >>= k) s = k a s' := by
  show Machine.bind m k s = k a s'
  rw [Machine.bind, h]

theorem bind_error {e : ε} (h : m s = (.error e, s')) : (m >>= k) s = (.error e, s') := by
  show Machine.bind m k s = (.error e, s')
  rw [Machine.bind, h]

theorem add_ok {size a b : Nat} {k : Nat → Machine σ ε β} (h : a + b < size) : (add size a b >>= k) s = k (a + b) s :=
  bind_ok (by rw [add, if_pos h]; rfl)

theorem sub_ok {a b : Nat} {k : Nat → Machine σ ε β} (h : b ≤ a) : (sub a b >>= k) s = k (a - b) s :=
  bind_ok (by rw [sub, if_pos h]; rfl)

/-! ## How runs end -/

/-- From the state `s`, the run ends as `Q` says. -/
def Ends (m : Machine σ ε α) (s : σ) (Q : Outcome ε α → σ → Prop) : Prop := Q (m s).1 (m s).2

/-- How the end of a first part decides what remains to be shown. -/
def Then (k : α → Machine σ ε β) (Q : Outcome ε β → σ → Prop) : Outcome ε α → σ → Prop
  | .ok a, s => Ends (k a) s Q
  | .error e, s => Q (.error e) s
  | .trap, s => Q .trap s

theorem then_ok {Q : Outcome ε β → σ → Prop} {a : α} : Then k Q (.ok a) s ↔ Ends (k a) s Q := Iff.rfl

theorem ends_of_eq {Q : Outcome ε α → σ → Prop} {out : Outcome ε α} (h : m s = (out, s')) (hQ : Q out s') : Ends m s Q := by
  rw [Ends, h]
  exact hQ

theorem ends_bind {Q : Outcome ε β → σ → Prop} (h : Ends m s (Then k Q)) : Ends (m >>= k) s Q := by
  have hrun : (m >>= k) s = Machine.bind m k s := rfl
  rw [Ends, hrun, Machine.bind]
  rw [Ends] at h
  cases hm : m s with
  | mk out s₁ =>
    rw [hm] at h
    cases out with
    | ok a => exact h
    | error e => exact h
    | trap => exact h

theorem ends_mono {Q Q' : Outcome ε α → σ → Prop} (h : Ends m s Q) (hQ : ∀ out s', Q out s' → Q' out s') : Ends m s Q' :=
  hQ _ _ h

/-- A loop whose body keeps `I` and lowers `measure` ends, and it ends with `I`. -/
theorem ends_whileLoop {cond : τ → Bool} {body : τ → Machine σ ε τ} {Q : Outcome ε τ → σ → Prop} (I : τ → σ → Prop)
    (measure : τ → σ → Nat)
    (hbody : ∀ t s, I t s → cond t = true → Ends (body t) s fun
      | .ok t', s' => I t' s' ∧ measure t' s' < measure t s
      | .error e, s' => Q (.error e) s'
      | .trap, s' => Q .trap s')
    (hexit : ∀ t s, I t s → cond t = false → Q (.ok t) s) {fuel : Nat} {t : τ} {s : σ} (hI : I t s)
    (hfuel : measure t s < fuel) : Ends (whileLoop cond body fuel t) s Q := by
  induction fuel generalizing t s with
  | zero => exact absurd hfuel (Nat.not_lt_zero _)
  | succ fuel ih =>
    rw [whileLoop]
    cases hcond : cond t with
    | false => exact hexit t s hI hcond
    | true =>
      refine ends_bind (ends_mono (hbody t s hI hcond) fun out s' hout => ?_)
      cases out with
      | ok t' => exact ih hout.1 (by omega)
      | error e => exact hout
      | trap => exact hout

end Machine

end Checked
