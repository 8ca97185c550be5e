import Mathlib.Logic.Basic

/-!
# Programs that trap

A program makes requests that are logged, and ends with a result, with an error of its own, or in a trap:
an overflow of its word size, an index out of bounds, a loop that does not end.

* `Outcome` — how a computation ends, as a monad of its own, with `Safe` for those that do not trap.
* `Prog`, `request`, `add`, `sub`, `whileLoop` — the programs.
* `Prog.wp` — all requests of a run meet `R`, and its outcome meets `Q`.
* `wp_bind`, `wp_request`, `wp_add`, `wp_sub`, `wp_whileLoop` — the rules, the last one with an invariant
  and a measure, so that a loop that meets it ends.
-/

namespace Checked

inductive Outcome (ε α : Type) where
  | ok (a : α)
  | error (e : ε)
  | trap
  deriving DecidableEq

namespace Outcome

variable {ε α β : Type}

protected def bind (x : Outcome ε α) (f : α → Outcome ε β) : Outcome ε β :=
  match x with
  | .ok a => f a
  | .error e => .error e
  | .trap => .trap

instance : Monad (Outcome ε) where
  pure := .ok
  bind := Outcome.bind

@[simp] theorem pure_eq (a : α) : (pure a : Outcome ε α) = .ok a := rfl

@[simp] theorem ok_bind (a : α) (f : α → Outcome ε β) : (Outcome.ok a >>= f) = f a := rfl

/-- The computation does not trap. -/
def Safe (x : Outcome ε α) : Prop := x ≠ .trap

theorem safe_ok (a : α) : Safe (.ok a : Outcome ε α) := nofun

theorem safe_error (e : ε) : Safe (.error e : Outcome ε α) := nofun

theorem Safe.bind {x : Outcome ε α} {f : α → Outcome ε β} (hx : x.Safe) (hf : ∀ a, x = .ok a → (f a).Safe) :
    (x >>= f).Safe := by
  cases hxa : x with
  | ok a => exact hf a hxa
  | error e => exact nofun
  | trap => exact absurd hxa hx

theorem safe_ite {c : Prop} [Decidable c] {x y : Outcome ε α} (hx : c → x.Safe) (hy : ¬ c → y.Safe) :
    (if c then x else y).Safe := by
  split
  · exact hx ‹_›
  · exact hy ‹_›

theorem safe_guard {c : Prop} [Decidable c] {x : Outcome ε α} {e : ε} (h : ¬ c → x.Safe) : (if c then .error e else x).Safe :=
  safe_ite (fun _ => safe_error e) h

theorem bind_eq_ok {x : Outcome ε α} {f : α → Outcome ε β} {b : β} (h : (x >>= f) = .ok b) :
    ∃ a, x = .ok a ∧ f a = .ok b := by
  cases x with
  | ok a => exact ⟨a, rfl, h⟩
  | error e => cases h
  | trap => cases h

/-- A condition that guards a result. -/
theorem of_guard {c : Prop} [Decidable c] {x : Outcome ε α} {e : ε} {a : α} (h : (if c then .error e else x) = .ok a) :
    ¬ c ∧ x = .ok a := by
  split at h
  · cases h
  · exact ⟨‹_›, h⟩

end Outcome

/-- A program over a log of requests of type `ρ`. -/
def Prog (ρ ε α : Type) := List ρ → Outcome ε α × List ρ

variable {ρ ε α β σ : Type}

variable {Q : Outcome ε α → Prop}

namespace Prog

protected def pure (a : α) : Prog ρ ε α := fun log => (.ok a, log)

protected def bind (m : Prog ρ ε α) (k : α → Prog ρ ε β) : Prog ρ ε β := fun log =>
  match m log with
  | (.ok a, log) => k a log
  | (.error e, log) => (.error e, log)
  | (.trap, log) => (.trap, log)

instance : Monad (Prog ρ ε) where
  pure := Prog.pure
  bind := Prog.bind

def fail (e : ε) : Prog ρ ε α := fun log => (.error e, log)

def trap : Prog ρ ε α := fun log => (.trap, log)

/-- A request, and the answer to it; `answer` may look at the requests before it. -/
def request (r : ρ) (answer : List ρ → Except ε α) : Prog ρ ε α := fun log =>
  match answer log with
  | .ok a => (.ok a, log ++ [r])
  | .error e => (.error e, log ++ [r])

/-- An addition of words below `size`. -/
def add (size a b : Nat) : Prog ρ ε Nat := if a + b < size then pure (a + b) else trap

/-- A subtraction of words. -/
def sub (a b : Nat) : Prog ρ ε Nat := if b ≤ a then pure (a - b) else trap

/-- `while cond { body }`, with a bound on its passes. -/
def whileLoop (cond : σ → Bool) (body : σ → Prog ρ ε σ) : Nat → σ → Prog ρ ε σ
  | 0, _ => trap
  | fuel + 1, s => if cond s then body s >>= whileLoop cond body fuel else pure s

/-! ## Rules -/

/-- From a log of requests that meet `R`, the run makes only such requests, and ends as `Q` says. -/
def wp (m : Prog ρ ε α) (R : ρ → Prop) (Q : Outcome ε α → Prop) : Prop :=
  ∀ log, (∀ r ∈ log, R r) → (∀ r ∈ (m log).2, R r) ∧ Q (m log).1

variable {R : ρ → Prop}

theorem wp_pure {a : α} (h : Q (.ok a)) : wp (pure a : Prog ρ ε α) R Q :=
  fun _ hlog => ⟨hlog, h⟩

theorem wp_fail {e : ε} (h : Q (.error e)) : wp (fail e : Prog ρ ε α) R Q :=
  fun _ hlog => ⟨hlog, h⟩

/-- How the outcome of a first part decides what remains to be shown. -/
def andThen (R : ρ → Prop) (Q : Outcome ε β → Prop) (k : α → Prog ρ ε β) : Outcome ε α → Prop
  | .ok a => wp (k a) R Q
  | .error e => Q (.error e)
  | .trap => Q .trap

theorem andThen_ok {Q : Outcome ε β → Prop} {k : α → Prog ρ ε β} {a : α} : andThen R Q k (.ok a) ↔ wp (k a) R Q := Iff.rfl

theorem wp_bind {m : Prog ρ ε α} {k : α → Prog ρ ε β} {Q : Outcome ε β → Prop} (h : wp m R (andThen R Q k)) :
    wp (m >>= k) R Q := by
  intro log hlog
  obtain ⟨hrequests, hout⟩ := h log hlog
  have hrun : (m >>= k) log = Prog.bind m k log := rfl
  rw [hrun, Prog.bind]
  cases hm : m log with
  | mk out log' =>
    rw [hm] at hrequests hout
    cases out with
    | ok a => exact hout log' hrequests
    | error e => exact ⟨hrequests, hout⟩
    | trap => exact ⟨hrequests, hout⟩

theorem wp_mono {m : Prog ρ ε α} {Q' : Outcome ε α → Prop} (h : wp m R Q) (hQ : ∀ out, Q out → Q' out) : wp m R Q' :=
  fun log hlog => ⟨(h log hlog).1, hQ _ (h log hlog).2⟩

theorem wp_request {r : ρ} {answer : List ρ → Except ε α} (hr : R r) (hok : ∀ log a, answer log = .ok a → Q (.ok a))
    (herror : ∀ log e, answer log = .error e → Q (.error e)) : wp (request r answer) R Q := by
  intro log hlog
  have hlog' : ∀ r' ∈ log ++ [r], R r' := by
    intro r' hr'
    rcases List.mem_append.mp hr' with hr' | hr'
    · exact hlog r' hr'
    · rw [List.mem_singleton.mp hr']
      exact hr
  rw [request]
  cases ha : answer log with
  | ok a => exact ⟨hlog', hok log a ha⟩
  | error e => exact ⟨hlog', herror log e ha⟩

theorem wp_add {k : Nat → Prog ρ ε β} {Q : Outcome ε β → Prop} {size a b : Nat} (h : a + b < size)
    (hk : wp (k (a + b)) R Q) : wp (add size a b >>= k) R Q := by
  refine wp_bind ?_
  rw [add, if_pos h]
  exact wp_pure hk

theorem wp_sub {k : Nat → Prog ρ ε β} {Q : Outcome ε β → Prop} {a b : Nat} (h : b ≤ a) (hk : wp (k (a - b)) R Q) :
    wp (sub a b >>= k) R Q := by
  refine wp_bind ?_
  rw [sub, if_pos h]
  exact wp_pure hk

/-- A loop whose body keeps `I` and lowers `measure` ends, and it ends with `I`. -/
theorem wp_whileLoop {cond : σ → Bool} {body : σ → Prog ρ ε σ} {Q : Outcome ε σ → Prop} (I : σ → Prop) (measure : σ → Nat)
    (hbody : ∀ s, I s → cond s = true → wp (body s) R fun
      | .ok s' => I s' ∧ measure s' < measure s
      | .error e => Q (.error e)
      | .trap => Q .trap)
    (hexit : ∀ s, I s → cond s = false → Q (.ok s)) {fuel : Nat} {s : σ} (hs : I s) (hfuel : measure s < fuel) :
    wp (whileLoop cond body fuel s) R Q := by
  induction fuel generalizing s with
  | zero => exact absurd hfuel (Nat.not_lt_zero _)
  | succ fuel ih =>
    rw [whileLoop]
    cases hcond : cond s with
    | false => exact wp_pure (hexit s hs hcond)
    | true =>
      refine wp_bind (wp_mono (hbody s hs hcond) fun out hout => ?_)
      cases out with
      | ok s' => exact ih hout.1 (by omega)
      | error e => exact hout
      | trap => exact hout

end Prog

end Checked
