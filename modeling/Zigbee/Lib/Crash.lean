import Mathlib.Data.List.Infix

/-!
# Programs over a device that can fail or lose power

A program runs over a durable part (`disk`), a volatile part (`ram`) and a script of faults.
Every state-changing command of the device consumes one entry of the script: it completes, it
is refused without changing anything, or power is lost just before or just after its effect.  A
power cut ends the run; only the disk survives it.

* `Prog` — the monad of such programs, with `command`, `fail` and `attempt`.
* `Prog.wp` — the weakest precondition of a run for a postcondition with three exits: a normal
  result, an error, and the disk a power cut leaves behind.
* `wp_bind`, `wp_attempt`, `wp_command`, `wp_access`, `wp_mono` — the rules proofs are assembled from.
* `Passes`, `Strikes` — which command of a script meets the first fault.
* `commands`, `commands_wp` — a sequence of commands, with an invariant for every place it can stop.

An exhausted script means that nothing fails any more, so that a statement about all scripts
covers every number and every position of failures, and the empty script is the undisturbed run.
-/

namespace Crash

/-- What the device answers to one command. -/
inductive Fault where
  | none
  | error
  | cut (applied : Bool)
  deriving DecidableEq, Repr

variable {left : List Fault}

/-- Faults left over from a script are faults of the script. -/
theorem ne_nil_of_suffix {faults : List Fault} (h : left <:+ faults) (hne : left ≠ []) : faults ≠ [] := by
  rintro rfl
  exact hne (List.suffix_nil.mp h)

/-- The first `k` commands of a script meet no fault, and `left` is what they leave of it. -/
structure Passes (k : Nat) (faults left : List Fault) : Prop where
  none : ∀ x ∈ faults.take k, x = .none
  left_eq : left = faults.drop k

theorem Passes.refl (faults : List Fault) : Passes 0 faults faults := ⟨by simp, rfl⟩

variable {k : Nat} {a b : List Fault}

theorem Passes.trans {l : Nat} {c : List Fault} (h : Passes k a b) (h' : Passes l b c) : Passes (k + l) a c := by
  obtain ⟨hn, rfl⟩ := h
  obtain ⟨hn', rfl⟩ := h'
  refine ⟨fun x hx => ?_, by rw [List.drop_drop]⟩
  rw [List.take_add, List.mem_append] at hx
  exact hx.elim (hn x) (hn' x)

theorem Passes.suffix (h : Passes k a b) : b <:+ a := by
  rw [h.left_eq]
  exact List.drop_suffix k a

/-- The first fault of a script is an error of command `k`. -/
def Strikes (k : Nat) (faults : List Fault) : Prop := Passes k faults (faults.drop k) ∧ faults[k]? = some .error

theorem Passes.strikes {l : Nat} (h : Passes k a b) (hs : Strikes l b) : Strikes (k + l) a := by
  obtain ⟨hp, he⟩ := hs
  have hpass := h.trans hp
  have hdrop := hpass.left_eq
  obtain ⟨-, rfl⟩ := h
  rw [List.getElem?_drop] at he
  exact ⟨hdrop ▸ hpass, he⟩

theorem Strikes.ne_nil {faults : List Fault} (h : Strikes k faults) : faults ≠ [] := by
  rintro rfl
  exact absurd h.2 (by simp)

/-- Durable state, volatile state and the faults still to come. -/
structure World (δ ρ : Type) where
  disk : δ
  ram : ρ
  faults : List Fault

/-- How a run ends. -/
inductive Outcome (δ ρ ε α : Type) where
  | ok (a : α) (w : World δ ρ)
  | err (e : ε) (w : World δ ρ)
  | cut (d : δ)

/-- What the disk holds afterwards. -/
def Outcome.disk {δ ρ ε α : Type} : Outcome δ ρ ε α → δ
  | .ok _ w => w.disk
  | .err _ w => w.disk
  | .cut d => d

def Prog (δ ρ ε α : Type) := World δ ρ → Outcome δ ρ ε α

/-- A postcondition with one predicate for each way a run can end. -/
structure Post (δ ρ ε α : Type) where
  ok : α → World δ ρ → Prop
  err : ε → World δ ρ → Prop
  cut : δ → Prop

variable {δ ρ ε α β : Type}

/-- Where something disturbs a run, `I` of the disk is enough for its end. -/
structure Suffices (I : δ → Prop) (faults : List Fault) (failed : ε → World δ ρ → Prop) (stopped : δ → Prop) : Prop where
  err : ∀ e w, faults ≠ [] → I w.disk → failed e w
  cut : ∀ d, faults ≠ [] → I d → stopped d

theorem Suffices.suffix {I : δ → Prop} {faults left : List Fault} {failed : ε → World δ ρ → Prop} {stopped : δ → Prop}
    (h : Suffices I faults failed stopped) (hleft : left <:+ faults) : Suffices I left failed stopped :=
  ⟨fun e w hne => h.err e w (ne_nil_of_suffix hleft hne), fun d hne => h.cut d (ne_nil_of_suffix hleft hne)⟩

variable {w : World δ ρ} {P : Post δ ρ ε Unit} {e : ε}

namespace Prog

protected def pure (a : α) : Prog δ ρ ε α := fun w => .ok a w

protected def bind (m : Prog δ ρ ε α) (k : α → Prog δ ρ ε β) : Prog δ ρ ε β := fun w =>
  match m w with
  | .ok a w' => k a w'
  | .err e w' => .err e w'
  | .cut d => .cut d

instance : Monad (Prog δ ρ ε) where
  pure := Prog.pure
  bind := Prog.bind

/-- Return the error `e`. -/
def fail (e : ε) : Prog δ ρ ε α := fun w => .err e w

/-- Run `m` and hand its result, normal or error, to the caller.  A power cut is not caught. -/
def attempt (m : Prog δ ρ ε α) : Prog δ ρ ε (Except ε α) := fun w =>
  match m w with
  | .ok a w' => .ok (.ok a) w'
  | .err e w' => .ok (.error e) w'
  | .cut d => .cut d

def getDisk : Prog δ ρ ε δ := fun w => .ok w.disk w

def getRam : Prog δ ρ ε ρ := fun w => .ok w.ram w

def modifyRam (f : ρ → ρ) : Prog δ ρ ε Unit := fun w => .ok () { w with ram := f w.ram }

/-- One state-changing device command; a refused one reports `e`. -/
def command (e : ε) (f : δ → δ) : Prog δ ρ ε Unit := fun w =>
  match w.faults with
  | [] => .ok () { w with disk := f w.disk }
  | .none :: fs => .ok () { w with disk := f w.disk, faults := fs }
  | .error :: fs => .err e { w with faults := fs }
  | .cut applied :: _ => .cut (if applied then f w.disk else w.disk)

/-- An access that changes nothing, such as a read. -/
def access (e : ε) : Prog δ ρ ε Unit := command e id

/-- `x?` of a fallible pure computation. -/
def ofExcept : Except ε α → Prog δ ρ ε α
  | .ok a => pure a
  | .error e => fail e

/-! ## Weakest preconditions -/

/-- The run of `m` from `w` ends as `P` says. -/
def wp (m : Prog δ ρ ε α) (w : World δ ρ) (P : Post δ ρ ε α) : Prop :=
  match m w with
  | .ok a w' => P.ok a w'
  | .err e w' => P.err e w'
  | .cut d => P.cut d

theorem wp_mono {m : Prog δ ρ ε α} {P Q : Post δ ρ ε α} (h : m.wp w P) (hok : ∀ a w', P.ok a w' → Q.ok a w')
    (herr : ∀ e w', P.err e w' → Q.err e w') (hcut : ∀ d, P.cut d → Q.cut d) : m.wp w Q := by
  unfold wp at *
  cases hm : m w with
  | ok a w' => rw [hm] at h; exact hok a w' h
  | err e w' => rw [hm] at h; exact herr e w' h
  | cut d => rw [hm] at h; exact hcut d h

/-- A property of the disk that every way to end has. -/
theorem disk_of_wp {m : Prog δ ρ ε α} {I : δ → Prop} (h : m.wp w ⟨fun _ w' => I w'.disk, fun _ w' => I w'.disk, I⟩) :
    I (m w).disk := by
  unfold wp at h
  cases hm : m w with
  | ok a w' => rw [hm] at h; exact h
  | err e w' => rw [hm] at h; exact h
  | cut d => rw [hm] at h; exact h

@[simp] theorem wp_pure (a : α) (w : World δ ρ) (P : Post δ ρ ε α) :
    wp (pure a) w P ↔ P.ok a w := Iff.rfl

@[simp] theorem wp_fail (e : ε) (w : World δ ρ) (P : Post δ ρ ε α) :
    wp (fail e) w P ↔ P.err e w := Iff.rfl

theorem getDisk_bind (k : δ → Prog δ ρ ε α) (w : World δ ρ) : (getDisk >>= k) w = k w.disk w := rfl

@[simp] theorem wp_getDisk (w : World δ ρ) (P : Post δ ρ ε δ) :
    wp getDisk w P ↔ P.ok w.disk w := Iff.rfl

@[simp] theorem wp_getRam (w : World δ ρ) (P : Post δ ρ ε ρ) :
    wp getRam w P ↔ P.ok w.ram w := Iff.rfl

@[simp] theorem wp_modifyRam (f : ρ → ρ) (w : World δ ρ) (P : Post δ ρ ε Unit) :
    wp (modifyRam f) w P ↔ P.ok () { w with ram := f w.ram } := Iff.rfl

@[simp] theorem wp_ofExcept (x : Except ε α) (w : World δ ρ) (P : Post δ ρ ε α) :
    wp (ofExcept x) w P ↔ match x with
      | .ok a => P.ok a w
      | .error e => P.err e w := by
  cases x <;> exact Iff.rfl

@[simp] theorem wp_bind (m : Prog δ ρ ε α) (k : α → Prog δ ρ ε β) (w : World δ ρ)
    (P : Post δ ρ ε β) :
    wp (m >>= k) w P ↔ m.wp w ⟨fun a w' => (k a).wp w' P, P.err, P.cut⟩ := by
  unfold wp
  change (match Prog.bind m k w with
    | .ok a w' => P.ok a w'
    | .err e w' => P.err e w'
    | .cut d => P.cut d) ↔ _
  unfold Prog.bind
  cases m w <;> exact Iff.rfl

@[simp] theorem wp_attempt (m : Prog δ ρ ε α) (w : World δ ρ) (P : Post δ ρ ε (Except ε α)) :
    wp (attempt m) w P ↔
      m.wp w ⟨fun a w' => P.ok (.ok a) w', fun e w' => P.ok (.error e) w', P.cut⟩ := by
  unfold wp attempt
  cases m w <;> exact Iff.rfl

/-- A command either takes effect, or is refused, or power is lost around it; the latter two need a
    fault in the script. -/
theorem wp_command_at {f : δ → δ}
    (hok : ∀ fs, Passes 1 w.faults fs → P.ok () { w with disk := f w.disk, faults := fs })
    (herr : Strikes 0 w.faults → ∀ fs, fs <:+ w.faults → P.err e { w with faults := fs })
    (hcut : w.faults ≠ [] → P.cut w.disk ∧ P.cut (f w.disk)) : wp (command e f) w P := by
  unfold wp command
  cases hf : w.faults with
  | nil => simpa [hf] using hok [] (by rw [hf]; exact ⟨by simp, rfl⟩)
  | cons x fs =>
    have hne : w.faults ≠ [] := by simp [hf]
    have hs : fs <:+ w.faults := by rw [hf]; exact List.suffix_cons x fs
    cases x with
    | none => exact hok fs (by rw [hf]; exact ⟨by simp, rfl⟩)
    | error => exact herr (by rw [hf]; exact ⟨⟨by simp, rfl⟩, rfl⟩) fs hs
    | cut applied =>
      cases applied with
      | false => exact (hcut hne).1
      | true => exact (hcut hne).2

theorem wp_command {f : δ → δ} (hok : ∀ fs, fs <:+ w.faults → P.ok () { w with disk := f w.disk, faults := fs })
    (herr : w.faults ≠ [] → ∀ fs, fs <:+ w.faults → P.err e { w with faults := fs })
    (hcut : w.faults ≠ [] → P.cut w.disk ∧ P.cut (f w.disk)) : wp (command e f) w P :=
  wp_command_at (fun fs h => hok fs h.suffix) (fun h => herr h.ne_nil) hcut

theorem wp_access (hok : ∀ fs, Passes 1 w.faults fs → P.ok () { w with faults := fs })
    (herr : Strikes 0 w.faults → ∀ fs, P.err e { w with faults := fs }) (hcut : w.faults ≠ [] → P.cut w.disk) :
    wp (access e) w P :=
  wp_command_at hok (fun h fs _ => herr h fs) fun h => ⟨hcut h, hcut h⟩

/-! ## Sequences of commands -/

/-- A request that the device carries out command by command, and that can stop between any two. -/
def commands (e : ε) : List (δ → δ) → Prog δ ρ ε Unit
  | [] => pure ()
  | f :: fs => do
    command e f
    commands e fs

section

variable {e : ε} {fs : List (δ → δ)} {w : World δ ρ} {P : Post δ ρ ε Unit} (I : Nat → δ → Prop)

/-- `I k` holds after `k` commands, wherever the sequence stops. -/
theorem commands_wp (h : I 0 w.disk) (hstep : ∀ k (hk : k < fs.length) d, I k d → I (k + 1) (fs[k] d))
    (hok : ∀ d left, left <:+ w.faults → I fs.length d → P.ok () { w with disk := d, faults := left })
    (herr : w.faults ≠ [] → ∀ k d left, k < fs.length → I k d → P.err e { w with disk := d, faults := left })
    (hcut : w.faults ≠ [] → ∀ k d, k ≤ fs.length → I k d → P.cut d) : wp (commands e fs) w P := by
  induction fs generalizing w I with
  | nil => exact hok w.disk w.faults (List.suffix_refl _) h
  | cons f fs ih =>
    have hfirst : I 1 (f w.disk) := hstep 0 (Nat.succ_pos _) w.disk h
    unfold commands
    rw [wp_bind]
    apply wp_command
    · intro left hleft
      have hne : left ≠ [] → w.faults ≠ [] := ne_nil_of_suffix hleft
      apply ih (fun k => I (k + 1))
      · exact hfirst
      · exact fun k hk d hd => hstep (k + 1) (Nat.succ_lt_succ hk) d hd
      · exact fun d left' hleft' hd => hok d left' (hleft'.trans hleft) hd
      · exact fun h' k d left' hk hd => herr (hne h') (k + 1) d left' (Nat.succ_lt_succ hk) hd
      · exact fun h' k d hk hd => hcut (hne h') (k + 1) d (Nat.succ_le_succ hk) hd
    · exact fun hne left _ => herr hne 0 w.disk left (Nat.succ_pos _) h
    · exact fun hne => ⟨hcut hne 0 _ (Nat.zero_le _) h, hcut hne 1 _ (Nat.succ_le_succ (Nat.zero_le _)) hfirst⟩

/-- A script that lets the whole sequence pass. -/
theorem commands_pass (hfaults : w.faults = List.replicate fs.length .none ++ left) (h : I 0 w.disk)
    (hstep : ∀ k (hk : k < fs.length) d, I k d → I (k + 1) (fs[k] d))
    (hok : ∀ d, I fs.length d → P.ok () { w with disk := d, faults := left }) : wp (commands e fs) w P := by
  obtain ⟨disk, ram, faults⟩ := w
  obtain rfl : faults = _ := hfaults
  induction fs generalizing disk I with
  | nil => exact hok disk h
  | cons f fs ih =>
    apply ih (fun k => I (k + 1))
    · exact fun k hk d hd => hstep (k + 1) (Nat.succ_lt_succ hk) d hd
    · exact hstep 0 (Nat.succ_pos _) disk h
    · exact hok

/-- A script that cuts the sequence after `m` commands. -/
theorem commands_stop {m : Nat} (hm : m < fs.length)
    (hfaults : w.faults = List.replicate m .none ++ .cut false :: left) (h : I 0 w.disk)
    (hstep : ∀ k (hk : k < fs.length) d, I k d → I (k + 1) (fs[k] d)) (hcut : ∀ d, I m d → P.cut d) :
    wp (commands e fs) w P := by
  obtain ⟨disk, ram, faults⟩ := w
  obtain rfl : faults = _ := hfaults
  induction fs generalizing disk I m with
  | nil => exact absurd hm (Nat.not_lt_zero _)
  | cons f fs ih =>
    cases m with
    | zero => exact hcut disk h
    | succ m =>
      apply ih (fun k => I (k + 1)) (Nat.lt_of_succ_lt_succ hm)
      · exact fun k hk d hd => hstep (k + 1) (Nat.succ_lt_succ hk) d hd
      · exact hcut
      · exact hstep 0 (Nat.succ_pos _) disk h

end

end Prog

end Crash
