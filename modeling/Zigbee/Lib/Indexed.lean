import Zigbee.Lib.Bytes
import Zigbee.Lib.Checked

/-!
# Parsers that index a buffer and fail with errors of their own

* `byteAt`, `wordAt`, `arrayOf`, `tailFrom`, `rangeOf` — indexing and slicing, which trap past the end of the
  buffer; the equations give their values in range.
* `okOr` — the `?` of an option.
* `collect` — a counted loop that reads an item, keeps it, and moves on; `collect_safe` with an invariant of
  the passes that remain and the offset, `collect_safe_of_stop` where the loop guards every read itself.
* `pushUpTo`, `pushOr` — a bounded list that ignores, or reports, what does not fit.
-/

namespace Indexed

open Bytes Checked Outcome

variable {ε α : Type}

/-- `data[i]` -/
def byteAt (data : Buf) (i : Nat) : Outcome ε UInt8 :=
  match data[i]? with
  | some b => .ok b
  | none => .trap

/-- `u16::from_le_bytes([data[i], data[i + 1]])` -/
def wordAt (data : Buf) (i : Nat) : Outcome ε UInt16 := do
  let low ← byteAt data i
  let high ← byteAt data (i + 1)
  pure (UInt16.ofNat (low.toNat + 256 * high.toNat))

/-- `copy_from_slice(&data[i..i + n])` -/
def arrayOf (n : Nat) (data : Buf) (i : Nat) : Outcome ε (Vector UInt8 n) :=
  if data.length < i + n then .trap else .ok (arrayAt n data i)

/-- `&data[i..]` -/
def tailFrom (data : Buf) (i : Nat) : Outcome ε Buf :=
  if data.length < i then .trap else .ok (data.drop i)

/-- `&data[i..j]` -/
def rangeOf (data : Buf) (i j : Nat) : Outcome ε Buf :=
  if j < i ∨ data.length < j then .trap else .ok (slice data i j)

/-- `ok_or(e)?` -/
def okOr (e : ε) : Option α → Outcome ε α
  | some a => .ok a
  | none => .error e

section
variable {data : Buf} {i j n : Nat}

theorem byteAt_eq (h : i < data.length) : (byteAt data i : Outcome ε UInt8) = .ok (u8At data i) := by
  simp [byteAt, u8At, h]

theorem wordAt_eq (h : i + 1 < data.length) : (wordAt data i : Outcome ε UInt16) = .ok (u16At data i) := by
  rw [wordAt, byteAt_eq (by omega), byteAt_eq h]
  rfl

theorem arrayOf_eq (h : i + n ≤ data.length) : (arrayOf n data i : Outcome ε (Vector UInt8 n)) = .ok (arrayAt n data i) := by
  rw [arrayOf, if_neg (by omega)]

theorem tailFrom_eq (h : i ≤ data.length) : (tailFrom data i : Outcome ε Buf) = .ok (data.drop i) := by
  rw [tailFrom, if_neg (by omega)]

theorem rangeOf_eq (hij : i ≤ j) (h : j ≤ data.length) : (rangeOf data i j : Outcome ε Buf) = .ok (slice data i j) := by
  rw [rangeOf, if_neg (by omega)]

/-- An index past the end traps. -/
theorem byteAt_trap (h : data.length ≤ i) : (byteAt data i : Outcome ε UInt8) = .trap := by
  rw [byteAt, List.getElem?_eq_none h]

end

theorem okOr_safe (e : ε) (o : Option α) : (okOr e o).Safe := by
  cases o with
  | none => exact safe_error e
  | some a => exact safe_ok a

@[simp] theorem okOr_some (e : ε) (a : α) : okOr e (some a) = .ok a := rfl

/-! ## Lists of items -/

/-- `let _ = list.push(a)`, on a list of at most `capacity` items. -/
def pushUpTo (capacity : Nat) (l : List α) (a : α) : Outcome ε (List α) :=
  .ok (if l.length < capacity then l ++ [a] else l)

/-- `list.push(a).map_err(|_| e)?` -/
def pushOr (e : ε) (capacity : Nat) (l : List α) (a : α) : Outcome ε (List α) :=
  if l.length < capacity then .ok (l ++ [a]) else .error e

theorem pushUpTo_safe (capacity : Nat) (l : List α) (a : α) : (pushUpTo capacity l a : Outcome ε (List α)).Safe :=
  safe_ok _

theorem pushOr_safe (e : ε) (capacity : Nat) (l : List α) (a : α) : (pushOr e capacity l a).Safe :=
  safe_ite (fun _ => safe_ok _) fun _ => safe_error _

/-- `for _ in 0..n { if stop { break } … }`: the items that were kept, and the offset behind the last. -/
def collect (stop : Nat → Bool) (read : Nat → Outcome ε (α × Nat)) (keep : List α → α → Outcome ε (List α)) :
    Nat → Nat → List α → Outcome ε (List α × Nat)
  | 0, offset, kept => .ok (kept, offset)
  | n + 1, offset, kept =>
    if stop offset then .ok (kept, offset)
    else do
      let (a, next) ← read offset
      let kept ← keep kept a
      collect stop read keep n next kept

section
variable {stop : Nat → Bool} {read : Nat → Outcome ε (α × Nat)} {keep : List α → α → Outcome ε (List α)}

/-- A loop does not trap if no pass does, where `I` holds of the passes left and the offset. -/
theorem collect_safe (I : Nat → Nat → Prop)
    (hread : ∀ n offset, I (n + 1) offset → stop offset = false → (read offset).Safe ∧
      ∀ a next, read offset = .ok (a, next) → I n next)
    (hkeep : ∀ kept a, (keep kept a).Safe) {n offset : Nat} (h : I n offset) (kept : List α) :
    (collect stop read keep n offset kept).Safe := by
  induction n generalizing offset kept with
  | zero => exact safe_ok _
  | succ n ih =>
    rw [collect]
    cases hstop : stop offset with
    | true => exact safe_ok _
    | false =>
      obtain ⟨hsafe, hnext⟩ := hread n offset h hstop
      exact hsafe.bind fun r hr => (hkeep kept r.1).bind fun kept' _ => ih (hnext r.1 r.2 hr) kept'

/-- A loop that guards every read. -/
theorem collect_safe_of_stop (hread : ∀ offset, stop offset = false → (read offset).Safe)
    (hkeep : ∀ kept a, (keep kept a).Safe) (n offset : Nat) (kept : List α) :
    (collect stop read keep n offset kept).Safe :=
  collect_safe (fun _ _ => True) (fun _ offset _ hstop => ⟨hread offset hstop, fun _ _ _ => trivial⟩) hkeep trivial kept

/-- A loop over items that are all there and all fit. -/
theorem collect_eq {enc : α → Nat} {capacity : Nat} {items : List α} {offset : Nat} {kept : List α}
    (hread : ∀ pre a post, items = pre ++ a :: post → stop (offset + (pre.map enc).sum) = false ∧
      read (offset + (pre.map enc).sum) = .ok (a, offset + (pre.map enc).sum + enc a))
    (hkeep : ∀ kept a, kept.length < capacity → keep kept a = .ok (kept ++ [a]))
    (hfits : kept.length + items.length ≤ capacity) :
    collect stop read keep items.length offset kept = .ok (kept ++ items, offset + (items.map enc).sum) := by
  induction items generalizing offset kept with
  | nil => simp [collect]
  | cons a items ih =>
    obtain ⟨hstop, hfirst⟩ := hread [] a items rfl
    rw [List.length_cons] at hfits ⊢
    simp only [List.map_nil, List.sum_nil, Nat.add_zero] at hstop hfirst
    rw [collect, hstop, if_neg Bool.false_ne_true, hfirst, ok_bind]
    dsimp only
    rw [hkeep kept a (by omega), ok_bind, ih]
    · simp [Nat.add_assoc]
    · intro pre b post hitems
      have hb := hread (a :: pre) b post (by rw [hitems]; rfl)
      rw [List.map_cons, List.sum_cons, ← Nat.add_assoc] at hb
      exact hb
    · rw [List.length_append, List.length_singleton]
      omega

/-- A loop that has more passes than there are items. -/
theorem collect_stop {n offset : Nat} {kept : List α} (h : stop offset = true) :
    collect stop read keep n offset kept = .ok (kept, offset) := by
  cases n with
  | zero => rfl
  | succ n => rw [collect, if_pos h]

/-- A loop in two parts. -/
theorem collect_add (m n offset : Nat) (kept : List α) :
    collect stop read keep (m + n) offset kept =
      (collect stop read keep m offset kept >>= fun r => collect stop read keep n r.2 r.1) := by
  induction m generalizing offset kept with
  | zero => rw [Nat.zero_add, collect, ok_bind]
  | succ m ih =>
    rw [Nat.succ_add, collect, collect]
    cases hstop : stop offset with
    | true => rw [if_pos rfl, if_pos rfl, ok_bind, collect_stop hstop]
    | false =>
      rw [if_neg Bool.false_ne_true, if_neg Bool.false_ne_true]
      cases read offset with
      | error e => rfl
      | trap => rfl
      | ok r =>
        obtain ⟨a, next⟩ := r
        rw [ok_bind, ok_bind]
        dsimp only
        cases keep kept a with
        | error e => rfl
        | trap => rfl
        | ok kept' =>
          rw [ok_bind, ok_bind]
          exact ih next kept'

end

end Indexed
