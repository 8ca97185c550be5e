import Zigbee.Lib.Bytes
import Zigbee.Lib.Table

/-!
# Sequences of records

Lists of at most `n` items, and the reading of counted record sequences into them.

* `Bounded` — the items of a vector with a fixed capacity; `push` fails when it is full.
* `readMany` — a loop that reads one record after the other and folds them into a state.
* `readMany_encoded` — it returns what was written, if each step does.
* `readVec` — the loop for records of one width that go into a `Bounded`.
* `writeMany_eq`, `le_fitting_iff` — a loop that writes the records that fit.
* `ExactCodec` — an encoding that loses nothing, and decoders that accept only valid values.
-/

namespace Records

open Bytes

variable {α σ ε : Type} {n : Nat}

/-! ## Vectors with a capacity -/

structure Bounded (α : Type) (n : Nat) where
  items : List α
  bounded : items.length ≤ n
  deriving DecidableEq

@[ext] theorem Bounded.ext {v w : Bounded α n} (h : v.items = w.items) : v = w := by
  cases v
  cases w
  cases h
  rfl

def Bounded.empty : Bounded α n := ⟨[], Nat.zero_le _⟩

@[simp] theorem Bounded.empty_items : (Bounded.empty : Bounded α n).items = [] := rfl

def Bounded.push (v : Bounded α n) (a : α) : Option (Bounded α n) :=
  if h : v.items.length < n then
    some ⟨v.items ++ [a], by
      rw [List.length_append, List.length_singleton]
      exact h⟩
  else none

theorem Bounded.push_eq_some {v : Bounded α n} {a : α} (h : v.items.length < n) :
    ∃ w, v.push a = some w ∧ w.items = v.items ++ [a] :=
  ⟨_, dif_pos h, rfl⟩

/-! ## Reading -/

/-- `count` records, each read from the bytes that the one before left. -/
def readMany (read : σ → Buf → Except ε (σ × Buf)) : Nat → σ → Buf → Except ε (σ × Buf)
  | 0, s, l => .ok (s, l)
  | count + 1, s, l =>
    match read s l with
    | .error e => .error e
    | .ok (s, l) => readMany read count s l

section Encoded

variable {read : σ → Buf → Except ε (σ × Buf)} {enc : α → Buf} {R : List α → σ → Prop}

/-- The records that are still to be read, `R` relating those already read to the state. -/
theorem readMany_encoded_from {todo done : List α} {s : σ} (rest : Buf)
    (h : ∀ pre a post s rest, done ++ todo = pre ++ a :: post → R pre s →
      ∃ s', read s (enc a ++ rest) = .ok (s', rest) ∧ R (pre ++ [a]) s') (hR : R done s) :
    ∃ s', readMany read todo.length s (todo.flatMap enc ++ rest) = .ok (s', rest) ∧ R (done ++ todo) s' := by
  induction todo generalizing done s with
  | nil => exact ⟨s, rfl, by simpa using hR⟩
  | cons a todo ih =>
    obtain ⟨s', hread, hR'⟩ := h done a todo s (todo.flatMap enc ++ rest) rfl hR
    have hnext : done ++ a :: todo = (done ++ [a]) ++ todo := by simp
    obtain ⟨s'', hmany, hR''⟩ := ih (fun pre b post s rest heq => h pre b post s rest (hnext.trans heq)) hR'
    refine ⟨s'', ?_, by rw [hnext]; exact hR''⟩
    rw [List.flatMap_cons, List.append_assoc, List.length_cons]
    unfold readMany
    rw [hread]
    exact hmany

/-- **The loop reads back what was written**, if each step reads back its record. -/
theorem readMany_encoded {l : List α} {s : σ} (rest : Buf)
    (h : ∀ pre a post s rest, l = pre ++ a :: post → R pre s →
      ∃ s', read s (enc a ++ rest) = .ok (s', rest) ∧ R (pre ++ [a]) s') (hs : R [] s) :
    ∃ s', readMany read l.length s (l.flatMap enc ++ rest) = .ok (s', rest) ∧ R l s' :=
  readMany_encoded_from rest h hs

end Encoded

/-- One record of `width` bytes, pushed; `full` when there is no room. -/
def readRecord (width : Nat) (decode : Buf → Except ε α) (full : ε) (v : Bounded α n) (l : Buf) :
    Except ε (Bounded α n × Buf) :=
  match decode (l.take width) with
  | .error e => .error e
  | .ok a =>
    match v.push a with
    | none => .error full
    | some v => .ok (v, l.drop width)

def readVec (width : Nat) (decode : Buf → Except ε α) (full : ε) (count : Nat) (l : Buf) :
    Except ε (Bounded α n × Buf) :=
  readMany (readRecord width decode full) count Bounded.empty l

theorem readVec_encoded {width : Nat} (decode : Buf → Except ε α) (full : ε) (enc : α → Buf) (v : Bounded α n) (rest : Buf)
    (h : ∀ a ∈ v.items, (enc a).length = width ∧ decode (enc a) = .ok a) :
    readVec width decode full v.items.length (v.items.flatMap enc ++ rest) = .ok (v, rest) := by
  have hstep : ∀ pre a post (w : Bounded α n) rest, v.items = pre ++ a :: post → w.items = pre →
      ∃ w', readRecord width decode full w (enc a ++ rest) = .ok (w', rest) ∧ w'.items = pre ++ [a] := by
    intro pre a post w rest hv hw
    obtain ⟨hlen, hdec⟩ := h a (by simp [hv])
    have hroom : w.items.length < n := by
      have := v.bounded
      rw [hv, List.length_append, List.length_cons] at this
      rw [hw]
      omega
    obtain ⟨w', hpush, hitems⟩ := Bounded.push_eq_some (a := a) hroom
    refine ⟨w', ?_, by rw [hitems, hw]⟩
    unfold readRecord
    rw [List.take_left' hlen, List.drop_left' hlen, hdec]
    simp only [hpush]
  obtain ⟨w, hread, hw⟩ := readMany_encoded (R := fun l (w : Bounded α n) => w.items = l) (s := Bounded.empty) rest hstep rfl
  rw [show w = v from Bounded.ext hw] at hread
  exact hread

/-- Encoded records of one width. -/
theorem length_flatMap_of_width {width : Nat} {enc : α → Buf} (h : ∀ a, (enc a).length = width) (l : List α) :
    (l.flatMap enc).length = l.length * width := by
  induction l with
  | nil => simp
  | cons a l ih => rw [List.flatMap_cons, List.length_append, h, ih, List.length_cons, Nat.succ_mul, Nat.add_comm]

/-! ## Writing -/

/-- The records that `write` puts one behind the other into `room` bytes, up to the first that does not fit. -/
def writeMany (write : α → Nat → Option Buf) : List α → Nat → Buf
  | [], _ => []
  | a :: l, room =>
    match write a room with
    | none => []
    | some bytes => bytes ++ writeMany write l (room - bytes.length)

/-- How many of the records fit into `room` bytes. -/
def fitting (enc : α → Buf) : List α → Nat → Nat
  | [], _ => 0
  | a :: l, room => if (enc a).length ≤ room then fitting enc l (room - (enc a).length) + 1 else 0

theorem le_fitting_iff (enc : α → Buf) (l : List α) {room k : Nat} :
    k ≤ fitting enc l room ↔ k ≤ l.length ∧ ((l.take k).flatMap enc).length ≤ room := by
  induction l generalizing room k with
  | nil => simp [fitting]
  | cons a l ih =>
    cases k with
    | zero => simp
    | succ k =>
      rw [fitting, List.take_succ_cons, List.flatMap_cons, List.length_append, List.length_cons]
      split
      · rw [Nat.succ_le_succ_iff, ih]
        omega
      · omega

/-- **The loop writes the records that fit**, if each step writes its record where there is room for it. -/
theorem writeMany_eq {write : α → Nat → Option Buf} {enc : α → Buf}
    (h : ∀ a room, write a room = if (enc a).length ≤ room then some (enc a) else none) (l : List α) (room : Nat) :
    writeMany write l room = (l.take (fitting enc l room)).flatMap enc := by
  induction l generalizing room with
  | nil => rfl
  | cons a l ih =>
    rw [writeMany, fitting, h]
    by_cases hfits : (enc a).length ≤ room
    · simp [hfits, ih]
    · simp [hfits]

/-! ## Codecs -/

/-- `decode` is the decoder of what `encode` writes, one of the `decoders`. -/
structure ExactCodec (valid : α → Prop) (encode : α → Buf) (capacity : Nat) (decode : Buf → Except ε α)
    (decoders : List (Buf → Except ε α)) : Prop where
  current : decode ∈ decoders
  roundTrip : ∀ a, valid a → decode (encode a) = .ok a
  fits : ∀ a, valid a → (encode a).length ≤ capacity
  accepted : ∀ d ∈ decoders, ∀ bytes a, d bytes = .ok a → valid a ∧ decode (encode a) = .ok a

/-- A decoder that validates last accepts only what the current one reads back. -/
theorem ExactCodec.of_roundTrip {valid : α → Prop} {encode : α → Buf} {capacity : Nat} {decode : Buf → Except ε α}
    {decoders : List (Buf → Except ε α)} (current : decode ∈ decoders) (roundTrip : ∀ a, valid a → decode (encode a) = .ok a)
    (fits : ∀ a, valid a → (encode a).length ≤ capacity)
    (sound : ∀ d ∈ decoders, ∀ bytes a, d bytes = .ok a → valid a) : ExactCodec valid encode capacity decode decoders where
  current := current
  roundTrip := roundTrip
  fits := fits
  accepted := fun d hd bytes a ha => ⟨sound d hd bytes a ha, roundTrip a (sound d hd bytes a ha)⟩

end Records
