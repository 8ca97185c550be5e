import Zigbee.Lib.Bytes

/-!
# Reading a header field by field

* `readU8`, `readU16`, `readU32`, `readArray`, `readIf`, `readTimes` — a reader returns a field and the
  bytes behind it.
* `Inverse` — a reader accepts exactly the encodings of the values that it can return.
* `Cursor` — the same over a buffer and an offset, where an index out of range is a fault of its own.
* `Implements` — a cursor computes what a reader does, and never leaves the buffer.

`Inverse.bind_eq_some` turns a chain of readers into the equation of the bytes that it takes, for both
directions of a round trip; the `Implements` rules follow the same chain.
-/

namespace Bytes

variable {α β : Type}

/-! ## Readers -/

def readU8 : Buf → Option (UInt8 × Buf)
  | [] => none
  | b :: rest => some (b, rest)

def readU16 (data : Buf) : Option (UInt16 × Buf) :=
  if data.length < 2 then none else some (u16At data 0, data.drop 2)

def readU32 (data : Buf) : Option (UInt32 × Buf) :=
  if data.length < 4 then none else some (u32At data 0, data.drop 4)

def readArray (n : Nat) (data : Buf) : Option (Vector UInt8 n × Buf) :=
  if data.length < n then none else some (arrayAt n data 0, data.drop n)

/-- A field that is there only if `present`. -/
def readIf (present : Bool) (read : Buf → Option (α × Buf)) (data : Buf) : Option (Option α × Buf) :=
  if present then (read data).map fun r => (some r.1, r.2) else some (none, data)

def readTimes (read : Buf → Option (α × Buf)) : Nat → Buf → Option (List α × Buf)
  | 0, data => some ([], data)
  | n + 1, data => (read data).bind fun r => (readTimes read n r.2).map fun rs => (r.1 :: rs.1, rs.2)

/-- The encoding of an optional field. -/
def encIf (enc : α → Buf) (x : Option α) : Buf := (x.map enc).getD []

@[simp] theorem encIf_none (enc : α → Buf) : encIf enc none = [] := rfl

@[simp] theorem encIf_some (enc : α → Buf) (a : α) : encIf enc (some a) = enc a := rfl

/-- `read` accepts exactly the encodings of the values in `P`, and takes no byte more. -/
structure Inverse (P : α → Prop) (read : Buf → Option (α × Buf)) (enc : α → Buf) : Prop where
  complete : ∀ a rest, P a → read (enc a ++ rest) = some (a, rest)
  sound : ∀ d a rest, read d = some (a, rest) → P a ∧ d = enc a ++ rest

variable {d : Buf}

section
variable {P : α → Prop} {read : Buf → Option (α × Buf)} {enc : α → Buf}

theorem Inverse.eq_some (h : Inverse P read enc) {rest : Buf} {a : α} : read d = some (a, rest) ↔ P a ∧ d = enc a ++ rest :=
  ⟨h.sound d a rest, fun ⟨hp, hd⟩ => hd ▸ h.complete a rest hp⟩

/-- **A read inside a chain is an equation about the bytes.** -/
theorem Inverse.bind_eq_some (h : Inverse P read enc) {f : α × Buf → Option β} {b : β} :
    (read d >>= f) = some b ↔ ∃ a rest, P a ∧ d = enc a ++ rest ∧ f (a, rest) = some b := by
  rw [Option.bind_eq_bind, Option.bind_eq_some_iff]
  constructor
  · rintro ⟨⟨a, rest⟩, hread, hf⟩
    obtain ⟨hp, hd⟩ := h.sound d a rest hread
    exact ⟨a, rest, hp, hd, hf⟩
  · rintro ⟨a, rest, hp, hd, hf⟩
    exact ⟨(a, rest), h.eq_some.mpr ⟨hp, hd⟩, hf⟩

theorem Inverse.readIf (h : Inverse P read enc) (present : Bool) :
    Inverse (fun x => x.isSome = present ∧ ∀ a, x = some a → P a) (readIf present read) (encIf enc) := by
  cases present with
  | false =>
    constructor
    · rintro (_ | a) rest ⟨hsome, -⟩
      · rfl
      · cases hsome
    · rintro d x rest hread
      obtain ⟨rfl, rfl⟩ := Prod.mk.inj (Option.some.inj hread)
      exact ⟨⟨rfl, fun a ha => by cases ha⟩, rfl⟩
  | true =>
    constructor
    · rintro (_ | a) rest ⟨hsome, hp⟩
      · cases hsome
      · simp only [Bytes.readIf, if_true, encIf_some, h.complete a rest (hp a rfl), Option.map_some]
    · rintro d x rest hread
      simp only [Bytes.readIf, if_true, Option.map_eq_some_iff] at hread
      obtain ⟨⟨a, rest'⟩, hread, heq⟩ := hread
      obtain ⟨rfl, rfl⟩ := Prod.mk.inj heq
      obtain ⟨hp, hd⟩ := h.sound d a rest' hread
      refine ⟨⟨rfl, fun b hb => ?_⟩, hd⟩
      obtain rfl := Option.some.inj hb
      exact hp

theorem readIf_eq_some {present : Bool} {rest : Buf} {x : Option α} :
    Bytes.readIf present read d = some (x, rest) ↔
      (present = false ∧ x = none ∧ d = rest) ∨ (present = true ∧ ∃ a, x = some a ∧ read d = some (a, rest)) := by
  cases present with
  | false =>
    simp only [Bytes.readIf, Bool.false_eq_true, if_false, Option.some.injEq, Prod.mk.injEq, true_and, false_and, or_false]
    exact and_congr_left fun _ => eq_comm
  | true =>
    simp only [Bytes.readIf, if_true, Option.map_eq_some_iff, Prod.mk.injEq, Bool.true_eq_false, false_and, false_or,
      true_and]
    constructor
    · rintro ⟨⟨a, rest'⟩, hread, rfl, rfl⟩
      exact ⟨a, rfl, hread⟩
    · rintro ⟨a, rfl, hread⟩
      exact ⟨(a, rest), hread, rfl, rfl⟩

theorem Inverse.readTimes (h : Inverse P read enc) (n : Nat) :
    Inverse (fun as => as.length = n ∧ ∀ a ∈ as, P a) (readTimes read n) (fun as => as.flatMap enc) := by
  induction n with
  | zero =>
    constructor
    · rintro as rest ⟨hlen, -⟩
      rw [List.length_eq_zero_iff.mp hlen]
      rfl
    · rintro d as rest hread
      obtain ⟨rfl, rfl⟩ := Prod.mk.inj (Option.some.inj hread)
      exact ⟨⟨rfl, fun a ha => by cases ha⟩, rfl⟩
  | succ n ih =>
    constructor
    · rintro as rest ⟨hlen, hp⟩
      cases as with
      | nil => cases hlen
      | cons a as =>
        have hrest := ih.complete as rest ⟨Nat.succ.inj hlen, fun b hb => hp b (List.mem_cons_of_mem a hb)⟩
        simp only [Bytes.readTimes, List.flatMap_cons, List.append_assoc,
          h.complete a _ (hp a List.mem_cons_self), Option.bind_some, hrest, Option.map_some]
    · rintro d as rest hread
      simp only [Bytes.readTimes, Option.bind_eq_some_iff, Option.map_eq_some_iff] at hread
      obtain ⟨⟨a, rest'⟩, hfirst, ⟨⟨bs, rest''⟩, hothers, heq⟩⟩ := hread
      obtain ⟨rfl, rfl⟩ := Prod.mk.inj heq
      obtain ⟨hp, rfl⟩ := h.sound _ _ _ hfirst
      obtain ⟨⟨hlen, hps⟩, hd⟩ := ih.sound _ _ _ hothers
      refine ⟨⟨by simp only [List.length_cons, hlen], fun b hb => ?_⟩, ?_⟩
      · rcases List.mem_cons.mp hb with rfl | hb
        · exact hp
        · exact hps b hb
      · rw [List.flatMap_cons, List.append_assoc]
        exact congrArg (enc a ++ ·) hd

end

theorem readU8_inverse : Inverse (fun _ => True) readU8 (fun b => [b]) := by
  refine ⟨fun a rest _ => rfl, fun d a rest h => ⟨trivial, ?_⟩⟩
  cases d with
  | nil => cases h
  | cons b d =>
    obtain ⟨rfl, rfl⟩ := Prod.mk.inj (Option.some.inj h)
    rfl

variable {enc : α → Buf}

/-- A field of `n` bytes, read from the front. -/
theorem fixed_inverse {n : Nat} {get : Buf → α} (hlen : ∀ a, (enc a).length = n) (hget : ∀ a rest, get (enc a ++ rest) = a)
    (henc : ∀ d, n ≤ d.length → enc (get d) = d.take n) :
    Inverse (fun _ => True) (fun d => if d.length < n then none else some (get d, d.drop n)) enc := by
  constructor
  · intro a rest _
    have hfits : ¬ (enc a ++ rest).length < n := by
      rw [List.length_append, hlen]
      omega
    rw [if_neg hfits, hget, List.drop_left' (hlen a)]
  · intro d a rest h
    split at h
    · cases h
    · rename_i hfits
      obtain ⟨rfl, rfl⟩ := Prod.mk.inj (Option.some.inj h)
      exact ⟨trivial, by rw [henc d (by omega), List.take_append_drop]⟩

variable {i : Nat}

theorem u8At_eq_getElem (h : i < d.length) : u8At d i = d[i] := by
  unfold u8At
  rw [List.getD_eq_getElem?_getD, List.getElem?_eq_getElem h, Option.getD_some]

theorem arrayAt_zero_toList {n : Nat} (h : n ≤ d.length) : (arrayAt n d 0).toList = d.take n := by
  apply List.ext_getElem
  · rw [Vector.length_toList, List.length_take]
    omega
  · intro i hi _
    rw [Vector.length_toList] at hi
    simp only [Vector.getElem_toList, arrayAt, Vector.getElem_ofFn, Nat.zero_add, List.getElem_take]
    exact u8At_eq_getElem (by omega)

theorem u8At_cons_drop (h : i < d.length) : u8At d i :: d.drop (i + 1) = d.drop i := by
  rw [u8At_eq_getElem h, List.getElem_cons_drop]

theorem le16_u16At (h : 2 ≤ d.length) : le16 (u16At d 0) = d.take 2 := by
  match d, h with
  | a :: b :: d, _ =>
    have ha := a.toNat_lt
    have hb := b.toNat_lt
    simp only [u16At, le16, u8At, List.getD_cons_zero, List.getD_cons_succ, List.take_succ_cons, List.take_zero,
      UInt16.toNat_ofNat', List.cons.injEq, and_true]
    constructor
    · apply UInt8.toNat_inj.mp
      rw [UInt8.toNat_ofNat']
      omega
    · apply UInt8.toNat_inj.mp
      rw [UInt8.toNat_ofNat']
      omega

theorem le16_append_drop (h : i + 2 ≤ d.length) : le16 (u16At d i) ++ d.drop (i + 2) = d.drop i := by
  rw [← Nat.add_zero i, u16At_drop, Nat.add_zero, le16_u16At (by rw [List.length_drop]; omega), ← List.drop_drop]
  exact List.take_append_drop 2 _

theorem le32_u32At (h : 4 ≤ d.length) : le32 (u32At d 0) = d.take 4 := by
  match d, h with
  | a :: b :: c :: e :: d, _ =>
    have ha := a.toNat_lt
    have hb := b.toNat_lt
    have hc := c.toNat_lt
    have he := e.toNat_lt
    simp only [u32At, le32, u8At, List.getD_cons_zero, List.getD_cons_succ, List.take_succ_cons, List.take_zero,
      UInt32.toNat_ofNat', List.cons.injEq, and_true]
    refine ⟨?_, ?_, ?_, ?_⟩
    all_goals
      apply UInt8.toNat_inj.mp
      rw [UInt8.toNat_ofNat']
      omega

theorem readU16_inverse : Inverse (fun _ => True) readU16 le16 :=
  fixed_inverse le16_length u16At_le16 fun _ => le16_u16At

theorem readU32_inverse : Inverse (fun _ => True) readU32 le32 :=
  fixed_inverse le32_length u32At_le32 fun _ => le32_u32At

theorem readArray_inverse (n : Nat) : Inverse (fun _ => True) (readArray n) Vector.toList :=
  fixed_inverse (fun _ => Vector.length_toList) arrayAt_toList fun _ => arrayAt_zero_toList

/-! ## Cursors -/

inductive ReadFault where
  /-- The parser answers `None`. -/
  | reject
  /-- An index is out of range. -/
  | outOfBounds
  deriving DecidableEq, Repr

/-- A parser over a buffer that it indexes itself, and an offset that it moves. -/
abbrev Cursor (α : Type) := ReaderT Buf (StateT Nat (Except ReadFault)) α

namespace Cursor

/-- A parser over a buffer and an offset. -/
def ofFn (f : Buf → Nat → Except ReadFault (α × Nat)) : Cursor α := f

/-- `data[offset]` -/
def u8 : Cursor UInt8 := ofFn fun data i => if i < data.length then .ok (u8At data i, i + 1) else .error .outOfBounds

def u16 : Cursor UInt16 :=
  ofFn fun data i => if i + 1 < data.length then .ok (u16At data i, i + 2) else .error .outOfBounds

def u32 : Cursor UInt32 :=
  ofFn fun data i => if i + 3 < data.length then .ok (u32At data i, i + 4) else .error .outOfBounds

/-- `data[offset..offset + n]` -/
def array (n : Nat) : Cursor (Vector UInt8 n) :=
  ofFn fun data i => if i + n ≤ data.length then .ok (arrayAt n data i, i + n) else .error .outOfBounds

def reject : Cursor α := ofFn fun _ _ => .error .reject

/-- The `?` of a lookup. -/
def ofOption : Option α → Cursor α
  | some a => pure a
  | none => reject

/-- The length check before a read. -/
def need (n : Nat) : Cursor Unit := ofFn fun data i => if data.length < i + n then .error .reject else .ok ((), i)

def ifPresent (present : Bool) (c : Cursor α) : Cursor (Option α) :=
  if present then some <$> c else pure none

def times (c : Cursor α) : Nat → Cursor (List α)
  | 0 => pure []
  | n + 1 => do
    let a ← c
    let as ← times c n
    pure (a :: as)

/-- The value and the offset behind it. -/
def parse (c : Cursor α) (data : Buf) : Except ReadFault (α × Nat) := c data 0

end Cursor

/-- The answer of a reader, as an offset into `data`. -/
def atOffset (data : Buf) : Option (α × Buf) → Except ReadFault (α × Nat)
  | some (a, rest) => .ok (a, data.length - rest.length)
  | none => .error .reject

/-- Where `n` bytes are left, the cursor computes what the reader does, whose rest is a suffix. -/
structure Implements (n : Nat) (c : Cursor α) (read : Buf → Option (α × Buf)) : Prop where
  eq : ∀ data i, i + n ≤ data.length → c data i = atOffset data (read (data.drop i))
  suffix : ∀ d a rest, read d = some (a, rest) → rest <:+ d

variable {k : α → Cursor β} {q : α × Buf → Option (β × Buf)}

open Cursor

section
variable {c : Cursor α} {read : Buf → Option (α × Buf)} {n : Nat}

theorem Implements.mono (h : Implements n c read) {m : Nat} (hm : n ≤ m) : Implements m c read :=
  ⟨fun data i hi => h.eq data i (by omega), h.suffix⟩

theorem Implements.pure (a : α) : Implements 0 (pure a) (fun d => some (a, d)) := by
  constructor
  · intro data i hi
    have hlen : data.length - (data.drop i).length = i := by
      rw [List.length_drop]
      omega
    simp only [atOffset, hlen]
    rfl
  · intro d b rest h
    obtain ⟨rfl, rfl⟩ := Prod.mk.inj (Option.some.inj h)
    exact List.suffix_refl _

theorem Implements.reject : Implements (α := α) 0 reject (fun _ => none) :=
  ⟨fun _ _ _ => rfl, fun _ _ _ h => by cases h⟩

theorem Implements.ofOption {o : Option α} {q : α → Buf → Option (β × Buf)} (hk : ∀ a, o = some a → Implements n (k a) (q a)) :
    Implements n (ofOption o >>= k) (fun d => o >>= fun a => q a d) := by
  cases o with
  | none => exact Implements.reject.mono (Nat.zero_le n)
  | some a => exact hk a rfl

theorem Implements.ite {p : Prop} [Decidable p] {c' : Cursor α} {read' : Buf → Option (α × Buf)}
    (ht : p → Implements n c read) (hf : ¬ p → Implements n c' read') :
    Implements n (if p then c else c') (fun d => if p then read d else read' d) := by
  by_cases h : p
  · simpa only [if_pos h] using ht h
  · simpa only [if_neg h] using hf h

/-- A field whose reader leaves `m` of `n` bytes to what follows. -/
theorem Implements.bindLeaving {m w : Nat} (h : Implements w c read) (hle : w ≤ n)
    (hleft : ∀ d a rest, n ≤ d.length → read d = some (a, rest) → m ≤ rest.length)
    (hk : ∀ a, Implements m (k a) (fun d => q (a, d))) : Implements n (c >>= k) (fun d => read d >>= q) := by
  constructor
  · intro data i hi
    have hc := h.eq data i (by omega)
    change (c data i >>= fun r => k r.1 data r.2) = _
    rw [hc]
    cases hread : read (data.drop i) with
    | none => rfl
    | some r =>
      obtain ⟨a, rest⟩ := r
      have hrest := hleft _ a rest (by rw [List.length_drop]; omega) hread
      have hsuffix : rest <:+ data := (h.suffix _ a rest hread).trans (List.drop_suffix i data)
      have hdrop := List.suffix_iff_eq_drop.mp hsuffix
      have hlength := hsuffix.length_le
      change k a data (data.length - rest.length) = atOffset data (q (a, rest))
      rw [(hk a).eq data (data.length - rest.length) (by omega), ← hdrop]
  · intro d b rest hread
    obtain ⟨⟨a, rest'⟩, hfirst, hnext⟩ := Option.bind_eq_some_iff.mp hread
    exact ((hk a).suffix rest' b rest hnext).trans (h.suffix d a rest' hfirst)

theorem Implements.bind (h : Implements n c read) (hk : ∀ a, Implements 0 (k a) (fun d => q (a, d))) :
    Implements n (c >>= k) (fun d => read d >>= q) :=
  h.bindLeaving le_rfl (fun _ _ _ _ _ => Nat.zero_le _) hk

/-- A field of `n` bytes that the length check has covered. -/
theorem fixed_implements {get : Buf → Nat → α} (n : Nat) (hget : ∀ data i, get data i = get (data.drop i) 0) :
    Implements n (ofFn fun data i => if i + n ≤ data.length then .ok (get data i, i + n) else .error .outOfBounds)
      (fun d => if d.length < n then none else some (get d 0, d.drop n)) := by
  constructor
  · intro data i hi
    have hfits : ¬ (data.drop i).length < n := by
      rw [List.length_drop]
      omega
    have hoffset : data.length - ((data.drop i).drop n).length = i + n := by
      rw [List.length_drop, List.length_drop]
      omega
    rw [if_neg hfits]
    simp only [atOffset, hoffset]
    change (if i + n ≤ data.length then _ else _) = _
    rw [if_pos hi, hget]
  · intro d a rest h
    split at h
    · cases h
    · obtain ⟨rfl, rfl⟩ := Prod.mk.inj (Option.some.inj h)
      exact List.drop_suffix n d

theorem u32At_drop (data : Buf) (i : Nat) : u32At data i = u32At (data.drop i) 0 := by
  unfold u32At
  rw [← u8At_drop, ← u8At_drop, ← u8At_drop, ← u8At_drop]
  rfl

theorem arrayAt_drop (n : Nat) (data : Buf) (i : Nat) : arrayAt n data i = arrayAt n (data.drop i) 0 := by
  unfold arrayAt
  congr 1
  funext k
  rw [← u8At_drop, Nat.zero_add]

theorem u8_implements : Implements 1 u8 readU8 := by
  have h := fixed_implements 1 (fun data i => u8At_drop data i 0)
  refine ⟨fun data i hi => (h.eq data i hi).trans ?_, fun d a rest hread => ?_⟩
  · cases data.drop i with
    | nil => rfl
    | cons b rest => simp [readU8, u8At]
  · exact ⟨[a], (readU8_inverse.sound d a rest hread).2.symm⟩

theorem u16_implements : Implements 2 u16 readU16 := fixed_implements 2 (fun data i => u16At_drop data i 0)

theorem u32_implements : Implements 4 u32 readU32 := fixed_implements 4 u32At_drop

theorem array_implements (n : Nat) : Implements n (array n) (readArray n) := fixed_implements n (arrayAt_drop n)

/-- A check of the length in front of a field. -/
theorem Implements.checked (h : Implements n c read) (hshort : ∀ d, d.length < n → read d = none) :
    Implements 0 (need n >>= fun _ => c) read := by
  refine ⟨fun data i hi => ?_, h.suffix⟩
  change ((if data.length < i + n then Except.error ReadFault.reject else .ok ((), i)) >>= fun r => c data r.2) = _
  split
  · rename_i hless
    rw [hshort _ (by rw [List.length_drop]; omega)]
    rfl
  · exact h.eq data i (by omega)

/-- A reader of exactly `n` bytes. -/
def FixedWidth (n : Nat) (read : Buf → Option (α × Buf)) : Prop :=
  ∀ d a rest, read d = some (a, rest) → d.length = rest.length + n

theorem Inverse.fixedWidth {P : α → Prop} (h : Inverse P read enc) (hlen : ∀ a, (enc a).length = n) : FixedWidth n read := by
  intro d a rest hread
  rw [(h.sound d a rest hread).2, List.length_append, hlen, Nat.add_comm]

theorem readU8_fixedWidth : FixedWidth 1 readU8 := readU8_inverse.fixedWidth fun _ => rfl

theorem readU16_fixedWidth : FixedWidth 2 readU16 := readU16_inverse.fixedWidth le16_length

theorem readU32_fixedWidth : FixedWidth 4 readU32 := readU32_inverse.fixedWidth le32_length

theorem readArray_fixedWidth (n : Nat) : FixedWidth n (readArray n) :=
  (readArray_inverse n).fixedWidth fun _ => Vector.length_toList

theorem Inverse.short {P : α → Prop} (h : Inverse P read enc) (hlen : ∀ a, P a → n ≤ (enc a).length) :
    ∀ d, d.length < n → read d = none := by
  intro d hd
  cases hread : read d with
  | none => rfl
  | some r =>
    obtain ⟨hp, heq⟩ := h.sound d r.1 r.2 hread
    have hle := hlen r.1 hp
    rw [heq, List.length_append] at hd
    omega

/-- A field that one length check covers together with what follows. -/
theorem Implements.bindFixed {w : Nat} (h : Implements w c read) (hw : FixedWidth w read) (hle : w ≤ n)
    (hk : ∀ a, Implements (n - w) (k a) (fun d => q (a, d))) : Implements n (c >>= k) (fun d => read d >>= q) := by
  refine h.bindLeaving hle (fun d a rest hd hread => ?_) hk
  have hlen := hw d a rest hread
  omega

theorem Implements.times (h : Implements n c read) (hw : FixedWidth n read) (k : Nat) :
    Implements (n * k) (Cursor.times c k) (readTimes read k) := by
  induction k with
  | zero => exact Implements.pure []
  | succ k ih =>
    have hk : n * (k + 1) - n = n * k := by rw [Nat.mul_succ, Nat.add_sub_cancel]
    have hstep := h.bindFixed (n := n * (k + 1)) hw (Nat.le_mul_of_pos_right n k.succ_pos)
      (k := fun a => Cursor.times c k >>= fun as => Pure.pure (a :: as))
      (q := fun r => readTimes read k r.2 >>= fun rs => some (r.1 :: rs.1, rs.2))
      (fun a => by
        rw [hk]
        exact ih.bind (q := fun rs => some (a :: rs.1, rs.2)) fun as => Implements.pure (a :: as))
    have hread : ∀ d, readTimes read (k + 1) d =
        (read d >>= fun r => readTimes read k r.2 >>= fun rs => some (r.1 :: rs.1, rs.2)) := by
      intro d
      simp only [readTimes, Option.bind_eq_bind, Option.map_eq_bind]
      rfl
    exact ⟨fun data i hi => (hstep.eq data i hi).trans (by rw [hread]), fun d a rest hr => hstep.suffix d a rest (hread d ▸ hr)⟩

theorem FixedWidth.short (h : FixedWidth n read) : ∀ d, d.length < n → read d = none := by
  intro d hd
  cases hread : read d with
  | none => rfl
  | some r =>
    have hlen := h d r.1 r.2 hread
    omega

theorem FixedWidth.times (h : FixedWidth n read) (k : Nat) : FixedWidth (n * k) (readTimes read k) := by
  induction k with
  | zero =>
    intro d as rest hread
    obtain ⟨rfl, rfl⟩ := Prod.mk.inj (Option.some.inj hread)
    rfl
  | succ k ih =>
    intro d as rest hread
    simp only [readTimes, Option.bind_eq_some_iff, Option.map_eq_some_iff] at hread
    obtain ⟨⟨a, rest'⟩, hfirst, ⟨⟨bs, rest''⟩, hothers, heq⟩⟩ := hread
    obtain ⟨rfl, rfl⟩ := Prod.mk.inj heq
    have hlen := h _ _ _ hfirst
    have hlen' : rest'.length = rest''.length + n * k := ih _ _ _ hothers
    change d.length = rest''.length + n * (k + 1)
    rw [Nat.mul_succ]
    omega

/-- The array reads of the source that check the length themselves. -/
theorem need_array_implements (n : Nat) :
    Implements 0 (need n >>= fun _ => array n) (readArray n) :=
  (array_implements n).checked (readArray_fixedWidth n).short

/-- A length check, the field that it covers, and what follows. -/
theorem Implements.needBind (h : Implements n c read) (hshort : ∀ d, d.length < n → read d = none)
    (hk : ∀ a, Implements 0 (k a) (fun d => q (a, d))) :
    Implements 0 (need n >>= fun _ => c >>= k) (fun d => read d >>= q) :=
  (h.bind hk).checked fun d hd => by rw [hshort d hd]; rfl

theorem need_u8_implements : Implements 0 (need 1 >>= fun _ => u8) readU8 :=
  u8_implements.checked readU8_fixedWidth.short

theorem need_u16_implements : Implements 0 (need 2 >>= fun _ => u16) readU16 :=
  u16_implements.checked readU16_fixedWidth.short

theorem readIf_true_eq (d : Buf) : readIf true read d = (read d >>= fun r => some (some r.1, r.2)) := by
  simp only [readIf, if_true, Option.bind_eq_bind, Option.map_eq_bind]
  rfl

theorem Implements.ifPresent (h : Implements 0 c read) (present : Bool) :
    Implements 0 (ifPresent present c) (readIf present read) := by
  cases present with
  | false => exact Implements.pure none
  | true =>
    have hmap := h.bind (q := fun r => some (some r.1, r.2)) fun a => Implements.pure (some a)
    refine ⟨fun data i hi => (hmap.eq data i hi).trans ?_, fun d a rest hread => hmap.suffix d a rest ?_⟩
    · rw [readIf_true_eq]
    · rw [← readIf_true_eq]
      exact hread

/-- **A cursor never leaves the buffer**, and answers with the offset behind what the reader has read. -/
theorem Implements.parse (h : Implements 0 c read) (data : Buf) : Cursor.parse c data = atOffset data (read data) := by
  have heq := h.eq data 0 (by omega)
  rw [List.drop_zero] at heq
  exact heq

end

/-! ## Codecs -/

/-- Serializer and parser are inverse: what is well formed is read back, at the offset behind it, and what
    is accepted is well formed, serializes to as many bytes as were taken, and lies in the buffer. -/
structure RoundTrip (WellFormed : α → Prop) (serialize : α → Buf) (parse : Buf → Except ReadFault (α × Nat)) : Prop where
  parse_serialize : ∀ h payload, WellFormed h → parse (serialize h ++ payload) = .ok (h, (serialize h).length)
  serialize_parse : ∀ data h n, parse data = .ok (h, n) →
    WellFormed h ∧ n ≤ data.length ∧ n = (serialize h).length ∧ parse (serialize h) = .ok (h, n)
  inBounds : ∀ data, parse data ≠ .error .outOfBounds

section
variable {WellFormed : α → Prop} {serialize : α → Buf} {c : Cursor α} {read : Buf → Option (α × Buf)}

/-- The bytes taken need not be the ones that the serializer writes (reserved bits), only as many. -/
theorem roundTrip_of_implements (h : Implements 0 c read)
    (complete : ∀ a rest, WellFormed a → read (serialize a ++ rest) = some (a, rest))
    (sound : ∀ d a rest, read d = some (a, rest) → WellFormed a ∧ d.length = (serialize a).length + rest.length) :
    RoundTrip WellFormed serialize (Cursor.parse c) := by
  have hserialize : ∀ a payload, WellFormed a →
      Cursor.parse c (serialize a ++ payload) = .ok (a, (serialize a).length) := by
    intro a payload ha
    rw [h.parse, complete a payload ha]
    simp only [atOffset, List.length_append, Nat.add_sub_cancel]
  refine ⟨hserialize, fun data a n hparse => ?_, fun data hbounds => ?_⟩
  · rw [h.parse] at hparse
    cases hread : read data with
    | none =>
      rw [hread] at hparse
      cases hparse
    | some r =>
      obtain ⟨b, rest⟩ := r
      rw [hread] at hparse
      obtain ⟨rfl, rfl⟩ := Prod.mk.inj (Except.ok.inj hparse)
      obtain ⟨hwf, hlen⟩ := sound data b rest hread
      have hn : data.length - rest.length = (serialize b).length := by omega
      have hagain := hserialize b [] hwf
      rw [List.append_nil] at hagain
      exact ⟨hwf, by omega, hn, by rw [hagain, hn]⟩
  · rw [h.parse] at hbounds
    cases hread : read data with
    | none =>
      rw [hread] at hbounds
      cases hbounds
    | some r =>
      rw [hread] at hbounds
      cases hbounds

/-- A header and the one behind it. -/
theorem RoundTrip.parse_both {β : Type} {parse : Buf → Except ReadFault (α × Nat)} (h : RoundTrip WellFormed serialize parse)
    {WellFormed' : β → Prop} {serialize' : β → Buf} {parse' : Buf → Except ReadFault (β × Nat)}
    (h' : RoundTrip WellFormed' serialize' parse') {a : α} {b : β} (ha : WellFormed a) (hb : WellFormed' b) (payload : Buf) :
    parse (serialize a ++ (serialize' b ++ payload)) = .ok (a, (serialize a).length) ∧
      parse' ((serialize a ++ (serialize' b ++ payload)).drop (serialize a).length) = .ok (b, (serialize' b).length) ∧
      (serialize a ++ (serialize' b ++ payload)).drop ((serialize a).length + (serialize' b).length) = payload := by
  refine ⟨h.parse_serialize a _ ha, ?_, ?_⟩
  · rw [List.drop_left]
    exact h'.parse_serialize b payload hb
  · rw [← List.drop_drop, List.drop_left, List.drop_left]

end

end Bytes
