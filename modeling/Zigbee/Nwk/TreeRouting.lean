import Mathlib.Tactic.Ring
import Zigbee.Types

/-!
# Tree routing

Model of `RoutingTable::tree_route` and `cskip_value` of `zigbee-nwk/src/routing.rs`.

* `cskipValue`, `treeRoute` — the source's functions; the routing table itself is not read.
* `Device`, `AddressTree` — the devices of a tree by their places, addressed by the rule in the comments of
  `tree_route`.
* `blockSize` — the addresses of a device and of everything below it.
* `AddressTree.walk` — a frame that follows `treeRoute`, and goes to the parent where there is no answer.
* `tree_route_iff` — from which routers a device is found, and from which it is reached.
-/

namespace Zigbee.Nwk

/-- A `u32` operation that must not overflow. -/
def checkedU32 (v : Nat) : Option Nat := if v < 2 ^ 32 then some v else none

/-- Children of one device, `max_children`. -/
def CM : Nat := 20

def cskipNumerator (rm rmPow : Nat) : Option Nat := do
  let v ← checkedU32 (CM * rmPow)
  let v ← checkedU32 (v + rm)
  if CM + 1 ≤ v then some (v - (CM + 1)) else none

def cskipValue (depth maxRouters maxDepth : UInt8) : UInt16 :=
  if depth ≥ maxDepth then 0
  else if maxRouters.toNat = 0 then 0
  else if maxRouters.toNat = 1 then 1
  else
    match checkedU32 (maxRouters.toNat ^ (maxDepth.toNat - depth.toNat - 1)) with
    | none => 0
    | some rmPow =>
      match cskipNumerator maxRouters.toNat rmPow with
      | none => 0
      | some numerator =>
        let cskip := numerator / (maxRouters.toNat - 1)
        if cskip < 2 ^ 16 then UInt16.ofNat cskip else 0

def treeRoute (ourAddr dstAddr : ShortAddress) (depth maxRouters maxDepth : UInt8) : Option ShortAddress :=
  let cskip := (cskipValue depth maxRouters maxDepth).toNat
  if cskip = 0 then none
  else
    let dst := dstAddr.toNat
    let our := ourAddr.toNat
    if dst > our ∧ dst < our + cskip then
      match (List.range' 1 maxRouters.toNat).find? fun i =>
          decide (our + (i - 1) * cskip + 1 ≤ dst ∧ dst < our + (i - 1) * cskip + 1 + cskip) with
      | some i => some (UInt16.ofNat (our + (i - 1) * cskip + 1))
      | none => some (UInt16.ofNat dst)
    else none

/-! ## Address trees -/

/-- A device by its place: the router numbers on the way from the root, and the number of an end device. -/
inductive Device where
  | router (path : List Nat)
  | endDevice (path : List Nat) (n : Nat)
  deriving DecidableEq, Repr

namespace Device

/-- The router that the device is, or hangs on. -/
def path : Device → List Nat
  | router p => p
  | endDevice p _ => p

def depth : Device → Nat
  | router p => p.length
  | endDevice p _ => p.length + 1

end Device

section Rule

variable (rm lm : UInt8)

/-- `CSkip` at a depth. -/
def cskip (depth : Nat) : Nat := (cskipValue (UInt8.ofNat depth) rm lm).toNat

/-- The rule for a router's child router. -/
def routerChild (node depth i : Nat) : Nat := node + (i - 1) * cskip rm lm depth + 1

/-- The rule for a router's child end device. -/
def endDeviceChild (node depth n : Nat) : Nat := node + rm.toNat * cskip rm lm depth + n

/-- The router at the end of a path, from a node at some depth. -/
def routerFrom (node depth : Nat) : List Nat → Nat
  | [] => node
  | i :: p => routerFrom (routerChild rm lm node depth i) (depth + 1) p

/-- A device's address, from the root at 0. -/
def deviceAddress : Device → Nat
  | .router p => routerFrom rm lm 0 0 p
  | .endDevice p n => endDeviceChild rm lm (routerFrom rm lm 0 0 p) p.length n

/-- A number that a child router can have. -/
def RouterIndex (i : Nat) : Prop := 1 ≤ i ∧ i ≤ rm.toNat ∧ i ≤ CM

/-- A number that a child end device can have. -/
def EndDeviceIndex (n : Nat) : Prop := 1 ≤ n ∧ n + rm.toNat ≤ CM

instance (i : Nat) : Decidable (RouterIndex rm i) := inferInstanceAs (Decidable (_ ∧ _ ∧ _))

instance (n : Nat) : Decidable (EndDeviceIndex rm n) := inferInstanceAs (Decidable (_ ∧ _))

/-- The device's parent is there, and the device has one of its children's numbers. -/
def Placed (devices : List Device) : Device → Prop
  | .router p => p = [] ∨ (.router p.dropLast ∈ devices ∧ RouterIndex rm (p.getLastD 0) ∧ p.length ≤ lm.toNat)
  | .endDevice p n => .router p ∈ devices ∧ EndDeviceIndex rm n ∧ p.length < lm.toNat

instance (devices : List Device) : DecidablePred (Placed rm lm devices)
  | .router _ => inferInstanceAs (Decidable (_ ∨ _ ∧ _ ∧ _))
  | .endDevice _ _ => inferInstanceAs (Decidable (_ ∧ _ ∧ _))

structure AddressTree where
  devices : List Device
  root : .router [] ∈ devices
  placed : ∀ d ∈ devices, Placed rm lm devices d
  below : ∀ d ∈ devices, deviceAddress rm lm d < 0xFFF8

/-- `CSkip` fits 16 bits at every depth. -/
def CskipFits : Prop :=
  ∀ d < lm.toNat, (CM * rm.toNat ^ (lm.toNat - d - 1) + rm.toNat - (CM + 1)) / (rm.toNat - 1) < 2 ^ 16

instance : Decidable (CskipFits rm lm) := inferInstanceAs (Decidable (∀ d < _, _))

end Rule

/-- The device is a descendant of the router. -/
def Below (r : List Nat) (d : Device) : Prop := r <+: d.path ∧ d ≠ .router r

instance (r : List Nat) (d : Device) : Decidable (Below r d) := inferInstanceAs (Decidable (_ ∧ _))

/-- The child of a router that a device below it is, or hangs below. -/
def towards (r : List Nat) (d : Device) : Device :=
  match d.path.drop r.length with
  | [] => d
  | i :: _ => .router (r ++ [i])

/-- What tree routing should answer. -/
def nextHop (r : List Nat) (d : Device) : Option Device := if Below r d then some (towards r d) else none

namespace AddressTree

variable {rm lm : UInt8}

def addressOf (_ : AddressTree rm lm) (d : Device) : ShortAddress := UInt16.ofNat (deviceAddress rm lm d)

/-- `tree_route` at a router of the tree. -/
def routeAt (t : AddressTree rm lm) (r : List Nat) (dst : Device) : Option ShortAddress :=
  treeRoute (t.addressOf (.router r)) (t.addressOf dst) (UInt8.ofNat r.length) rm lm

/-- The child of a router with an address. -/
def childAt (t : AddressTree rm lm) (r : List Nat) (a : ShortAddress) : Option Device :=
  ((List.range' 1 rm.toNat).map (fun i => Device.router (r ++ [i])) ++ (List.range' 1 CM).map (Device.endDevice r)).find? fun c =>
    decide (c ∈ t.devices ∧ t.addressOf c = a)

/-- One hop, from a router to a child or to its parent. -/
def hop (t : AddressTree rm lm) (dst : Device) : Device → Option Device
  | .router r =>
    match t.routeAt r dst with
    | some a => t.childAt r a
    | none => if r = [] then none else some (.router r.dropLast)
  | .endDevice _ _ => none

/-- Where a frame is after a number of hops; it stops at its destination. -/
def walk (t : AddressTree rm lm) (dst : Device) : Nat → Device → Option Device
  | 0, u => some u
  | k + 1, u => if u = dst then some u else (t.hop dst u).bind (t.walk dst k)

end AddressTree

/-! ## Address blocks -/

/-- The addresses of a router with some levels below it, and of everything below it. -/
def blockSize (rm : Nat) : Nat → Nat
  | 0 => 1
  | k + 1 => CM + 1 + rm * (blockSize rm k - 1)

theorem blockSize_pos (rm k : Nat) : 1 ≤ blockSize rm k := by
  cases k with
  | zero => exact le_rfl
  | succ k =>
    rw [blockSize]
    omega

variable {rm : Nat}

/-- The geometric sum of the specification. -/
theorem mul_blockSize (hrm : 2 ≤ rm) (k : Nat) : (rm - 1) * blockSize rm k + (CM + 1) = CM * rm ^ k + rm := by
  obtain ⟨m, rfl⟩ : ∃ m, rm = m + 1 := ⟨rm - 1, by omega⟩
  rw [Nat.add_sub_cancel]
  induction k with
  | zero =>
    simp [blockSize, CM]
    omega
  | succ k ih =>
    obtain ⟨b, hb⟩ : ∃ b, blockSize (m + 1) k = b + 1 := ⟨blockSize (m + 1) k - 1, by have := blockSize_pos (m + 1) k; omega⟩
    rw [hb] at ih
    rw [blockSize, hb, Nat.add_sub_cancel, pow_succ]
    have hpow : CM * (m + 1) ^ k = m * (b + 1) + (CM + 1) - (m + 1) := by omega
    simp only [CM] at *
    nlinarith

theorem blockSize_eq_div (hrm : 2 ≤ rm) (k : Nat) : (CM * rm ^ k + rm - (CM + 1)) / (rm - 1) = blockSize rm k := by
  rw [← mul_blockSize hrm k, Nat.add_sub_cancel, Nat.mul_div_cancel_left _ (by omega)]

theorem blockSize_le_succ (hrm : 1 ≤ rm) (k : Nat) : blockSize rm k ≤ blockSize rm (k + 1) := by
  have hpos := blockSize_pos rm k
  have hmul := Nat.mul_le_mul_right (blockSize rm k - 1) hrm
  rw [blockSize]
  omega

variable {i : Nat}

/-- The blocks of the child routers fit in the block. -/
theorem mul_child_le (k : Nat) (hi : i ≤ rm) (hcm : i ≤ CM) : i * blockSize rm k + 1 ≤ blockSize rm (k + 1) := by
  obtain ⟨b, hb⟩ : ∃ b, blockSize rm k = b + 1 := ⟨blockSize rm k - 1, by have := blockSize_pos rm k; omega⟩
  have hmul := Nat.mul_le_mul_right b hi
  rw [blockSize, hb, Nat.add_sub_cancel, Nat.mul_succ]
  omega

/-- The end devices come behind them, in the block. -/
theorem endDevice_lt {n : Nat} (k : Nat) (hcm : n + rm ≤ CM) : rm * blockSize rm k + n < blockSize rm (k + 1) := by
  obtain ⟨b, hb⟩ : ∃ b, blockSize rm k = b + 1 := ⟨blockSize rm k - 1, by have := blockSize_pos rm k; omega⟩
  rw [blockSize, hb, Nat.add_sub_cancel, Nat.mul_succ]
  omega

section Cskip

variable {rm lm : UInt8}

theorem depth_toNat {d : Nat} (hd : d ≤ lm.toNat) : (UInt8.ofNat d).toNat = d := by
  have := lm.toNat_lt
  rw [UInt8.toNat_ofNat_of_lt']
  simpa [UInt8.size] using (by omega : d < 256)

theorem cskip_leaf {d : Nat} (hd : d = lm.toNat) : cskip rm lm d = 0 := by
  have hge : UInt8.ofNat d ≥ lm := by rw [ge_iff_le, UInt8.le_iff_toNat_le, depth_toNat hd.le, hd]
  rw [cskip, cskipValue, if_pos hge]
  rfl

/-- `CSkip` is the block of a child router. -/
theorem cskip_eq (hfits : CskipFits rm lm) (hrm : 2 ≤ rm.toNat) {d : Nat} (hd : d < lm.toNat) :
    cskip rm lm d = blockSize rm.toNat (lm.toNat - d - 1) := by
  have hfit := hfits d hd
  have hmul := mul_blockSize hrm (lm.toNat - d - 1)
  rw [blockSize_eq_div hrm] at hfit
  have hlt : rm.toNat < 2 ^ 8 := rm.toNat_lt
  have hbound : (rm.toNat - 1) * blockSize rm.toNat (lm.toNat - d - 1) ≤ 2 ^ 8 * 2 ^ 16 := Nat.mul_le_mul (by omega) hfit.le
  have hge : ¬ UInt8.ofNat d ≥ lm := by
    rw [ge_iff_le, UInt8.le_iff_toNat_le, depth_toNat hd.le]
    omega
  have hsub : (rm.toNat - 1) * blockSize rm.toNat (lm.toNat - d - 1) =
      CM * rm.toNat ^ (lm.toNat - d - 1) + rm.toNat - (CM + 1) := by omega
  have hpow : rm.toNat ^ (lm.toNat - d - 1) ≤ CM * rm.toNat ^ (lm.toNat - d - 1) := Nat.le_mul_of_pos_left _ (by decide)
  have hcm : CM = 20 := rfl
  rw [cskip, cskipValue, if_neg hge, if_neg (by omega), if_neg (by omega), depth_toNat hd.le, checkedU32, if_pos (by omega)]
  simp only [cskipNumerator, checkedU32]
  rw [if_pos (by omega), Option.bind_eq_bind, Option.bind_some, if_pos (by omega), Option.bind_some, if_pos (by omega)]
  dsimp only
  rw [← hsub, Nat.mul_div_cancel_left _ (by omega), if_pos hfit, UInt16.toNat_ofNat_of_lt' (by simpa [UInt16.size] using hfit)]

theorem cskip_le_one (hrm : rm.toNat < 2) (d : Nat) : cskip rm lm d ≤ 1 := by
  rw [cskip, cskipValue]
  split
  · exact Nat.zero_le 1
  · split
    · exact Nat.zero_le 1
    · rw [if_pos (by omega)]
      exact le_rfl

end Cskip

/-! ## Where the devices of a tree are -/

variable {n : Option Nat} {depth : Nat} {p q r : List Nat}

section Blocks

variable {rm lm : UInt8}

theorem routerFrom_append (node depth : Nat) (p q : List Nat) :
    routerFrom rm lm node depth (p ++ q) = routerFrom rm lm (routerFrom rm lm node depth p) (depth + p.length) q := by
  induction p generalizing node depth with
  | nil => rfl
  | cons i p ih =>
    rw [List.cons_append, routerFrom, ih, routerFrom, List.length_cons]
    congr 1
    omega

theorem le_routerFrom (node depth : Nat) (p : List Nat) : node + p.length ≤ routerFrom rm lm node depth p := by
  induction p generalizing node depth with
  | nil => exact le_rfl
  | cons i p ih =>
    have := ih (routerChild rm lm node depth i) (depth + 1)
    rw [List.length_cons, routerFrom]
    rw [routerChild] at this ⊢
    omega

/-- A device, from a router above it. -/
def deviceFrom (rm lm : UInt8) (node depth : Nat) (p : List Nat) : Option Nat → Nat
  | none => routerFrom rm lm node depth p
  | some n => endDeviceChild rm lm (routerFrom rm lm node depth p) (depth + p.length) n

theorem deviceFrom_cons (node depth i : Nat) (q : List Nat) (n : Option Nat) :
    deviceFrom rm lm node depth (i :: q) n = deviceFrom rm lm (routerChild rm lm node depth i) (depth + 1) q n := by
  cases n with
  | none => rfl
  | some n =>
    rw [deviceFrom, deviceFrom, routerFrom, List.length_cons]
    congr 1
    omega

/-- The place below a router. -/
def ValidPlace (rm lm : UInt8) (depth : Nat) (p : List Nat) : Option Nat → Prop
  | none => (∀ i ∈ p, RouterIndex rm i) ∧ depth + p.length ≤ lm.toNat
  | some n => (∀ i ∈ p, RouterIndex rm i) ∧ EndDeviceIndex rm n ∧ depth + p.length < lm.toNat

theorem ValidPlace.path (h : ValidPlace rm lm depth p n) : (∀ i ∈ p, RouterIndex rm i) ∧ depth + p.length ≤ lm.toNat := by
  cases n with
  | none => exact h
  | some n => exact ⟨h.1, h.2.2.le⟩

theorem ValidPlace.tail (h : ValidPlace rm lm depth (i :: p) n) : ValidPlace rm lm (depth + 1) p n := by
  have hindex : ∀ j ∈ p, RouterIndex rm j := fun j hj => h.path.1 j (List.mem_cons_of_mem i hj)
  cases n with
  | none =>
    refine ⟨hindex, ?_⟩
    have := h.2
    rw [List.length_cons] at this
    omega
  | some n =>
    refine ⟨hindex, h.2.1, ?_⟩
    have := h.2.2
    rw [List.length_cons] at this
    omega

theorem validPlace_drop (h : ValidPlace rm lm depth (p ++ i :: q) n) : ValidPlace rm lm (depth + p.length + 1) q n := by
  induction p generalizing depth with
  | nil => exact h.tail
  | cons j p ih =>
    have hrest := ih (List.cons_append ▸ h).tail
    have hlen : depth + 1 + p.length + 1 = depth + (j :: p).length + 1 := by
      rw [List.length_cons]
      omega
    rw [hlen] at hrest
    exact hrest

variable (hfits : CskipFits rm lm) (hrm : 2 ≤ rm.toNat)

include hfits hrm

/-- A child router's block lies in its parent's. -/
theorem child_block (node : Nat) (hdepth : depth < lm.toNat) (hi : RouterIndex rm i) :
    routerChild rm lm node depth i = node + (i - 1) * blockSize rm.toNat (lm.toNat - (depth + 1)) + 1 ∧
      routerChild rm lm node depth i + blockSize rm.toNat (lm.toNat - (depth + 1)) ≤ node + blockSize rm.toNat (lm.toNat - depth) := by
  obtain ⟨hpos, hle, hcm⟩ := hi
  have hblock := mul_child_le (lm.toNat - (depth + 1)) hle hcm
  have hsucc : lm.toNat - (depth + 1) + 1 = lm.toNat - depth := by omega
  have hmul : i * blockSize rm.toNat (lm.toNat - (depth + 1)) =
      (i - 1) * blockSize rm.toNat (lm.toNat - (depth + 1)) + blockSize rm.toNat (lm.toNat - (depth + 1)) := by
    obtain ⟨j, rfl⟩ : ∃ j, i = j + 1 := ⟨i - 1, by omega⟩
    rw [Nat.add_sub_cancel, Nat.succ_mul]
  rw [hsucc] at hblock
  have hchild : routerChild rm lm node depth i = node + (i - 1) * blockSize rm.toNat (lm.toNat - (depth + 1)) + 1 := by
    rw [routerChild, cskip_eq hfits hrm hdepth, Nat.sub_sub]
  refine ⟨hchild, ?_⟩
  rw [hchild]
  omega

/-- A router's block lies in the block of every router above it. -/
theorem router_block (node depth : Nat) (hindex : ∀ i ∈ p, RouterIndex rm i) (hdepth : depth + p.length ≤ lm.toNat) :
    node ≤ routerFrom rm lm node depth p ∧
      routerFrom rm lm node depth p + blockSize rm.toNat (lm.toNat - (depth + p.length)) ≤
        node + blockSize rm.toNat (lm.toNat - depth) := by
  induction p generalizing node depth with
  | nil => exact ⟨le_rfl, le_rfl⟩
  | cons i p ih =>
    rw [List.length_cons] at hdepth
    obtain ⟨hchild, hblock⟩ := child_block hfits hrm node (show depth < lm.toNat by omega) (hindex i List.mem_cons_self)
    obtain ⟨hge, hle⟩ := ih (routerChild rm lm node depth i) (depth + 1)
      (fun j hj => hindex j (List.mem_cons_of_mem i hj)) (by omega)
    have hlen : depth + 1 + p.length = depth + (p.length + 1) := by omega
    rw [hlen] at hle
    rw [routerFrom, List.length_cons]
    omega

/-- Every device below a router is in the router's block. -/
theorem device_block (node : Nat) (h : ValidPlace rm lm depth p n) :
    node ≤ deviceFrom rm lm node depth p n ∧ deviceFrom rm lm node depth p n < node + blockSize rm.toNat (lm.toNat - depth) := by
  obtain ⟨hindex, hdepth⟩ := h.path
  obtain ⟨hge, hle⟩ := router_block hfits hrm node depth hindex hdepth
  have hpos := blockSize_pos rm.toNat (lm.toNat - (depth + p.length))
  cases n with
  | none =>
    rw [deviceFrom]
    omega
  | some n =>
    obtain ⟨-, ⟨hn, hcm⟩, hlt⟩ := h
    have hend := endDevice_lt (lm.toNat - (depth + p.length) - 1) hcm
    have hsucc : lm.toNat - (depth + p.length) - 1 + 1 = lm.toNat - (depth + p.length) := by omega
    rw [hsucc] at hend
    rw [deviceFrom, endDeviceChild, cskip_eq hfits hrm hlt]
    omega

/-- A device that is not below a router is outside the router's block. -/
theorem device_outside (node : Nat) (hr : ∀ i ∈ r, RouterIndex rm i) (hdepth : depth + r.length ≤ lm.toNat)
    (h : ValidPlace rm lm depth p n) (hnot : ¬ r <+: p) :
    deviceFrom rm lm node depth p n < routerFrom rm lm node depth r ∨
      routerFrom rm lm node depth r + blockSize rm.toNat (lm.toNat - (depth + r.length)) ≤ deviceFrom rm lm node depth p n := by
  induction r generalizing node depth p with
  | nil => exact absurd List.nil_prefix hnot
  | cons i r ih =>
    rw [List.length_cons] at hdepth
    have hri := hr i List.mem_cons_self
    have hrr : ∀ j ∈ r, RouterIndex rm j := fun j hj => hr j (List.mem_cons_of_mem i hj)
    have hlen : depth + 1 + r.length = depth + (i :: r).length := by
      rw [List.length_cons]
      omega
    obtain ⟨hchild, -⟩ := child_block hfits hrm node (show depth < lm.toNat by omega) hri
    obtain ⟨hge, hle⟩ := router_block hfits hrm (routerChild rm lm node depth i) (depth + 1) hrr (by omega)
    rw [hlen] at hle
    set b := blockSize rm.toNat (lm.toNat - (depth + 1)) with hb
    have hstep : ∀ {j k : Nat}, j + 1 ≤ k → (j + 1) * b ≤ k * b := fun hjk => Nat.mul_le_mul_right b hjk
    cases p with
    | nil =>
      cases n with
      | none =>
        -- the device is above the router
        left
        rw [deviceFrom, routerFrom, routerFrom]
        omega
      | some n =>
        -- an end device of a router above it
        right
        have hend := hstep (j := i - 1) (k := rm.toNat) (by have := hri.1; have := hri.2.1; omega)
        rw [Nat.succ_mul] at hend
        have hn := h.2.1.1
        have hskip : cskip rm lm depth = b := by rw [cskip_eq hfits hrm (by omega), Nat.sub_sub]
        rw [deviceFrom, routerFrom, routerFrom, endDeviceChild, List.length_nil, Nat.add_zero depth, hskip]
        omega
    | cons j p =>
      have hpj := h.path.1 j List.mem_cons_self
      have htail := h.tail
      obtain ⟨hchild', -⟩ := child_block hfits hrm node (show depth < lm.toNat by omega) hpj
      obtain ⟨hge', hle'⟩ := device_block hfits hrm (routerChild rm lm node depth j) htail
      rw [← hb] at hchild' hle'
      rw [deviceFrom_cons, routerFrom]
      by_cases hij : i = j
      case pos =>
        subst hij
        rw [← hlen]
        exact ih _ hrr (by omega) htail fun hfront => hnot (List.cons_prefix_cons.mpr ⟨rfl, hfront⟩)
      case neg =>
        have hi := hri.1
        have hj := hpj.1
        rcases Nat.lt_or_gt_of_ne hij with hlt | hgt
        · right
          have := hstep (j := i - 1) (k := j - 1) (by omega)
          rw [Nat.succ_mul] at this
          omega
        · left
          have := hstep (j := j - 1) (k := i - 1) (by omega)
          rw [Nat.succ_mul] at this
          omega

end Blocks

/-! ## The devices of a tree -/

variable {d : Device}

namespace AddressTree

variable {rm lm : UInt8} {t : AddressTree rm lm}

theorem mem_router_dropLast (h : .router (p ++ [i]) ∈ t.devices) :
    .router p ∈ t.devices ∧ RouterIndex rm i ∧ (p ++ [i]).length ≤ lm.toNat := by
  rcases t.placed _ h with hnil | ⟨hparent, hindex, hdepth⟩
  · simp at hnil
  · rw [List.dropLast_concat] at hparent
    rw [List.getLastD_concat] at hindex
    exact ⟨hparent, hindex, hdepth⟩

theorem mem_router_of_prefix (h : .router (p ++ q) ∈ t.devices) : .router p ∈ t.devices := by
  induction q using List.reverseRecOn with
  | nil => simpa using h
  | append_singleton q i ih =>
    rw [← List.append_assoc] at h
    exact ih (mem_router_dropLast h).1

theorem router_valid (h : .router p ∈ t.devices) : (∀ i ∈ p, RouterIndex rm i) ∧ p.length ≤ lm.toNat := by
  induction p using List.reverseRecOn with
  | nil => exact ⟨nofun, Nat.zero_le _⟩
  | append_singleton p i ih =>
    obtain ⟨hparent, hindex, hdepth⟩ := mem_router_dropLast h
    refine ⟨fun j hj => ?_, hdepth⟩
    rcases List.mem_append.mp hj with hj | hj
    · exact (ih hparent).1 j hj
    · rw [List.mem_singleton.mp hj]
      exact hindex

theorem mem_router_path (h : d ∈ t.devices) : .router d.path ∈ t.devices := by
  cases d with
  | router p => exact h
  | endDevice p n => exact (t.placed _ h).1

/-- The number of an end device. -/
def number : Device → Option Nat
  | .router _ => none
  | .endDevice _ n => some n

theorem device_valid (h : d ∈ t.devices) : ValidPlace rm lm 0 d.path (number d) := by
  cases d with
  | router p =>
    obtain ⟨hindex, hdepth⟩ := router_valid h
    exact ⟨hindex, (Nat.zero_add p.length).trans_le hdepth⟩
  | endDevice p n =>
    obtain ⟨hparent, hn, hdepth⟩ := t.placed _ h
    exact ⟨(router_valid hparent).1, hn, (Nat.zero_add p.length).trans_lt hdepth⟩

theorem deviceAddress_eq (d : Device) : deviceAddress rm lm d = deviceFrom rm lm 0 0 d.path (number d) := by
  cases d with
  | router p => rfl
  | endDevice p n =>
    rw [deviceAddress, Device.path, number, deviceFrom, Nat.zero_add]

theorem addressOf_toNat (h : d ∈ t.devices) : (t.addressOf d).toNat = deviceAddress rm lm d := by
  have := t.below d h
  rw [addressOf, UInt16.toNat_ofNat_of_lt']
  rw [UInt16.size]
  omega

/-- A device below a router, from that router. -/
theorem address_append (n : Option Nat) :
    deviceFrom rm lm 0 0 (r ++ q) n = deviceFrom rm lm (deviceAddress rm lm (.router r)) r.length q n := by
  cases n with
  | none => rw [deviceFrom, deviceFrom, routerFrom_append, Nat.zero_add, deviceAddress]
  | some n => rw [deviceFrom, deviceFrom, routerFrom_append, Nat.zero_add, Nat.zero_add, deviceAddress, List.length_append]

/-- The child of a router that a device is below, with its address. -/
inductive Child (r : List Nat) (d : Device) : Prop where
  | router (i : Nat) (q : List Nat) (hpath : d.path = r ++ i :: q) (htowards : towards r d = .router (r ++ [i]))
  | endDevice (n : Nat) (hdevice : d = .endDevice r n) (htowards : towards r d = d)

theorem child_of_below (h : Below r d) : Child r d := by
  obtain ⟨⟨q, hq⟩, hne⟩ := h
  cases q with
  | nil =>
    rw [List.append_nil] at hq
    have htowards : towards r d = d := by
      rw [towards, ← hq, List.drop_length]
    cases d with
    | router p => exact absurd (congrArg Device.router hq.symm) hne
    | endDevice p n =>
      cases hq
      exact .endDevice n rfl htowards
  | cons i q =>
    refine .router i q hq.symm ?_
    rw [towards, ← hq, List.drop_left]

theorem towards_mem (hd : d ∈ t.devices) (h : Below r d) : towards r d ∈ t.devices := by
  cases child_of_below h with
  | router i q hpath htowards =>
    rw [htowards]
    have hrouter := mem_router_path hd
    rw [hpath, ← List.singleton_append, ← List.append_assoc] at hrouter
    exact mem_router_of_prefix hrouter
  | endDevice n hdevice htowards =>
    rw [htowards]
    exact hd

/-- A device below a router has a larger address. -/
theorem address_lt_of_below (hd : d ∈ t.devices) (h : Below r d) : deviceAddress rm lm (.router r) < deviceAddress rm lm d := by
  rw [deviceAddress_eq d]
  cases child_of_below h with
  | router i q hpath _ =>
    rw [hpath, address_append]
    have hlen := @le_routerFrom rm lm (deviceAddress rm lm (.router r)) r.length (i :: q)
    rw [List.length_cons] at hlen
    cases number d with
    | none =>
      rw [deviceFrom]
      omega
    | some n =>
      rw [deviceFrom, endDeviceChild]
      omega
  | endDevice n hdevice _ =>
    have hn := (device_valid hd)
    subst hdevice
    have hpos := hn.2.1.1
    rw [Device.path, number, deviceFrom, endDeviceChild, deviceAddress]
    omega

/-! ## The answer at one router -/

/-- The device's address is below `CSkip` from the router's. -/
def Near (rm lm : UInt8) (r : List Nat) (d : Device) : Prop :=
  deviceAddress rm lm d < deviceAddress rm lm (.router r) + cskip rm lm r.length

instance (r : List Nat) (d : Device) : Decidable (Near rm lm r d) := inferInstanceAs (Decidable (_ < _))

/-- The answer is the first child router, or none. -/
theorem treeRoute_eq (our dst : ShortAddress) (depth rm lm : UInt8) :
    treeRoute our dst depth rm lm =
      if our.toNat < dst.toNat ∧ dst.toNat < our.toNat + (cskipValue depth rm lm).toNat then some (UInt16.ofNat (our.toNat + 1)) else none := by
  rw [treeRoute]
  by_cases hwindow : our.toNat < dst.toNat ∧ dst.toNat < our.toNat + (cskipValue depth rm lm).toNat
  case neg =>
    rw [if_neg hwindow]
    split
    · rfl
    · rfl
  case pos =>
    have hrm : rm.toNat ≠ 0 := by
      intro hzero
      rw [cskipValue, if_pos hzero, ite_self] at hwindow
      have hnone : (0 : UInt16).toNat = 0 := rfl
      omega
    obtain ⟨k, hk⟩ := Nat.exists_eq_succ_of_ne_zero hrm
    rw [if_pos hwindow, if_neg (by omega), if_pos hwindow, hk, List.range'_succ, List.find?_cons_of_pos]
    · simp
    · simp
      omega

theorem routeAt_window (hr : .router r ∈ t.devices) (hd : d ∈ t.devices) :
    t.routeAt r d =
      if deviceAddress rm lm (.router r) < deviceAddress rm lm d ∧ Near rm lm r d then
        some (UInt16.ofNat (deviceAddress rm lm (.router r) + 1))
      else none := by
  rw [routeAt, treeRoute_eq, addressOf_toNat hr, addressOf_toNat hd]
  rfl

variable (hfits : CskipFits rm lm)

include hfits

/-- The window is the part of the router's block before `CSkip`. -/
theorem below_of_window (hr : .router r ∈ t.devices) (hd : d ∈ t.devices) (hlt : deviceAddress rm lm (.router r) < deviceAddress rm lm d)
    (hnear : Near rm lm r d) : Below r d := by
  refine ⟨?_, fun heq => by rw [heq] at hlt; exact absurd hlt (lt_irrefl _)⟩
  by_contra hnot
  rw [Near] at hnear
  obtain ⟨hindex, hdepth⟩ := router_valid hr
  by_cases hrm : rm.toNat < 2
  case pos =>
    have := @cskip_le_one rm lm hrm r.length
    omega
  case neg =>
    have houtside := device_outside hfits (by omega) 0 hindex (by omega) (device_valid hd) hnot
    rw [← deviceAddress_eq, Nat.zero_add] at houtside
    have hrouter : routerFrom rm lm 0 0 r = deviceAddress rm lm (.router r) := rfl
    rw [hrouter] at houtside
    have hskip : cskip rm lm r.length ≤ blockSize rm.toNat (lm.toNat - r.length) := by
      by_cases hleaf : r.length = lm.toNat
      · rw [cskip_leaf hleaf]
        exact Nat.zero_le _
      · rw [cskip_eq hfits (by omega) (by omega)]
        have hsucc : lm.toNat - r.length = lm.toNat - r.length - 1 + 1 := by omega
        rw [hsucc]
        exact blockSize_le_succ (by omega) _
    omega

/-- A device below and near a router is in the block of its first child router. -/
theorem towards_first (hd : d ∈ t.devices) (hbelow : Below r d) (hnear : Near rm lm r d) : towards r d = .router (r ++ [1]) := by
  have hlt := address_lt_of_below hd hbelow
  have hvalid := device_valid hd
  rw [Near] at hnear
  have hrm : 2 ≤ rm.toNat := by
    by_contra hrm
    have := @cskip_le_one rm lm (show rm.toNat < 2 by omega) r.length
    omega
  rw [deviceAddress_eq d] at hnear
  cases child_of_below hbelow with
  | router i q hpath htowards =>
    rw [htowards]
    have hi : RouterIndex rm i := hvalid.path.1 i (by rw [hpath]; simp)
    have hdepth := hvalid.path.2
    rw [hpath, address_append, deviceFrom_cons] at hnear
    rw [hpath, List.length_append, List.length_cons] at hdepth
    have hge : routerChild rm lm (deviceAddress rm lm (.router r)) r.length i ≤
        deviceFrom rm lm (routerChild rm lm (deviceAddress rm lm (.router r)) r.length i) (r.length + 1) q (number d) := by
      have hrest : ValidPlace rm lm (r.length + 1) q (number d) := by
        have hpathvalid := hvalid
        rw [hpath] at hpathvalid
        have hrest := validPlace_drop hpathvalid
        rwa [Nat.zero_add] at hrest
      exact (device_block hfits hrm _ hrest).1
    have hchild : routerChild rm lm (deviceAddress rm lm (.router r)) r.length i =
        deviceAddress rm lm (.router r) + (i - 1) * cskip rm lm r.length + 1 := rfl
    have hone : i = 1 := by
      by_contra hne
      have hpos := hi.1
      have hmul : 1 * cskip rm lm r.length ≤ (i - 1) * cskip rm lm r.length := Nat.mul_le_mul_right _ (by omega)
      omega
    rw [hone]
  | endDevice n hdevice _ =>
    subst hdevice
    have hmul : 1 * cskip rm lm r.length ≤ rm.toNat * cskip rm lm r.length := Nat.mul_le_mul_right _ (by omega)
    rw [Device.path, number, deviceFrom, endDeviceChild, Nat.zero_add] at hnear
    rw [deviceAddress] at hnear
    omega

theorem routeAt_eq (hr : .router r ∈ t.devices) (hd : d ∈ t.devices) :
    t.routeAt r d = if Below r d ∧ Near rm lm r d then some (t.addressOf (towards r d)) else none := by
  rw [routeAt_window hr hd]
  by_cases h : Below r d ∧ Near rm lm r d
  case pos =>
    obtain ⟨hbelow, hnear⟩ := h
    rw [if_pos ⟨address_lt_of_below hd hbelow, hnear⟩, if_pos ⟨hbelow, hnear⟩, towards_first hfits hd hbelow hnear, addressOf,
      deviceAddress, deviceAddress, routerFrom_append, routerFrom, routerFrom, routerChild]
    simp
  case neg =>
    rw [if_neg h, if_neg]
    rintro ⟨hlt, hnear⟩
    exact h ⟨below_of_window hfits hr hd hlt hnear, hnear⟩

/-- Tree routing answers at a router as it should. -/
def Correct (t : AddressTree rm lm) (r : List Nat) (d : Device) : Prop := t.routeAt r d = (nextHop r d).map t.addressOf

instance (t : AddressTree rm lm) (r : List Nat) (d : Device) : Decidable (t.Correct r d) := inferInstanceAs (Decidable (_ = _))

theorem correct_iff (hr : .router r ∈ t.devices) (hd : d ∈ t.devices) : t.Correct r d ↔ (Below r d → Near rm lm r d) := by
  rw [Correct, routeAt_eq hfits hr hd, nextHop]
  by_cases hbelow : Below r d
  · by_cases hnear : Near rm lm r d <;> simp [hbelow, hnear]
  · simp [hbelow]

/-! ## Walks -/

/-- The routers between the last common one and the destination: those above it whose child towards it has not the
    start below it. -/
def OnPath (r : List Nat) (d : Device) (q : List Nat) : Prop := Below q d ∧ ∀ c, towards q d = .router c → ¬ c <+: r

omit hfits in
theorem childAt_first (h : .router (r ++ [1]) ∈ t.devices) :
    t.childAt r (t.addressOf (.router (r ++ [1]))) = some (.router (r ++ [1])) := by
  have hrm : 1 ≤ rm.toNat := (mem_router_dropLast h).2.1.2.1
  obtain ⟨k, hk⟩ := Nat.exists_eq_succ_of_ne_zero (show rm.toNat ≠ 0 by omega)
  rw [childAt, hk, List.range'_succ, List.map_cons, List.cons_append, List.find?_cons_of_pos]
  exact decide_eq_true ⟨h, rfl⟩

/-- One hop: towards the destination where it is below and near, else to the parent. -/
theorem hop_eq (hr : .router r ∈ t.devices) (hd : d ∈ t.devices) :
    t.hop d (.router r) =
      if Below r d ∧ Near rm lm r d then some (towards r d) else if r = [] then none else some (.router r.dropLast) := by
  rw [hop, routeAt_eq hfits hr hd]
  by_cases h : Below r d ∧ Near rm lm r d
  case pos =>
    have hmem := towards_mem hd h.1
    have hfirst := towards_first hfits hd h.1 h.2
    rw [hfirst] at hmem
    rw [if_pos h, if_pos h, hfirst]
    exact childAt_first hmem
  case neg => rw [if_neg h, if_neg h]

omit hfits in
theorem walk_self (d : Device) (k : Nat) : t.walk d k d = some d := by
  cases k with
  | zero => rfl
  | succ k => rw [walk, if_pos rfl]

omit hfits in
theorem walk_hop {u v : Device} (h : t.hop d u = some v) (hne : u ≠ d) (k : Nat) : t.walk d (k + 1) u = t.walk d k v := by
  rw [walk, if_neg hne, h, Option.bind_some]

omit hfits in
theorem walk_mono {u : Device} {k l : Nat} (hkl : k ≤ l) (h : t.walk d k u = some d) : t.walk d l u = some d := by
  induction k generalizing l u with
  | zero =>
    cases h
    exact walk_self d l
  | succ k ih =>
    obtain ⟨l, rfl⟩ : ∃ m, l = m + 1 := ⟨l - 1, by omega⟩
    rw [walk] at h ⊢
    split
    · rename_i heq
      rw [heq]
    · rename_i hne
      rw [if_neg hne] at h
      obtain ⟨v, hv, hwalk⟩ := Option.bind_eq_some_iff.mp h
      rw [hv]
      exact ih (by omega) hwalk

omit hfits in
theorem depth_towards (h : Below r d) : (towards r d).depth = r.length + 1 ∧ r.length < d.depth := by
  cases child_of_below h with
  | router i q hpath htowards =>
    refine ⟨by rw [htowards]; simp [Device.depth], ?_⟩
    have hlen := congrArg List.length hpath
    rw [List.length_append, List.length_cons] at hlen
    have hle : d.path.length ≤ d.depth := by
      cases d with
      | router p => exact le_rfl
      | endDevice p n => exact Nat.le_succ _
    omega
  | endDevice n hdevice htowards =>
    rw [htowards]
    subst hdevice
    exact ⟨rfl, Nat.lt_succ_self _⟩

omit hfits in
/-- What is below a router is its child towards it or below that. -/
theorem below_towards (h : Below r d) : towards r d = d ∨ Below (towards r d).path d ∧ towards r d = .router (towards r d).path := by
  cases child_of_below h with
  | router i q hpath htowards =>
    rw [htowards]
    by_cases heq : Device.router (r ++ [i]) = d
    · exact Or.inl heq
    · right
      refine ⟨⟨⟨q, ?_⟩, fun hd => heq hd.symm⟩, rfl⟩
      rw [hpath, Device.path, List.append_assoc, List.singleton_append]
  | endDevice n hdevice htowards => exact Or.inl htowards

/-- Down from a router above the destination. -/
theorem walk_down (hd : d ∈ t.devices) (k : Nat) (hr : .router r ∈ t.devices) (hbelow : Below r d) (hk : d.depth ≤ r.length + k)
    (hnear : ∀ q, r <+: q → Below q d → Near rm lm q d) : t.walk d k (.router r) = some d := by
  induction k generalizing r with
  | zero =>
    have := (depth_towards hbelow).2
    omega
  | succ k ih =>
    have hhop := hop_eq hfits hr hd
    rw [if_pos ⟨hbelow, hnear r List.prefix_rfl hbelow⟩] at hhop
    rw [walk_hop hhop (fun heq => hbelow.2 heq.symm)]
    rcases below_towards hbelow with heq | ⟨hnext, hrouter⟩
    · rw [heq]
      exact walk_self d k
    · have hmem := towards_mem hd hbelow
      have hdepth := (depth_towards hbelow).1
      rw [hrouter] at hmem hdepth ⊢
      have hlen : (towards r d).path.length = r.length + 1 := hdepth
      have hfirst := towards_first hfits hd hbelow (hnear r List.prefix_rfl hbelow)
      refine ih hmem hnext (by omega) fun q hq hqd => hnear q (List.IsPrefix.trans ?_ hq) hqd
      rw [hfirst]
      exact List.prefix_append r [1]

/-- Up to a router above the destination, and down from there. -/
theorem walk_reaches (hd : d ∈ t.devices) (hr : .router r ∈ t.devices) (hnear : ∀ q, OnPath r d q → Near rm lm q d) :
    t.walk d (r.length + d.depth) (.router r) = some d := by
  induction r using List.reverseRecOn with
  | nil =>
    by_cases heq : d = .router []
    · rw [heq]
      exact walk_self _ _
    · refine walk_down hfits hd _ hr ⟨List.nil_prefix, heq⟩ (by omega) fun q _ hq => hnear q ⟨hq, fun c hc hfront => ?_⟩
      have hdepth := (depth_towards hq).1
      rw [hc, List.prefix_nil.mp hfront] at hdepth
      exact absurd hdepth (Nat.succ_ne_zero _).symm
  | append_singleton r i ih =>
    by_cases heq : d = .router (r ++ [i])
    · rw [heq]
      exact walk_self _ _
    by_cases hfront : r ++ [i] <+: d.path
    case pos =>
      refine walk_down hfits hd _ hr ⟨hfront, heq⟩ (by omega) fun q hq hqd => hnear q ⟨hqd, fun c hc hcr => ?_⟩
      -- the child is longer than the start
      have hdepth := (depth_towards hqd).1
      rw [hc, Device.depth] at hdepth
      have hlen := hcr.length_le
      have hlen' := hq.length_le
      omega
    case neg =>
      have hhop := hop_eq hfits hr hd
      rw [if_neg (fun h => hfront h.1.1), if_neg (by simp), List.dropLast_concat] at hhop
      have hlen : (r ++ [i]).length + d.depth = r.length + d.depth + 1 := by
        rw [List.length_append, List.length_singleton]
        omega
      rw [hlen, walk_hop hhop (fun h => heq h.symm)]
      refine ih (mem_router_dropLast hr).1 fun q ⟨hq, hchild⟩ => hnear q ⟨hq, fun c hc hcr => ?_⟩
      rcases List.prefix_concat_iff.mp hcr with hwhole | hbefore
      · -- then the destination is below the start
        refine hfront ?_
        rcases below_towards hq with hself | ⟨hnext, -⟩
        · rw [← hself, hc, hwhole]
          exact List.prefix_rfl
        · rw [hc] at hnext
          rw [← hwhole]
          exact hnext.1
      · exact hchild c hc hbefore

omit hfits in
/-- A router that is not in the part of the tree with the destination is not the destination. -/
theorem ne_of_outside (hq : Below q d) (hout : ∀ c, towards q d = .router c → ¬ c <+: r) : Device.router r ≠ d := by
  intro heq
  subst heq
  cases child_of_below hq with
  | router i s hpath htowards =>
    refine hout _ htowards ⟨s, ?_⟩
    rw [List.append_assoc, List.singleton_append]
    exact hpath.symm
  | endDevice n hdevice _ => cases hdevice

/-- From outside the part of the tree below a router that does not find the destination, a frame never gets there. -/
theorem walk_blocked (hd : d ∈ t.devices) (hq : Below q d) (hfar : ¬ Near rm lm q d) (k : Nat) (hr : .router r ∈ t.devices)
    (hout : ∀ c, towards q d = .router c → ¬ c <+: r) : t.walk d k (.router r) ≠ some d := by
  induction k generalizing r with
  | zero =>
    intro heq
    exact ne_of_outside hq hout (Option.some.inj heq)
  | succ k ih =>
    rw [walk, if_neg (ne_of_outside hq hout), hop_eq hfits hr hd]
    split
    · -- down, at another router
      rename_i hdown
      obtain ⟨hbelow, hnear⟩ := hdown
      have hmem := towards_mem hd hbelow
      have hfirst := towards_first hfits hd hbelow hnear
      rw [hfirst] at hmem ⊢
      refine ih hmem fun c hc hfront => ?_
      rcases List.prefix_concat_iff.mp hfront with hwhole | hbefore
      · have hqr : q = r := by
          cases child_of_below hq with
          | router i s _ htowards =>
            rw [htowards, Device.router.injEq] at hc
            rw [hwhole] at hc
            exact (List.append_inj' hc rfl).1
          | endDevice n hdevice htowards =>
            rw [htowards, hdevice] at hc
            cases hc
        rw [hqr] at hfar
        exact hfar hnear
      · exact hout c hc hbefore
    · split
      · exact fun h => nomatch h
      · rename_i hroot
        obtain ⟨p, i, rfl⟩ := List.eq_nil_or_concat r |>.resolve_left hroot
        rw [List.concat_eq_append] at hr hout ⊢
        rw [List.dropLast_concat, Option.bind_some]
        exact ih (mem_router_dropLast hr).1 fun c hc hfront => hout c hc (hfront.trans (List.prefix_append p [i]))

omit hfits in
theorem depth_le (hd : d ∈ t.devices) : d.depth ≤ lm.toNat := by
  have hvalid := device_valid hd
  cases d with
  | router p => exact (router_valid hd).2
  | endDevice p n => exact (Nat.succ_le_of_lt (t.placed _ hd).2.2)

end AddressTree

open AddressTree

/-- **Tree routing finds the devices in the first child router's block only.**  At a router the answer is right exactly
    when the device is no descendant or its address is below `CSkip` from the router's; and a frame reaches its
    destination, then within twice the depth of the tree, exactly when that holds at every router it has to go down from. -/
theorem tree_route_iff {rm lm : UInt8} (hfits : CskipFits rm lm) (t : AddressTree rm lm) (r : List Nat) (d : Device)
    (hr : .router r ∈ t.devices) (hd : d ∈ t.devices) :
    (t.Correct r d ↔ (Below r d → Near rm lm r d)) ∧
    (t.walk d (2 * lm.toNat) (.router r) = some d ↔ ∀ q, OnPath r d q → Near rm lm q d) ∧
    ((∃ k, t.walk d k (.router r) = some d) ↔ ∀ q, OnPath r d q → Near rm lm q d) := by
  have hblocked : ∀ k, t.walk d k (.router r) = some d → ∀ q, OnPath r d q → Near rm lm q d := by
    intro k hwalk q hq
    by_contra hfar
    exact walk_blocked hfits hd hq.1 hfar k hr hq.2 hwalk
  have hreaches : (∀ q, OnPath r d q → Near rm lm q d) → t.walk d (2 * lm.toNat) (.router r) = some d := by
    intro hnear
    have hrdepth := (router_valid hr).2
    have hddepth := depth_le hd
    exact walk_mono (by omega) (walk_reaches hfits hd hr hnear)
  exact ⟨correct_iff hfits hr hd, ⟨hblocked _, hreaches⟩, fun ⟨k, hk⟩ => hblocked k hk, fun h => ⟨_, hreaches h⟩⟩

/-- Two routers below the root, of which the first has another, and five routers a level. -/
def exampleTree : AddressTree 5 3 where
  devices := [.router [], .router [1], .router [2], .router [1, 1]]
  root := by decide
  placed := by decide
  below := by decide

/-- The second router reaches the router below the first one. -/
theorem example_reached : exampleTree.walk (.router [1, 1]) 6 (.router [2]) = some (.router [1, 1]) := by
  refine ((tree_route_iff (by decide) exampleTree [2] (.router [1, 1]) (by decide) (by decide)).2.1).mpr fun q hq => ?_
  obtain ⟨⟨hfront, hne⟩, -⟩ := hq
  rcases List.prefix_cons_iff.mp hfront with rfl | ⟨q, rfl, hrest⟩
  · decide
  rcases List.prefix_cons_iff.mp hrest with rfl | ⟨q, rfl, hend⟩
  · decide
  · rw [List.prefix_nil.mp hend] at hne
    exact absurd rfl hne

/-- The root does not find its second child router. -/
theorem second_child_unreached :
    exampleTree.addressOf (.router [2]) = 122 ∧ nextHop [] (.router [2]) = some (.router [2]) ∧ treeRoute 0 122 0 5 3 = none ∧
      ¬ exampleTree.Correct [] (.router [2]) ∧ exampleTree.walk (.router [2]) 6 (.router []) = none := by decide

end Zigbee.Nwk
