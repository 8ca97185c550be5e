import Mathlib.Tactic.IntervalCases
import Zigbee.Nwk.Layer

/-!
# Link Status

Model of `send_link_status` and `handle_link_status` of `zigbee-nwk`, with `router_link_status_entries`
of the neighbour table and the Link Status codec: a router lists its router neighbours in the order of
their addresses, cuts the list into frames that overlap in one entry, and a receiver finds its own
entry, or concludes from the range of a frame that it has none.
-/

namespace Zigbee.Nwk

open Bytes

/-- The router neighbours that have a device's address. -/
def NeighborTable.routers (t : NeighborTable) : List NeighborEntry :=
  t.entries.filter fun n => n.active && n.isRouter && n.networkAddress < 0xFFF8

/-! ## Frames -/

structure LinkStatusEntry where
  address : ShortAddress
  incomingCost : UInt8
  outgoingCost : UInt8
  deriving DecidableEq

def LINK_STATUS_ENTRIES_PER_FRAME : Nat := 16

def LINK_STATUS_FIRST_FRAME : UInt8 := 0x20

def LINK_STATUS_LAST_FRAME : UInt8 := 0x40

def LINK_STATUS_COUNT_MASK : UInt8 := 0x1F

def LINK_STATUS_RADIUS : UInt8 := 1

def NwkCommandId.linkStatus : UInt8 := 0x08

structure LinkStatusCommand where
  firstFrame : Bool
  lastFrame : Bool
  entries : List LinkStatusEntry

/-- Incoming cost in bits 0 to 2, outgoing cost in bits 4 to 6. -/
def LinkStatusEntry.costs (e : LinkStatusEntry) : UInt8 := e.incomingCost &&& 0x07 ||| (e.outgoingCost &&& (0x07 : UInt8)) <<< (4 : UInt8)

def LinkStatusEntry.serialize (e : LinkStatusEntry) : List UInt8 := le16 e.address ++ [e.costs]

/-- The command options octet. -/
def LinkStatusCommand.options (c : LinkStatusCommand) : UInt8 :=
  (UInt8.ofNat c.entries.length &&& LINK_STATUS_COUNT_MASK) |||
    (if c.firstFrame then LINK_STATUS_FIRST_FRAME else 0) ||| (if c.lastFrame then LINK_STATUS_LAST_FRAME else 0)

/-- The payload, or `none` when it does not fit a buffer of this size. -/
def LinkStatusCommand.serialize (c : LinkStatusCommand) (bufLen : Nat) : Option (List UInt8) :=
  if bufLen < 1 + 3 * c.entries.length then none
  else some (c.options :: c.entries.flatMap LinkStatusEntry.serialize)

structure LinkStatusReport where
  firstFrame : Bool
  lastFrame : Bool
  entries : List UInt8

namespace LinkStatusReport

def parse (data : List UInt8) : Option LinkStatusReport :=
  match data with
  | [] => none
  | options :: rest =>
    let count := (options &&& LINK_STATUS_COUNT_MASK).toNat
    if data.length < 1 + 3 * count then none
    else some ⟨options &&& LINK_STATUS_FIRST_FRAME != 0, options &&& LINK_STATUS_LAST_FRAME != 0, rest.take (3 * count)⟩

/-- The entries of a list of octets, three for each. -/
def entriesOf : List UInt8 → List LinkStatusEntry
  | low :: high :: costs :: rest =>
    ⟨u16At [low, high] 0, costs &&& 0x07, (costs >>> 4) &&& 0x07⟩ :: entriesOf rest
  | _ => []

def iter (r : LinkStatusReport) : List LinkStatusEntry := entriesOf r.entries

/-- The range of addresses that the frame describes. -/
def coversWith (firstFrame lastFrame : Bool) (entries : List LinkStatusEntry) (address : ShortAddress) : Bool :=
  match entries.head?, entries.getLast? with
  | some first, some last =>
    (if firstFrame then 0x0000 else first.address) ≤ address && address ≤ (if lastFrame then 0xFFFF else last.address)
  | _, _ => firstFrame && lastFrame

def covers (r : LinkStatusReport) (address : ShortAddress) : Bool := coversWith r.firstFrame r.lastFrame r.iter address

def incomingCostFor (r : LinkStatusReport) (address : ShortAddress) : Option UInt8 :=
  (r.iter.find? (·.address == address)).map (·.incomingCost)

end LinkStatusReport

/-! ## Sending -/

/-- `u8::clamp(1, 7)`. -/
def clampCost (cost : UInt8) : UInt8 := if cost < 1 then 1 else if 7 < cost then 7 else cost

def NeighborEntry.linkStatusEntry (n : NeighborEntry) : LinkStatusEntry :=
  ⟨n.networkAddress, clampCost n.incomingCost, n.outgoingCost⟩

/-- The entry goes before the first one with a greater address. -/
def insertByAddress (e : LinkStatusEntry) : List LinkStatusEntry → List LinkStatusEntry
  | [] => [e]
  | x :: l => if e.address < x.address then e :: x :: l else x :: insertByAddress e l

/-- The list is built by insertion; a full one takes no more. -/
def NeighborTable.routerLinkStatusEntries (t : NeighborTable) : List LinkStatusEntry :=
  t.routers.foldl (fun l n => if l.length < MAX_NEIGHBORS true then insertByAddress n.linkStatusEntry l else l) []

/-- The frame that starts at an entry. -/
def linkStatusFrame (entries : List LinkStatusEntry) (firstEntry : Nat) : LinkStatusCommand :=
  let listed := (entries.drop firstEntry).take LINK_STATUS_ENTRIES_PER_FRAME
  ⟨firstEntry == 0, entries.length ≤ firstEntry + listed.length, listed⟩

/-- The loop of `send_link_status`, from an entry on; `none` when the fuel runs out first. -/
def linkStatusFrames (entries : List LinkStatusEntry) : Nat → Nat → Option (List LinkStatusCommand)
  | 0, _ => none
  | fuel + 1, firstEntry =>
    let frame := linkStatusFrame entries firstEntry
    if frame.lastFrame then some [frame]
    else
      (linkStatusFrames entries fuel (max (firstEntry + frame.entries.length - 1) (firstEntry + 1))).map (frame :: ·)

/-- The frames of one period, as they are sent one after another; an error ends the period. -/
def NwkLayer.sendLinkStatusFrames (s : NwkLayer) (aes : Nat → Bool) (outcome : Nat → MacOutcome) :
    Nat → List LinkStatusCommand → NwkLayer × Except NwkStatus Unit
  | _, [] => (s, .ok ())
  | k, frame :: frames =>
    match frame.serialize (1 + 3 * LINK_STATUS_ENTRIES_PER_FRAME) with
    | none => (s, .error .frameTooLong)
    | some payload =>
      match s.sendNwkCommand ALL_ROUTERS_AND_COORDINATOR s.nib.networkAddress (some s.nib.ieeeAddress) none
          NwkCommandId.linkStatus payload LINK_STATUS_RADIUS (aes k) (.hop ShortAddress.BROADCAST (outcome k) none) with
      | (s, .error status) => (s, .error status)
      | (s, .ok ()) => sendLinkStatusFrames s aes outcome (k + 1) frames

/-- `aes` and `outcome` are what the AES engine and the MAC do with each frame. -/
def NwkLayer.sendLinkStatus (s : NwkLayer) (fuel : Nat) (aes : Nat → Bool) (outcome : Nat → MacOutcome) :
    Option (NwkLayer × Except NwkStatus Unit) :=
  if !s.routingDevice then some (s, .ok ())
  else (linkStatusFrames s.neighbors.routerLinkStatusEntries fuel 0).map (s.sendLinkStatusFrames aes outcome 0)

/-! ## Receiving -/

/-- What a Link Status from `src` makes of the sender's entry. -/
def NeighborEntry.noteLinkStatus (n : NeighborEntry) (report : LinkStatusReport) (ourAddr src : ShortAddress) : NeighborEntry :=
  let deviceType :=
    if n.deviceType = .unknown then
      if src = 0x0000 then .coordinator else .router
    else n.deviceType
  let n := { n with deviceType := deviceType, linkStatusAge := 0, age := 0 }
  if report.covers ourAddr then
    { n with outgoingCost := (report.incomingCostFor ourAddr).getD 0 &&& 0x07, awaitingLinkStatus := false }
  else n

/-- `handle_link_status` of a device that can route. -/
def NeighborTable.handleLinkStatus (t : NeighborTable) (ourAddr src : ShortAddress) (payload : List UInt8) : NeighborTable :=
  match LinkStatusReport.parse payload with
  | none => t
  | some report => t.modifyByShort src (·.noteLinkStatus report ourAddr src)

/-- The Link Status branch of the command dispatch, for a frame that came from its sender. -/
def NeighborTable.processLinkStatus (t : NeighborTable) (ourAddr : ShortAddress) (frame : NwkFrame) : NeighborTable :=
  match frame.payload with
  | cmdId :: payload =>
    if cmdId = NwkCommandId.linkStatus then t.handleLinkStatus ourAddr frame.header.srcAddr payload else t
  | [] => t

/-! ## The list -/

/-- Entries in the order of their addresses, each address once. -/
def Ascending (entries : List LinkStatusEntry) : Prop := entries.Pairwise fun x y => x.address < y.address

theorem perm_insertByAddress (e : LinkStatusEntry) (l : List LinkStatusEntry) :
    (insertByAddress e l).Perm (e :: l) := by
  induction l with
  | nil => exact List.Perm.refl _
  | cons x l ih =>
    unfold insertByAddress
    split
    · exact List.Perm.refl _
    · exact (ih.cons x).trans (List.Perm.swap e x l)

theorem ascending_insertByAddress {e : LinkStatusEntry} {l : List LinkStatusEntry} (h : Ascending l)
    (hnew : ∀ x ∈ l, x.address ≠ e.address) : Ascending (insertByAddress e l) := by
  induction l with
  | nil => exact List.pairwise_singleton _ _
  | cons x l ih =>
    obtain ⟨hx, hl⟩ := List.pairwise_cons.mp h
    unfold insertByAddress
    split
    · rename_i hlt
      refine List.pairwise_cons.mpr ⟨fun y hy => ?_, h⟩
      rcases List.mem_cons.mp hy with rfl | hy
      · exact hlt
      · exact UInt16.lt_trans hlt (hx y hy)
    · rename_i hge
      have hle : x.address ≤ e.address := UInt16.not_lt.mp hge
      have hxe : x.address < e.address := UInt16.lt_of_le_of_ne hle (hnew x List.mem_cons_self)
      refine List.pairwise_cons.mpr ⟨fun y hy => ?_, ih hl fun y hy => hnew y (List.mem_cons_of_mem _ hy)⟩
      rcases List.mem_cons.mp ((perm_insertByAddress e l).mem_iff.mp hy) with rfl | hy
      · exact hxe
      · exact hx y hy

/-- The entries that the table lists are its router neighbours, in ascending order. -/
theorem routerLinkStatusEntries_spec (t : NeighborTable) (hdistinct : (t.routers.map (·.networkAddress)).Nodup) :
    t.routerLinkStatusEntries.Perm (t.routers.map NeighborEntry.linkStatusEntry) ∧ Ascending t.routerLinkStatusEntries := by
  have hfold : ∀ (ns : List NeighborEntry) (l : List LinkStatusEntry), l.length + ns.length ≤ MAX_NEIGHBORS true →
      Ascending l → (l.map (·.address) ++ ns.map (·.networkAddress)).Nodup →
      (ns.foldl (fun l n => if l.length < MAX_NEIGHBORS true then insertByAddress n.linkStatusEntry l else l) l).Perm
          (l ++ ns.map NeighborEntry.linkStatusEntry) ∧
        Ascending (ns.foldl (fun l n => if l.length < MAX_NEIGHBORS true then insertByAddress n.linkStatusEntry l else l) l) := by
    intro ns
    induction ns with
    | nil =>
      intro l _ hl _
      simpa using hl
    | cons n ns ih =>
      intro l hlen hl hnodup
      have hperm := perm_insertByAddress n.linkStatusEntry l
      rw [List.length_cons] at hlen
      rw [List.foldl_cons, if_pos (by omega)]
      have hnew : ∀ x ∈ l, x.address ≠ n.networkAddress := by
        intro x hx heq
        rw [List.map_cons] at hnodup
        have hdisjoint := (List.nodup_append.mp hnodup).2.2
        exact hdisjoint x.address (List.mem_map_of_mem hx) n.networkAddress List.mem_cons_self heq
      have hmid : (l.map (·.address) ++ (n :: ns).map (·.networkAddress)).Perm
          ((insertByAddress n.linkStatusEntry l).map (·.address) ++ ns.map (·.networkAddress)) := by
        rw [List.map_cons]
        refine List.perm_middle.trans ?_
        exact ((hperm.map (·.address)).symm.append_right _)
      obtain ⟨hperm', hascending⟩ := ih (insertByAddress n.linkStatusEntry l)
        (by rw [hperm.length_eq, List.length_cons]; omega) (ascending_insertByAddress hl hnew) (hmid.nodup_iff.mp hnodup)
      refine ⟨hperm'.trans ?_, hascending⟩
      rw [List.map_cons]
      exact (hperm.append_right _).trans List.perm_middle.symm
  have hlen : t.routers.length ≤ MAX_NEIGHBORS true := (List.length_filter_le _ _).trans t.size_eq.le
  exact hfold t.routers [] (by simpa using hlen) List.Pairwise.nil (by simpa using hdistinct)

/-! ## The frames -/

open LinkStatusReport

def LinkStatusCommand.covers (c : LinkStatusCommand) (address : ShortAddress) : Bool :=
  coversWith c.firstFrame c.lastFrame c.entries address

variable {c : LinkStatusCommand} {i : Nat}

section

variable {entries : List LinkStatusEntry} {first fuel : Nat} {frames : List LinkStatusCommand} {a : ShortAddress}

theorem linkStatusFrame_last (h : entries.length ≤ first + LINK_STATUS_ENTRIES_PER_FRAME) :
    linkStatusFrame entries first = ⟨first == 0, true, entries.drop first⟩ := by
  have htake : (entries.drop first).take LINK_STATUS_ENTRIES_PER_FRAME = entries.drop first :=
    List.take_of_length_le (by rw [List.length_drop]; omega)
  unfold linkStatusFrame
  dsimp only
  rw [htake]
  congr 1
  rw [List.length_drop, decide_eq_true_iff]
  omega

theorem linkStatusFrame_inner (h : first + LINK_STATUS_ENTRIES_PER_FRAME < entries.length) :
    linkStatusFrame entries first = ⟨first == 0, false, (entries.drop first).take LINK_STATUS_ENTRIES_PER_FRAME⟩ := by
  unfold linkStatusFrame
  dsimp only
  congr 1
  rw [List.length_take, List.length_drop, decide_eq_false_iff_not]
  omega

theorem length_inner (h : first + LINK_STATUS_ENTRIES_PER_FRAME < entries.length) :
    (linkStatusFrame entries first).entries.length = LINK_STATUS_ENTRIES_PER_FRAME := by
  rw [linkStatusFrame_inner h, List.length_take, List.length_drop]
  omega

/-- The loop: a last frame ends it, any other is followed by one that starts at its last entry. -/
theorem linkStatusFrames_succ (entries : List LinkStatusEntry) (fuel first : Nat) :
    linkStatusFrames entries (fuel + 1) first =
      if entries.length ≤ first + LINK_STATUS_ENTRIES_PER_FRAME then some [linkStatusFrame entries first]
      else (linkStatusFrames entries fuel (first + 15)).map (linkStatusFrame entries first :: ·) := by
  have hper : LINK_STATUS_ENTRIES_PER_FRAME = 16 := rfl
  rw [linkStatusFrames]
  split
  · rename_i hlast
    by_cases h : entries.length ≤ first + LINK_STATUS_ENTRIES_PER_FRAME
    · rw [if_pos h]
    · rw [linkStatusFrame_inner (by omega)] at hlast
      cases hlast
  · rename_i hlast
    by_cases h : entries.length ≤ first + LINK_STATUS_ENTRIES_PER_FRAME
    · rw [linkStatusFrame_last h] at hlast
      exact absurd rfl hlast
    · rw [if_neg h, length_inner (by omega), show max (first + LINK_STATUS_ENTRIES_PER_FRAME - 1) (first + 1) = first + 15 by omega]

/-- **The loop ends**: a step for each entry is enough. -/
theorem linkStatusFrames_isSome (h : entries.length < fuel + first) (hfirst : first ≤ entries.length) :
    (linkStatusFrames entries fuel first).isSome = true := by
  have hper : LINK_STATUS_ENTRIES_PER_FRAME = 16 := rfl
  induction fuel generalizing first with
  | zero => omega
  | succ fuel ih =>
    rw [linkStatusFrames_succ]
    split
    · rfl
    · rw [Option.isSome_map]
      exact ih (by omega) (by omega)

/-- Every frame of the loop starts at some entry. -/
theorem mem_linkStatusFrames (h : linkStatusFrames entries fuel first = some frames) (hfirst : first = 0 ∨ first < entries.length)
    (hc : c ∈ frames) : ∃ i, c = linkStatusFrame entries i ∧ (i = 0 ∨ i < entries.length) := by
  have hper : LINK_STATUS_ENTRIES_PER_FRAME = 16 := rfl
  induction fuel generalizing first frames with
  | zero => cases h
  | succ fuel ih =>
    rw [linkStatusFrames_succ] at h
    split at h
    · cases h
      exact ⟨first, List.mem_singleton.mp hc, hfirst⟩
    · rename_i hlen
      obtain ⟨rest, hrest, rfl⟩ := Option.map_eq_some_iff.mp h
      rcases List.mem_cons.mp hc with rfl | hc
      · exact ⟨first, rfl, hfirst⟩
      · exact ih hrest (Or.inr (by omega)) hc

theorem coversWith_nonempty {entries : List LinkStatusEntry} {x y : LinkStatusEntry} (hhead : entries.head? = some x)
    (hlast : entries.getLast? = some y) (firstFrame lastFrame : Bool) :
    coversWith firstFrame lastFrame entries a = true ↔
      (firstFrame = true ∨ x.address ≤ a) ∧ (lastFrame = true ∨ a ≤ y.address) := by
  have hmax : a ≤ (0xFFFF : ShortAddress) := by
    rw [UInt16.le_iff_toNat_le]
    have := a.toNat_lt
    exact Nat.le_of_lt_succ this
  have hmin : (0x0000 : ShortAddress) ≤ a := by
    rw [UInt16.le_iff_toNat_le]
    exact Nat.zero_le _
  unfold coversWith
  rw [hhead, hlast]
  cases firstFrame <;> cases lastFrame <;> simp [hmax, hmin]

theorem covers_last (hfirst : first < entries.length) (h : entries.length ≤ first + LINK_STATUS_ENTRIES_PER_FRAME) :
    (linkStatusFrame entries first).covers a = true ↔ first = 0 ∨ entries[first].address ≤ a := by
  have hhead : (entries.drop first).head? = some entries[first] := by
    rw [List.head?_drop, List.getElem?_eq_getElem hfirst]
  obtain ⟨y, hlast⟩ : ∃ y, (entries.drop first).getLast? = some y := by
    cases hl : (entries.drop first).getLast? with
    | none =>
      rw [List.getLast?_eq_none_iff.mp hl] at hhead
      cases hhead
    | some y => exact ⟨y, rfl⟩
  rw [LinkStatusCommand.covers, linkStatusFrame_last h, coversWith_nonempty hhead hlast]
  simp

theorem covers_inner (h : first + LINK_STATUS_ENTRIES_PER_FRAME < entries.length) (hfirst : first < entries.length)
    (hlast : first + 15 < entries.length) :
    (linkStatusFrame entries first).covers a = true ↔
      (first = 0 ∨ entries[first].address ≤ a) ∧ a ≤ entries[first + 15].address := by
  have hper : LINK_STATUS_ENTRIES_PER_FRAME = 16 := rfl
  have hhead : ((entries.drop first).take LINK_STATUS_ENTRIES_PER_FRAME).head? = some entries[first] := by
    rw [List.head?_take, if_neg (by omega), List.head?_drop, List.getElem?_eq_getElem hfirst]
  have hlast' : ((entries.drop first).take LINK_STATUS_ENTRIES_PER_FRAME).getLast? = some entries[first + 15] := by
    rw [List.getLast?_eq_getElem?, List.length_take, List.length_drop,
      show min LINK_STATUS_ENTRIES_PER_FRAME (entries.length - first) - 1 = 15 by omega,
      List.getElem?_take_of_lt (by omega), List.getElem?_drop, List.getElem?_eq_getElem hlast]
  rw [LinkStatusCommand.covers, linkStatusFrame_inner h, coversWith_nonempty hhead hlast']
  simp

/-- **Every address is covered**: the frames from an entry on cover every address from that entry's on. -/
theorem exists_covers (h : linkStatusFrames entries fuel first = some frames)
    (hfirst : first = 0 ∨ ∃ hlt : first < entries.length, entries[first].address ≤ a) :
    ∃ c ∈ frames, c.covers a = true := by
  have hper : LINK_STATUS_ENTRIES_PER_FRAME = 16 := rfl
  induction fuel generalizing first frames with
  | zero => cases h
  | succ fuel ih =>
    rw [linkStatusFrames_succ] at h
    split at h
    · rename_i hlen
      cases h
      refine ⟨_, List.mem_singleton.mpr rfl, ?_⟩
      by_cases hempty : first < entries.length
      · rw [covers_last hempty hlen]
        exact hfirst.imp_right fun ⟨_, h⟩ => h
      · -- Only an empty list has a frame without entries.
        have hzero : first = 0 := hfirst.resolve_right fun ⟨hlt, _⟩ => hempty hlt
        have hnil : entries = [] := by
          apply List.eq_nil_of_length_eq_zero
          omega
        subst hnil hzero
        rfl
    · rename_i hlen
      obtain ⟨rest, hrest, rfl⟩ := Option.map_eq_some_iff.mp h
      have h0 : first < entries.length := by omega
      have h15 : first + 15 < entries.length := by omega
      by_cases hle : a ≤ entries[first + 15].address
      · refine ⟨_, List.mem_cons_self, ?_⟩
        rw [covers_inner (by omega) h0 h15]
        exact ⟨hfirst.imp_right fun ⟨_, h⟩ => h, hle⟩
      · obtain ⟨c, hc, hcovers⟩ := ih hrest (Or.inr ⟨h15, UInt16.le_of_lt (UInt16.not_le.mp hle)⟩)
        exact ⟨c, List.mem_cons_of_mem _ hc, hcovers⟩

theorem ascending_lt (h : Ascending entries) {j : Nat} (hij : i < j) (hj : j < entries.length) : entries[i].address < entries[j].address :=
  List.pairwise_iff_getElem.mp h i j (by omega) hj hij

theorem find?_skip {l l' : List LinkStatusEntry} (h : ∀ x ∈ l, x.address ≠ a) :
    (l ++ l').find? (·.address == a) = l'.find? (·.address == a) := by
  have hnone : l.find? (·.address == a) = none := by
    rw [List.find?_eq_none]
    intro x hx
    simpa using h x hx
  rw [List.find?_append, hnone, Option.none_or]

theorem find?_stop {l l' : List LinkStatusEntry} (h : ∀ x ∈ l', x.address ≠ a) :
    (l ++ l').find? (·.address == a) = l.find? (·.address == a) := by
  have hnone : l'.find? (·.address == a) = none := by
    rw [List.find?_eq_none]
    intro x hx
    simpa using h x hx
  rw [List.find?_append, hnone, Option.or_none]

/-- What lies before the frame is not the address, when the frame's first address is not above it. -/
theorem find?_drop (hascending : Ascending entries) (hfirst : first = 0 ∨ ∃ hlt : first < entries.length, entries[first].address ≤ a) :
    (entries.drop first).find? (·.address == a) = entries.find? (·.address == a) := by
  conv_rhs => rw [← List.take_append_drop first entries]
  apply (find?_skip _).symm
  intro x hx heq
  obtain ⟨i, hi, rfl⟩ := List.getElem_of_mem hx
  rw [List.length_take] at hi
  rw [List.getElem_take] at heq
  rcases hfirst with rfl | ⟨hlt, hle⟩
  · omega
  · have hbefore := ascending_lt hascending (show i < first by omega) hlt
    rw [heq] at hbefore
    exact UInt16.not_le.mpr hbefore hle

/-- What follows the frame is not the address, when the frame's last address is not below it. -/
theorem find?_take (hascending : Ascending entries) {last : Nat} (hlast : last < entries.length) (hle : a ≤ entries[last].address)
    (hfirst : first ≤ last) :
    ((entries.drop first).take (last + 1 - first)).find? (·.address == a) = (entries.drop first).find? (·.address == a) := by
  conv_rhs => rw [← List.take_append_drop (last + 1 - first) (entries.drop first)]
  apply (find?_stop _).symm
  intro x hx heq
  rw [List.drop_drop, show first + (last + 1 - first) = last + 1 by omega] at hx
  obtain ⟨i, hi, rfl⟩ := List.getElem_of_mem hx
  rw [List.length_drop] at hi
  rw [List.getElem_drop] at heq
  have hafter := ascending_lt hascending (show last < last + 1 + i by omega) (by omega)
  rw [heq] at hafter
  exact UInt16.not_le.mpr hafter hle

/-- A frame that covers an address lists the entry of that address, if there is one. -/
theorem find?_of_covers (hascending : Ascending entries) (hfirst : first = 0 ∨ first < entries.length)
    (hcovers : (linkStatusFrame entries first).covers a = true) :
    (linkStatusFrame entries first).entries.find? (·.address == a) = entries.find? (·.address == a) := by
  have hper : LINK_STATUS_ENTRIES_PER_FRAME = 16 := rfl
  by_cases h : entries.length ≤ first + LINK_STATUS_ENTRIES_PER_FRAME
  · have hdrop : first = 0 ∨ ∃ hlt : first < entries.length, entries[first].address ≤ a := by
      rcases hfirst with hzero | hlt
      · exact Or.inl hzero
      · rw [covers_last hlt h] at hcovers
        exact hcovers.imp_right fun hle => ⟨hlt, hle⟩
    rw [linkStatusFrame_last h]
    exact find?_drop hascending hdrop
  · have hlt : first < entries.length := by omega
    have hlast : first + 15 < entries.length := by omega
    rw [covers_inner (by omega) hlt hlast] at hcovers
    rw [linkStatusFrame_inner (by omega)]
    have htake := find?_take hascending hlast hcovers.2 (show first ≤ first + 15 by omega)
    rw [show first + 15 + 1 - first = LINK_STATUS_ENTRIES_PER_FRAME by omega] at htake
    exact htake.trans (find?_drop hascending (hcovers.1.imp_right fun hle => ⟨hlt, hle⟩))

end

/-! ## The codec -/

/-- The entry as the frame carries it. -/
def LinkStatusEntry.onWire (e : LinkStatusEntry) : LinkStatusEntry :=
  ⟨e.address, e.incomingCost &&& 0x07, e.outgoingCost &&& 0x07⟩

theorem costs_incoming (e : LinkStatusEntry) : e.costs &&& 0x07 = e.incomingCost &&& 0x07 := by
  unfold LinkStatusEntry.costs
  apply UInt8.eq_of_toBitVec_eq
  simp only [UInt8.toBitVec_and, UInt8.toBitVec_or, UInt8.toBitVec_shiftLeft]
  ext i hi
  have : i < 8 := hi
  interval_cases i <;> simp

theorem costs_outgoing (e : LinkStatusEntry) : (e.costs >>> 4) &&& 0x07 = e.outgoingCost &&& 0x07 := by
  unfold LinkStatusEntry.costs
  apply UInt8.eq_of_toBitVec_eq
  simp only [UInt8.toBitVec_and, UInt8.toBitVec_or, UInt8.toBitVec_shiftLeft, UInt8.toBitVec_shiftRight]
  ext i hi
  have : i < 8 := hi
  interval_cases i <;> simp

theorem entriesOf_serialize (entries : List LinkStatusEntry) :
    entriesOf (entries.flatMap LinkStatusEntry.serialize) = entries.map LinkStatusEntry.onWire := by
  induction entries with
  | nil => rfl
  | cons e entries ih =>
    have haddr : u16At [UInt8.ofNat e.address.toNat, UInt8.ofNat (e.address.toNat / 256)] 0 = e.address :=
      u16At_le16_self e.address
    simp only [List.flatMap_cons, LinkStatusEntry.serialize, le16, List.cons_append, List.nil_append,
      entriesOf, List.map_cons, haddr, costs_incoming, costs_outgoing, LinkStatusEntry.onWire]
    exact congrArg _ ih

theorem length_flatMap_serialize (entries : List LinkStatusEntry) :
    (entries.flatMap LinkStatusEntry.serialize).length = 3 * entries.length := by
  induction entries with
  | nil => rfl
  | cons e entries ih =>
    rw [List.flatMap_cons, List.length_append, ih, List.length_cons]
    simp only [LinkStatusEntry.serialize, List.length_append, le16_length, List.length_singleton]
    omega

theorem options_fields (n : Fin 17) (first last : Bool) :
    let options := (UInt8.ofNat n.val &&& LINK_STATUS_COUNT_MASK) ||| (if first then LINK_STATUS_FIRST_FRAME else 0) |||
      (if last then LINK_STATUS_LAST_FRAME else 0)
    (options &&& LINK_STATUS_COUNT_MASK).toNat = n.val ∧ (options &&& LINK_STATUS_FIRST_FRAME != 0) = first ∧
      (options &&& LINK_STATUS_LAST_FRAME != 0) = last := by
  revert n first last
  decide

/-- **The codec**: a frame that fits is read back with its flags and its entries. -/
theorem parse_serialize (h : c.entries.length ≤ LINK_STATUS_ENTRIES_PER_FRAME) :
    ∃ payload report, c.serialize (1 + 3 * LINK_STATUS_ENTRIES_PER_FRAME) = some payload ∧
      LinkStatusReport.parse payload = some report ∧ report.firstFrame = c.firstFrame ∧
      report.lastFrame = c.lastFrame ∧ report.iter = c.entries.map LinkStatusEntry.onWire := by
  have hper : LINK_STATUS_ENTRIES_PER_FRAME = 16 := rfl
  obtain ⟨hcount, hfirst, hlast⟩ := options_fields ⟨c.entries.length, by omega⟩ c.firstFrame c.lastFrame
  dsimp only at hcount hfirst hlast
  have hlen := length_flatMap_serialize c.entries
  refine ⟨c.options :: c.entries.flatMap LinkStatusEntry.serialize,
    ⟨c.firstFrame, c.lastFrame, c.entries.flatMap LinkStatusEntry.serialize⟩, ?_, ?_, rfl, rfl, entriesOf_serialize _⟩
  · rw [LinkStatusCommand.serialize, if_neg (by omega)]
  · unfold LinkStatusReport.parse LinkStatusCommand.options
    dsimp only
    rw [hcount, hfirst, hlast, if_neg (by rw [List.length_cons, hlen]; omega), List.take_of_length_le (by omega)]

/-- The report of a frame covers what the frame covers, and gives the cost that the frame gives. -/
theorem report_of_frame {report : LinkStatusReport} (hfirst : report.firstFrame = c.firstFrame) (hlast : report.lastFrame = c.lastFrame)
    (hiter : report.iter = c.entries.map LinkStatusEntry.onWire) (a : ShortAddress) :
    report.covers a = c.covers a ∧
      report.incomingCostFor a = (c.entries.find? (·.address == a)).map (·.incomingCost &&& 0x07) := by
  constructor
  · unfold covers LinkStatusCommand.covers coversWith
    rw [hfirst, hlast, hiter, List.head?_map, List.getLast?_map]
    cases c.entries.head? <;> cases c.entries.getLast? <;> rfl
  · unfold incomingCostFor
    rw [hiter, List.find?_map, Option.map_map]
    rfl

/-! ## A period on air -/

/-- A broadcast command that was sent is on air once. -/
theorem NwkLayer.sendNwkCommand_ok {s s' : NwkLayer} {dstAddr srcAddr : ShortAddress} {srcIeee dstIeee : Option IeeeAddress}
    {cmdId radius : UInt8} {cmdPayload : List UInt8} {aes : Bool} {outcome : MacOutcome}
    (h : s.sendNwkCommand dstAddr srcAddr srcIeee dstIeee cmdId cmdPayload radius aes (.hop ShortAddress.BROADCAST outcome none) = (s', .ok ())) :
    s'.nib.networkAddress = s.nib.networkAddress ∧
      ∃ frame, s'.air = s.air ++ [frame] ∧ frame.header.srcAddr = srcAddr ∧ frame.payload = cmdId :: cmdPayload := by
  unfold NwkLayer.sendNwkCommand at h
  split at h
  · cases h
  · dsimp only [Nib.nextSeq] at h
    split at h
    · cases h
    · split at h
      · cases h
      · rename_i s₁ frame hbuild
        obtain ⟨frame', hemits, hheader, hpayload, hok⟩ := NwkLayer.buildNwkFrame_emits hbuild
        obtain rfl : frame = frame' := hok frame rfl
        have hair : s₁.air = s.air := by
          rw [hemits.rest]
          simp
        dsimp only [NwkLayer.sendHop] at h
        cases outcome with
        | confirmed =>
          cases h
          refine ⟨hemits.addr, frame, ?_, ?_, hpayload⟩
          · dsimp only [NwkLayer.transmit]
            rw [if_pos (by decide), hair]
          · rw [hheader]
        | noAck => cases h
        | failed => cases h

/-- A frame on air carries a command of the period. -/
def CarriesStatus (src : ShortAddress) (f : NwkFrame) (c : LinkStatusCommand) : Prop :=
  f.header.srcAddr = src ∧
    ∃ payload, c.serialize (1 + 3 * LINK_STATUS_ENTRIES_PER_FRAME) = some payload ∧
      f.payload = NwkCommandId.linkStatus :: payload

/-- The frames that a period puts on air are the commands of the loop. -/
theorem sendLinkStatusFrames_air {s s' : NwkLayer} {aes : Nat → Bool} {outcome : Nat → MacOutcome} {k : Nat}
    {frames : List LinkStatusCommand} (h : s.sendLinkStatusFrames aes outcome k frames = (s', .ok ())) :
    ∃ sent, s'.air = s.air ++ sent ∧ (∀ f ∈ sent, ∃ c ∈ frames, CarriesStatus s.nib.networkAddress f c) ∧
      ∀ c ∈ frames, ∃ f ∈ sent, CarriesStatus s.nib.networkAddress f c := by
  induction frames generalizing s k with
  | nil =>
    cases h
    exact ⟨[], by simp⟩
  | cons frame frames ih =>
    unfold NwkLayer.sendLinkStatusFrames at h
    split at h
    · cases h
    · rename_i payload hpayload
      split at h
      · cases h
      · rename_i s₁ hsend
        obtain ⟨haddr, f, hair, hsrc, hf⟩ := NwkLayer.sendNwkCommand_ok hsend
        obtain ⟨sent, hair', hsound, hcomplete⟩ := ih h
        rw [haddr] at hsound hcomplete
        have hnew : CarriesStatus s.nib.networkAddress f frame := ⟨hsrc, payload, hpayload, hf⟩
        refine ⟨f :: sent, ?_, ?_, ?_⟩
        · rw [hair', hair, List.append_assoc]
          rfl
        · intro g hg
          rcases List.mem_cons.mp hg with rfl | hg
          · exact ⟨frame, List.mem_cons_self, hnew⟩
          · obtain ⟨c, hc, hcarries⟩ := hsound g hg
            exact ⟨c, List.mem_cons_of_mem _ hc, hcarries⟩
        · intro c hc
          rcases List.mem_cons.mp hc with rfl | hc
          · exact ⟨f, List.mem_cons_self, hnew⟩
          · obtain ⟨g, hg, hcarries⟩ := hcomplete c hc
            exact ⟨g, List.mem_cons_of_mem _ hg, hcarries⟩

/-! ## The receiver -/

theorem clampCost_and (cost : UInt8) : clampCost cost &&& 0x07 = clampCost cost := by
  unfold clampCost
  split
  · rfl
  · split
    · rfl
    · rename_i hle
      have hle : cost.toNat ≤ 7 := UInt8.le_iff_toNat_le.mp (UInt8.not_lt.mp hle)
      obtain ⟨n, hn⟩ : ∃ n, cost = UInt8.ofNat n ∧ n ≤ 7 := ⟨cost.toNat, by simp, hle⟩
      obtain ⟨rfl, hn⟩ := hn
      interval_cases n <;> rfl

/-- The cost that a list of entries gives for an address. -/
def reportedCost (entries : List LinkStatusEntry) (a : ShortAddress) : UInt8 :=
  ((entries.find? (·.address == a)).map (·.incomingCost &&& 0x07)).getD 0 &&& 0x07

theorem length_linkStatusFrame (entries : List LinkStatusEntry) (first : Nat) :
    (linkStatusFrame entries first).entries.length ≤ LINK_STATUS_ENTRIES_PER_FRAME := by
  rw [linkStatusFrame, List.length_take]
  omega

/-- The report that a frame on air carries. -/
def linkStatusReport (f : NwkFrame) : Option LinkStatusReport := LinkStatusReport.parse f.payload.tail

/-- The frame on air says of the address what the command says. -/
theorem report_of_carries {entries : List LinkStatusEntry} {src : ShortAddress} {f : NwkFrame}
    (hcarries : CarriesStatus src f (linkStatusFrame entries i)) (a : ShortAddress) :
    ∃ report, linkStatusReport f = some report ∧ report.covers a = (linkStatusFrame entries i).covers a ∧
      report.incomingCostFor a =
        ((linkStatusFrame entries i).entries.find? (·.address == a)).map (·.incomingCost &&& 0x07) := by
  obtain ⟨-, payload, hserialize, hpayload⟩ := hcarries
  obtain ⟨payload', report, hserialize', hparse, hfirst, hlast, hiter⟩ :=
    parse_serialize (length_linkStatusFrame entries i)
  obtain rfl : payload = payload' := Option.some.inj (hserialize.symm.trans hserialize')
  refine ⟨report, ?_, report_of_frame hfirst hlast hiter a⟩
  rw [linkStatusReport, hpayload]
  exact hparse

variable {t : NeighborTable}

/-- A frame that covers the receiver sets the cost; another leaves it. -/
theorem processLinkStatus_cost {n : NeighborEntry} {entries : List LinkStatusEntry} {src a : ShortAddress} {f : NwkFrame}
    (hascending : Ascending entries) (hi : i = 0 ∨ i < entries.length) (hcarries : CarriesStatus src f (linkStatusFrame entries i))
    (hn : t.findByShort src = some n) :
    ∃ n', (t.processLinkStatus a f).findByShort src = some n' ∧
      n'.outgoingCost = if (linkStatusReport f).any (·.covers a) then reportedCost entries a else n.outgoingCost := by
  obtain ⟨report, hreport, hcovers, hcost⟩ := report_of_carries hcarries a
  obtain ⟨hsrc, payload, -, hpayload⟩ := hcarries
  have hparse : LinkStatusReport.parse payload = some report := by
    rw [linkStatusReport, hpayload] at hreport
    exact hreport
  have hfind : (t.processLinkStatus a f).findByShort src = some (n.noteLinkStatus report a src) := by
    unfold NeighborTable.processLinkStatus NeighborTable.handleLinkStatus NeighborTable.modifyByShort NeighborTable.findByShort
    rw [hpayload]
    dsimp only
    rw [if_pos rfl, hparse, hsrc]
    dsimp only
    rw [NeighborTable.searched_modifySearched, Table.find?_modifyFirst]
    · exact congrArg (Option.map _) hn
    · intro e he
      unfold NeighborEntry.noteLinkStatus
      dsimp only
      split <;> exact he
  refine ⟨_, hfind, ?_⟩
  rw [hreport, Option.any_some]
  unfold NeighborEntry.noteLinkStatus
  dsimp only
  split
  · rename_i hc
    dsimp only
    rw [hcost, find?_of_covers hascending hi (hcovers ▸ hc)]
    rfl
  · rfl

/-- A run of deliveries: once a frame has covered the receiver, the cost stays. -/
theorem deliveries_cost {n : NeighborEntry} {entries : List LinkStatusEntry} {src a : ShortAddress} (hascending : Ascending entries)
    {delivered : List NwkFrame}
    (hframes : ∀ f ∈ delivered, ∃ i, CarriesStatus src f (linkStatusFrame entries i) ∧ (i = 0 ∨ i < entries.length))
    (hn : t.findByShort src = some n)
    (hset : n.outgoingCost = reportedCost entries a ∨ ∃ f ∈ delivered, (linkStatusReport f).any (·.covers a) = true) :
    ∃ n', (delivered.foldl (·.processLinkStatus a ·) t).findByShort src = some n' ∧
      n'.outgoingCost = reportedCost entries a := by
  induction delivered generalizing t n with
  | nil =>
    rcases hset with hset | ⟨f, hf, -⟩
    · exact ⟨n, hn, hset⟩
    · cases hf
  | cons f delivered ih =>
    obtain ⟨i, hcarries, hi⟩ := hframes f List.mem_cons_self
    obtain ⟨n', hn', hcost⟩ := processLinkStatus_cost (a := a) hascending hi hcarries hn
    rw [List.foldl_cons]
    apply ih (fun g hg => hframes g (List.mem_cons_of_mem _ hg)) hn'
    split at hcost
    · exact Or.inl hcost
    · rename_i hcovers
      rcases hset with hset | ⟨g, hg, hcov⟩
      · exact Or.inl (hcost.trans hset)
      · rcases List.mem_cons.mp hg with rfl | hg
        · exact absurd hcov hcovers
        · exact Or.inr ⟨g, hg, hcov⟩

/-- The cost that the sender's table holds for the receiver: the clamped incoming cost of a router
    neighbour, and 0 for any other device. -/
def NeighborTable.costFor (t : NeighborTable) (a : ShortAddress) : UInt8 :=
  match t.routers.find? (·.networkAddress == a) with
  | some n => clampCost n.incomingCost
  | none => 0

theorem reportedCost_eq (hdistinct : (t.routers.map (·.networkAddress)).Nodup) (a : ShortAddress) :
    reportedCost t.routerLinkStatusEntries a = t.costFor a := by
  obtain ⟨hperm, hascending⟩ := routerLinkStatusEntries_spec t hdistinct
  have hnodup : (t.routerLinkStatusEntries.map (·.address)).Nodup := by
    have hmap := hperm.map (·.address)
    rw [List.map_map] at hmap
    exact hmap.nodup_iff.mpr hdistinct
  unfold reportedCost NeighborTable.costFor
  cases hfind : t.routers.find? (·.networkAddress == a) with
  | some n =>
    have haddr : n.networkAddress = a := by simpa using List.find?_some hfind
    have hmem : n.linkStatusEntry ∈ t.routerLinkStatusEntries :=
      hperm.mem_iff.mpr (List.mem_map_of_mem (List.mem_of_find?_eq_some hfind))
    rw [Table.find?_eq_of_nodup hnodup (e := n.linkStatusEntry) (fun y => ?_) hmem]
    · dsimp only [Option.map_some, Option.getD_some, NeighborEntry.linkStatusEntry]
      rw [clampCost_and, clampCost_and]
    · rw [beq_iff_eq, ← haddr]
      rfl
  | none =>
    have hnone : t.routerLinkStatusEntries.find? (·.address == a) = none := by
      rw [List.find?_eq_none] at hfind ⊢
      intro e he
      obtain ⟨n, hn, rfl⟩ := List.mem_map.mp (hperm.mem_iff.mp he)
      exact hfind n hn
    rw [hnone]
    rfl

/-- **Link Status agreement.**  The loop of a router ends, and if every frame of the period was sent, the
    frames on air cover every address, and delivered in any order and any number of times leave a
    neighbour's outgoing cost for the sender at the sender's clamped cost for it, or 0 when the sender
    does not have it as a router neighbour. -/
theorem link_status_agreement {s : NwkLayer} (hrouter : s.routingDevice = true)
    (hdistinct : (s.neighbors.routers.map (·.networkAddress)).Nodup) (aes : Nat → Bool) (outcome : Nat → MacOutcome) :
    ∃ s' out, s.sendLinkStatus (s.neighbors.routerLinkStatusEntries.length + 1) aes outcome = some (s', out) ∧
      (out = .ok () → ∃ sent, s'.air = s.air ++ sent ∧
        (∀ a, ∃ f ∈ sent, (linkStatusReport f).any (·.covers a) = true) ∧
        ∀ (receiver : NeighborTable) (n : NeighborEntry) (ourAddr : ShortAddress) (delivered : List NwkFrame),
          receiver.findByShort s.nib.networkAddress = some n → (∀ f, f ∈ delivered ↔ f ∈ sent) →
          ((delivered.foldl (·.processLinkStatus ourAddr ·) receiver).findByShort s.nib.networkAddress).map
            (·.outgoingCost) = some (s.neighbors.costFor ourAddr)) := by
  obtain ⟨hperm, hascending⟩ := routerLinkStatusEntries_spec s.neighbors hdistinct
  obtain ⟨frames, hframes⟩ := Option.isSome_iff_exists.mp
    (linkStatusFrames_isSome (Nat.lt_succ_self _) (Nat.zero_le _))
  cases hsend : s.sendLinkStatusFrames aes outcome 0 frames with
  | mk s' out =>
    refine ⟨s', out, ?_, ?_⟩
    · rw [NwkLayer.sendLinkStatus, hrouter, Bool.not_true, if_neg Bool.false_ne_true, hframes, Option.map_some, hsend]
    · rintro rfl
      obtain ⟨sent, hair, hsound, hcomplete⟩ := sendLinkStatusFrames_air hsend
      have hcarries : ∀ f ∈ sent, ∃ i, CarriesStatus s.nib.networkAddress f
          (linkStatusFrame s.neighbors.routerLinkStatusEntries i) ∧ (i = 0 ∨ i < s.neighbors.routerLinkStatusEntries.length) := by
        intro f hf
        obtain ⟨c, hc, hcarries⟩ := hsound f hf
        obtain ⟨i, rfl, hi⟩ := mem_linkStatusFrames hframes (Or.inl rfl) hc
        exact ⟨i, hcarries, hi⟩
      have hcovered : ∀ a, ∃ f ∈ sent, (linkStatusReport f).any (·.covers a) = true := by
        intro a
        obtain ⟨c, hc, hcovers⟩ := exists_covers hframes (a := a) (Or.inl rfl)
        obtain ⟨f, hf, hcarries⟩ := hcomplete c hc
        obtain ⟨i, rfl, -⟩ := mem_linkStatusFrames hframes (Or.inl rfl) hc
        obtain ⟨report, hreport, heq, -⟩ := report_of_carries hcarries a
        refine ⟨f, hf, ?_⟩
        rw [hreport, Option.any_some, heq, hcovers]
      refine ⟨sent, hair, hcovered, ?_⟩
      intro receiver n ourAddr delivered hn hmem
      obtain ⟨f, hf, hcovers⟩ := hcovered ourAddr
      obtain ⟨n', hn', hcost⟩ := deliveries_cost (a := ourAddr) hascending
        (fun f hf => hcarries f ((hmem f).mp hf)) hn (Or.inr ⟨f, (hmem f).mpr hf, hcovers⟩)
      rw [hn', Option.map_some, hcost, reportedCost_eq hdistinct]

/-- A router with eighteen router neighbours, which take two frames. -/
def crowded : NwkLayer :=
  { plainRouter 0 with
    neighbors := {
      entries := ((List.range 18).map fun i =>
        { NeighborEntry.newFromAnnce (UInt16.ofNat (18 - i)) (Vector.replicate 8 (UInt8.ofNat i)) with
          deviceType := .router, incomingCost := UInt8.ofNat i }) ++ List.replicate 14 .empty
      count := 18
      size_eq := rfl } }

/-- Neighbour 1 has cost 17, which it hears as 7; device 40 is not listed and hears 0. -/
theorem crowded_period :
    (linkStatusFrames crowded.neighbors.routerLinkStatusEntries 19 0).map List.length = some 2 ∧
    ∃ s' sent, crowded.sendLinkStatus (crowded.neighbors.routerLinkStatusEntries.length + 1) (fun _ => true)
        (fun _ => .confirmed) = some (s', .ok ()) ∧ s'.air = sent ∧
      ∀ (receiver : NeighborTable) (n : NeighborEntry), receiver.findByShort 0 = some n →
        ((sent.reverse.foldl (·.processLinkStatus 1 ·) receiver).findByShort 0).map (·.outgoingCost) = some 7 ∧
        (((sent ++ sent).foldl (·.processLinkStatus 40 ·) receiver).findByShort 0).map (·.outgoingCost) = some 0 := by
  obtain ⟨s', out, hsend, hagree⟩ :=
    link_status_agreement (s := crowded) rfl (by decide) (fun _ => true) (fun _ => .confirmed)
  have hout : out = .ok () := by
    have hrun : (crowded.sendLinkStatus (crowded.neighbors.routerLinkStatusEntries.length + 1) (fun _ => true)
        (fun _ => .confirmed)).map (·.2) = some (.ok ()) := by rfl
    rw [hsend] at hrun
    exact Option.some.inj hrun
  subst hout
  obtain ⟨sent, hair, -, hagree⟩ := hagree rfl
  refine ⟨by decide, s', sent, hsend, hair, fun receiver n hn => ⟨?_, ?_⟩⟩
  · exact hagree receiver n 1 sent.reverse hn fun f => List.mem_reverse
  · exact hagree receiver n 40 (sent ++ sent) hn fun f => by simp

end Zigbee.Nwk
