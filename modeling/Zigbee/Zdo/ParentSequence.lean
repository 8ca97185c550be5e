import Zigbee.Nwk.AnnouncementMarks
import Zigbee.Zdo.ParentSettling

/-!
# The sequence of parent announcements

One scheduled announcement, from the expiry of its timer to its last chunk, while children come, go and poll.

* `AnnceOp`, `AnnceRun` — the calls, with what has been constructed, named and excused so far.
* `announcement_loses_no_child` — **every child that was present at construction is accounted for**, where every broadcast is sent.
-/

namespace Zigbee.Zdo

open Bytes (Buf)
open Nwk ZdoLayer

/-! ## Sending one chunk -/

variable {sent : List Bool} {children : List IeeeAddress}

namespace ZdoLayer

variable {z : ZdoLayer}

/-- The next broadcast is sent: the APS layer takes it, and a transaction slot is free or holds an earlier announcement. -/
def Ready (z : ZdoLayer) (sent : List Bool) : Prop :=
  sent.headD true = true ∧ ∃ slot ∈ z.pendingResponses, slot.active = false ∨ slot.isParentAnnce = true

/-- There is something to broadcast. -/
def Attempts (z : ZdoLayer) : Prop :=
  z.nwk.canRoute = true ∧ if z.parentAnnceSequenceActive then z.nwk.hasParentAnncePending = true else z.nwk.authenticatedChildIeees ≠ []

/-- The children that a frame names. -/
def namedIn (frame : Buf) : List IeeeAddress := (parseChildList frame.tail).getD []

/-- The layers differ in their transactions at most. -/
structure SameSequence (z z' : ZdoLayer) : Prop where
  nwk : z'.nwk = z.nwk
  timer : z'.parentAnnceTimerSecs = z.parentAnnceTimerSecs
  active : z'.parentAnnceSequenceActive = z.parentAnnceSequenceActive

/-- **A chunk that is ready is sent in one frame.** -/
theorem sendParentAnnceChildren_ready {chunk : List IeeeAddress} (hready : z.Ready sent) (hne : chunk ≠ [])
    (hlen : chunk.length ≤ MAX_PARENT_ANNCE_CHILDREN) :
    ∃ z' frame, z.sendParentAnnceChildren chunk sent = (z', [frame], .ok ()) ∧ SameSequence z z' ∧ namedIn frame = chunk := by
  obtain ⟨hsent, slot, hslot, hfree⟩ := hready
  unfold sendParentAnnceChildren
  rw [chunks_of_le hne hlen, sendChunks, hsent]
  have hserialize : ∃ list, serializeChildList chunk (1 + MAX_PARENT_ANNCE_CHILDREN * 8) = .ok list := by
    unfold serializeChildList
    rw [if_neg (by omega), if_neg (by omega)]
    exact ⟨_, rfl⟩
  obtain ⟨list, hlist⟩ := hserialize
  have hregister : ∃ r, (z.clearPendingParentAnnce.nextSeq.1).registerPendingParentAnnce z.clearPendingParentAnnce.nextSeq.2 = some r ∧
      SameSequence z r.1 := by
    unfold registerPendingParentAnnce registerPending
    cases hindex : z.clearPendingParentAnnce.nextSeq.1.pendingResponses.findIdx? (!·.active) with
    | some i => exact ⟨_, rfl, ⟨rfl, rfl, rfl⟩⟩
    | none =>
      have hall := List.findIdx?_eq_none_iff.mp hindex _ (List.mem_map_of_mem hslot)
      rcases hfree with hfree | hfree
      · have hother : slot.isParentAnnce = false := by simp [PendingZdpResponse.isParentAnnce, hfree]
        simp [hother, hfree] at hall
      · simp [hfree, PendingZdpResponse.cancel] at hall
  obtain ⟨⟨z', pending⟩, hz', hsame⟩ := hregister
  have hsend : z.clearPendingParentAnnce.sendChunk chunk true = (z', [z.clearPendingParentAnnce.nextSeq.2 :: list], .ok ()) := by
    unfold sendChunk
    dsimp only
    rw [hlist]
    dsimp only
    rw [hz']
    rfl
  rw [hsend]
  refine ⟨z', _, rfl, hsame, ?_⟩
  rw [namedIn, List.tail_cons, parseChildList_serialize hlist]
  rfl

/-- What sending a due announcement does when its broadcast is sent. -/
inductive Sends (z : ZdoLayer) (micros : UInt32) (children : List IeeeAddress) : ZdoLayer × List Buf × Except ZdoError Unit → Prop
  | nothing {z' : ZdoLayer} (none : children = []) (ended : z'.parentAnnceSequenceActive = false)
      (timer : z'.parentAnnceTimerSecs = z.parentAnnceTimerSecs) (route : z'.nwk.canRoute = true) (marks : outstanding z'.nwk.neighbors.entries = []) :
      Sends z micros children (z', [], .ok ())
  | chunk {z' : ZdoLayer} {frame : Buf} (route : z'.nwk.canRoute = true) (some : namedIn frame ≠ []) (bound : (namedIn frame).length ≤ MAX_PARENT_ANNCE_CHILDREN)
      (split : namedIn frame ++ outstanding z'.nwk.neighbors.entries = children)
      (next : outstanding z'.nwk.neighbors.entries ≠ [] ∧ z'.parentAnnceSequenceActive = true ∧ z'.parentAnnceTimerSecs = nextParentAnnceTimer micros ∨
        outstanding z'.nwk.neighbors.entries = [] ∧ z'.parentAnnceSequenceActive = false ∧ z'.parentAnnceTimerSecs = z.parentAnnceTimerSecs) :
      Sends z micros children (z', [frame], .ok ())

theorem Sends.of_timer {z₂ : ZdoLayer} {micros : UInt32} {out : ZdoLayer × List Buf × Except ZdoError Unit}
    (h : Sends z micros children out) (htimer : z.parentAnnceTimerSecs = z₂.parentAnnceTimerSecs) : Sends z₂ micros children out := by
  cases h with
  | nothing none ended timer route marks => exact .nothing none ended (timer.trans htimer) route marks
  | chunk route some bound split next => exact .chunk route some bound split (htimer ▸ next)

theorem sendNextChunk_sends (hroute : z.nwk.canRoute = true) (hactive : z.parentAnnceSequenceActive = true)
    (hne : outstanding z.nwk.neighbors.entries ≠ []) (micros : UInt32) (hready : z.Ready sent) :
    Sends z micros (outstanding z.nwk.neighbors.entries) (z.sendNextChunk micros sent) := by
  obtain ⟨hsplit, hlen⟩ := takeParentAnnceChunk_outstanding hroute MAX_PARENT_ANNCE_CHILDREN
  have htaken := (z.nwk.takeParentAnnceChunk_quiet MAX_PARENT_ANNCE_CHILDREN).alike.1
  have hchunk : (z.nwk.takeParentAnnceChunk MAX_PARENT_ANNCE_CHILDREN).2 ≠ [] := by
    refine List.ne_nil_of_length_pos ?_
    have hpos := List.length_pos_of_ne_nil hne
    have : MAX_PARENT_ANNCE_CHILDREN = 9 := rfl
    omega
  unfold sendNextChunk
  generalize z.nwk.takeParentAnnceChunk MAX_PARENT_ANNCE_CHILDREN = taken at hsplit hlen hchunk htaken
  obtain ⟨nwk, chunk⟩ := taken
  dsimp only at hsplit hlen hchunk htaken ⊢
  rw [if_neg (by simpa using hchunk)]
  obtain ⟨z', frame, heq, hsame, hnamed⟩ := sendParentAnnceChildren_ready (z := { z with nwk }) hready hchunk (by omega)
  rw [heq]
  dsimp only
  have hentries : z'.nwk.neighbors.entries = nwk.neighbors.entries := by rw [hsame.nwk]
  have hroute' : z'.nwk.canRoute = true := by
    rw [hsame.nwk]
    exact htaken.trans hroute
  split
  · rename_i hpending
    refine .chunk hroute' (by rw [hnamed]; exact hchunk) (by rw [hnamed]; omega) ?_ (Or.inl ⟨hasParentAnncePending_iff.mp hpending, hsame.active.trans hactive, rfl⟩)
    rw [hnamed]
    exact hentries ▸ hsplit
  · rename_i hpending
    refine .chunk hroute' (by rw [hnamed]; exact hchunk) (by rw [hnamed]; omega) ?_ (Or.inr ⟨?_, rfl, hsame.timer⟩)
    · rw [hnamed]
      exact hentries ▸ hsplit
    · by_contra hne'
      exact hpending (hasParentAnncePending_iff.mpr hne')

/-- **A due announcement**: the children of the table at first, and what is outstanding of them later. -/
theorem sendDueParentAnnce_sends (hroute : z.nwk.canRoute = true) (micros : UInt32) (hready : z.Attempts → z.Ready sent) :
    Sends z micros (if z.parentAnnceSequenceActive then outstanding z.nwk.neighbors.entries else z.nwk.authenticatedChildIeees)
      (z.sendDueParentAnnce micros sent) := by
  obtain ⟨hmarks, hcount⟩ := markParentAnncePending_outstanding hroute
  have halike := (NwkLayer.markParentAnncePending_quiet z.nwk).alike.1
  unfold sendDueParentAnnce
  rw [if_neg (show ¬(!z.nwk.canRoute) = true by simp [hroute])]
  cases hactive : z.parentAnnceSequenceActive with
  | false =>
    rw [if_neg Bool.false_ne_true, if_pos (show (!false) = true from rfl)]
    generalize z.nwk.markParentAnncePending = marked at hmarks hcount halike
    obtain ⟨nwk, count⟩ := marked
    dsimp only at hmarks hcount halike ⊢
    split
    · rename_i hzero
      have hnil : z.nwk.authenticatedChildIeees = [] := List.length_eq_zero_iff.mp (hcount.symm.trans hzero)
      exact .nothing hnil rfl rfl (halike.trans hroute) (hmarks.trans hnil)
    · rename_i hpos
      have hne : z.nwk.authenticatedChildIeees ≠ [] := fun hnil => hpos (by rw [hcount, hnil]; rfl)
      have hsends := sendNextChunk_sends (z := { z with nwk, parentAnnceSequenceActive := true }) (halike.trans hroute) rfl
        (by rw [hmarks]; exact hne) micros (hready ⟨hroute, by rw [hactive]; exact hne⟩)
      rw [hmarks] at hsends
      exact hsends.of_timer rfl
  | true =>
    rw [if_pos (show true = true from rfl), if_neg (show ¬(!true) = true from Bool.false_ne_true)]
    split
    · rename_i hpending
      have hnil : outstanding z.nwk.neighbors.entries = [] := by
        by_contra hne
        rw [hasParentAnncePending_iff.mpr hne] at hpending
        cases hpending
      exact .nothing hnil rfl rfl hroute hnil
    · rename_i hpending
      have hpending : z.nwk.hasParentAnncePending = true := by simpa using hpending
      exact sendNextChunk_sends hroute hactive (hasParentAnncePending_iff.mp hpending) micros
        (hready ⟨hroute, by rw [hactive]; exact hpending⟩)

end ZdoLayer

/-! ## Runs -/

inductive AnnceOp where
  | tick (elapsedSecs : UInt16)
  | sendDue (micros : UInt32) (sent : List Bool)
  | processParentAnnce (tsn : UInt8) (payload : Buf) (micros : UInt32) (sent : List Bool)
  | processParentAnnceRsp (tsn : UInt8) (payload : Buf)
  | arrive (ieee : IeeeAddress) (address : ShortAddress) (deviceType : NeighborDeviceType) (secured : Bool)
  | readmitted (ieee : IeeeAddress) (deviceType : NeighborDeviceType) (secured : Bool)
  | authorize (address : ShortAddress)
  | depart (address : ShortAddress) (ieee : IeeeAddress)
  | keepalive (address : ShortAddress) (source : Option IeeeAddress)
  | transactions (slots : List PendingZdpResponse)

/-- The layer, and what an observer has seen of the announcement. -/
structure AnnceRun where
  zdo : ZdoLayer
  /-- A tick has said that a broadcast is due. -/
  due : Bool
  /-- The children that were present at construction. -/
  constructed : Option (List IeeeAddress)
  /-- The children whose marks have gone without a broadcast. -/
  excused : List IeeeAddress
  /-- Every broadcast that was sent, with the seconds since the one before. -/
  broadcasts : List (List IeeeAddress × Option Nat)
  elapsed : Option Nat

variable {z z' : ZdoLayer}

variable {broadcasts : List (List IeeeAddress × Option Nat)}

namespace AnnceRun

/-- After `schedule_parent_annce`. -/
def start (z : ZdoLayer) (micros : UInt32) : AnnceRun where
  zdo := z.scheduleParentAnnce micros
  due := false
  constructed := none
  excused := []
  broadcasts := []
  elapsed := none

def outstanding (r : AnnceRun) : List IeeeAddress := Nwk.outstanding r.zdo.nwk.neighbors.entries

def named (r : AnnceRun) : List IeeeAddress := r.broadcasts.flatMap (·.1)

/-- The layer has changed; marks may have gone. -/
def changed (r : AnnceRun) (zdo : ZdoLayer) : AnnceRun :=
  { r with zdo, excused := r.excused ++ excusedBy r.zdo.nwk.neighbors.entries zdo.nwk.neighbors.entries }

def step (r : AnnceRun) : AnnceOp → AnnceRun
  | .tick elapsedSecs =>
    let ticked := r.zdo.tickParentAnnceTimer elapsedSecs
    { r with zdo := ticked.1, due := r.due || ticked.2, elapsed := r.elapsed.map (· + elapsedSecs.toNat) }
  | .sendDue micros sent =>
    let out := r.zdo.sendDueParentAnnce micros sent
    let frames := match out.2.2 with
      | .ok () => out.2.1
      | .error _ => []
    { zdo := out.1
      due := false
      constructed :=
        if r.zdo.nwk.canRoute && !r.zdo.parentAnnceSequenceActive then some r.zdo.nwk.authenticatedChildIeees else r.constructed
      excused := r.excused
      broadcasts := r.broadcasts ++ frames.map fun frame => (namedIn frame, r.elapsed)
      elapsed := if frames.isEmpty then r.elapsed else some 0 }
  | .processParentAnnce tsn payload micros sent => r.changed (r.zdo.processParentAnnce tsn payload micros sent).1
  | .processParentAnnceRsp tsn payload => r.changed (r.zdo.processParentAnnceRsp tsn payload)
  | .arrive ieee address deviceType secured =>
    r.changed { r.zdo with nwk := r.zdo.nwk.arrive ieee address deviceType secured }
  | .readmitted ieee deviceType secured => r.changed { r.zdo with nwk := r.zdo.nwk.readmitted ieee deviceType secured }
  | .authorize address => r.changed { r.zdo with nwk := r.zdo.nwk.authorizeChild address }
  | .depart address ieee => r.changed { r.zdo with nwk := r.zdo.nwk.evictChild address ieee }
  | .keepalive address source => r.changed { r.zdo with nwk := r.zdo.nwk.refreshChildKeepalive address source }
  | .transactions slots => r.changed { r.zdo with pendingResponses := slots }

/-- A due broadcast is sent once, before the next tick, and it is sent successfully. -/
def Proper (r : AnnceRun) : AnnceOp → Prop
  | .tick _ => r.due = false
  | .sendDue _ sent => r.due = true ∧ (r.zdo.Attempts → r.zdo.Ready sent)
  | _ => True

/-- **No child is lost, and the broadcasts are as they should be.** -/
structure Accounted (r : AnnceRun) : Prop where
  starts : r.zdo.nwk.canRoute = true → r.constructed = none → r.zdo.parentAnnceTimerSecs ≠ 0 ∨ r.due = true
  silent : r.constructed = none → r.broadcasts = []
  covers : ∀ children, r.constructed = some children → children.Perm (r.named ++ r.excused ++ r.outstanding)
  running : r.constructed ≠ none → r.outstanding ≠ [] → r.zdo.parentAnnceTimerSecs ≠ 0 ∨ r.due = true
  bounded : ∀ b ∈ r.broadcasts, b.1.length ≤ MAX_PARENT_ANNCE_CHILDREN
  apart : ∀ b ∈ r.broadcasts.tail, ∃ secs, b.2 = some secs ∧ APS_PARENT_ANNOUNCE_BASE_TIMER_SECS.toNat ≤ secs

/-! ### Phases -/

/-- What is known of the broadcasts that have been sent. -/
structure Told (r : AnnceRun) (children : List IeeeAddress) : Prop where
  constructed : r.constructed = some children
  covers : children.Perm (r.named ++ r.excused ++ r.outstanding)
  bounded : ∀ b ∈ r.broadcasts, b.1.length ≤ MAX_PARENT_ANNCE_CHILDREN
  apart : ∀ b ∈ r.broadcasts.tail, ∃ secs, b.2 = some secs ∧ APS_PARENT_ANNOUNCE_BASE_TIMER_SECS.toNat ≤ secs

inductive Phase (r : AnnceRun) : Prop
  | leaf (route : r.zdo.nwk.canRoute = false) (silent : r.constructed = none ∧ r.broadcasts = [])
  | waiting (route : r.zdo.nwk.canRoute = true) (silent : r.constructed = none ∧ r.broadcasts = []) (fresh : r.excused = [] ∧ r.outstanding = [])
      (inactive : r.zdo.parentAnnceSequenceActive = false) (due : r.due = true ↔ r.zdo.parentAnnceTimerSecs = 0)
  | sending (children : List IeeeAddress) (route : r.zdo.nwk.canRoute = true) (told : Told r children)
      (active : r.zdo.parentAnnceSequenceActive = true) (due : r.due = true ↔ r.zdo.parentAnnceTimerSecs = 0) (begun : r.broadcasts ≠ [])
      (spaced : ∃ secs, r.elapsed = some secs ∧ APS_PARENT_ANNOUNCE_BASE_TIMER_SECS.toNat ≤ secs + r.zdo.parentAnnceTimerSecs.toNat)
  | ended (children : List IeeeAddress) (route : r.zdo.nwk.canRoute = true) (told : Told r children)
      (inactive : r.zdo.parentAnnceSequenceActive = false) (none_left : r.outstanding = [])
      (stopped : r.due = false ∧ r.zdo.parentAnnceTimerSecs = 0)

variable {r : AnnceRun}

theorem Phase.accounted (h : Phase r) : Accounted r := by
  cases h with
  | leaf route silent =>
    exact ⟨fun hroute => by simp [route] at hroute, fun _ => silent.2, fun _ h => by simp [silent.1] at h, fun h => absurd silent.1 h,
      fun _ hb => by simp [silent.2] at hb, fun _ hb => by simp [silent.2] at hb⟩
  | waiting route silent fresh inactive due =>
    refine ⟨fun _ _ => ?_, fun _ => silent.2, fun _ h => by simp [silent.1] at h, fun h => absurd silent.1 h,
      fun _ hb => by simp [silent.2] at hb, fun _ hb => by simp [silent.2] at hb⟩
    rw [due]
    exact (em _).symm
  | sending children route told active due begun spaced =>
    refine ⟨fun _ h => by simp [told.constructed] at h, fun h => by simp [told.constructed] at h, fun children' h => ?_, fun _ _ => ?_,
      told.bounded, told.apart⟩
    · rw [told.constructed] at h
      cases h
      exact told.covers
    · rw [due]
      exact (em _).symm
  | ended children route told inactive none_left stopped =>
    refine ⟨fun _ h => by simp [told.constructed] at h, fun h => by simp [told.constructed] at h, fun children' h => ?_,
      fun _ h => absurd none_left h, told.bounded, told.apart⟩
    rw [told.constructed] at h
    cases h
    exact told.covers

/-! ### What the environment changes -/

/-- The announcement goes on as it did, with a timer that may have been drawn again. -/
structure Environment (z z' : ZdoLayer) : Prop where
  route : z'.nwk.canRoute = z.nwk.canRoute
  active : z'.parentAnnceSequenceActive = z.parentAnnceSequenceActive
  timer : z'.parentAnnceTimerSecs = z.parentAnnceTimerSecs ∨
    z.parentAnnceTimerSecs ≠ 0 ∧ APS_PARENT_ANNOUNCE_BASE_TIMER_SECS ≤ z'.parentAnnceTimerSecs
  entries : List.Forall₂ Kept z.nwk.neighbors.entries z'.nwk.neighbors.entries

theorem Environment.of_nwk {nwk : NwkLayer} (hroute : nwk.canRoute = z.nwk.canRoute)
    (hentries : List.Forall₂ Kept z.nwk.neighbors.entries nwk.neighbors.entries) : Environment z { z with nwk } :=
  ⟨hroute, rfl, Or.inl rfl, hentries⟩

theorem Environment.refl (z : ZdoLayer) : Environment z z := .of_nwk rfl (List.forall₂_same.mpr fun e _ => .refl e)

theorem Environment.of_evicts {nwk : NwkLayer} (h : z.nwk.Evicts nwk) : Environment z { z with nwk } :=
  .of_nwk h.canRoute (h.entries.imp fun _ _ he => he.kept)

/-- A drawn timer runs, for the base time at least. -/
theorem base_le_nextParentAnnceTimer (micros : UInt32) : APS_PARENT_ANNOUNCE_BASE_TIMER_SECS ≤ nextParentAnnceTimer micros := by
  have hmod : (Nwk.routingRandomSample micros % (APS_PARENT_ANNOUNCE_JITTER_MAX_SECS + 1).toUInt32).toNat < 11 := by
    rw [UInt32.toNat_mod]
    exact Nat.mod_lt _ (by decide)
  have hbase : APS_PARENT_ANNOUNCE_BASE_TIMER_SECS.toNat = 10 := rfl
  rw [nextParentAnnceTimer, UInt16.le_iff_toNat_le, UInt16.toNat_add, UInt32.toNat_toUInt16, hbase]
  omega

theorem ne_zero_of_base_le {secs : UInt16} (h : APS_PARENT_ANNOUNCE_BASE_TIMER_SECS ≤ secs) : secs ≠ 0 := by
  rintro rfl
  exact absurd h (by decide)

theorem Environment.timer_zero (h : Environment z z') : z'.parentAnnceTimerSecs = 0 ↔ z.parentAnnceTimerSecs = 0 := by
  rcases h.timer with heq | ⟨hrunning, hbase⟩
  · rw [heq]
  · exact iff_of_false (ne_zero_of_base_le hbase) hrunning

theorem Told.changed (h : Told r children) (henv : Environment r.zdo z') : Told (r.changed z') children := by
  refine ⟨h.constructed, h.covers.trans ?_, h.bounded, h.apart⟩
  have hperm := outstanding_perm henv.entries
  show (r.named ++ r.excused ++ r.outstanding).Perm (r.named ++ (r.excused ++ _) ++ Nwk.outstanding z'.nwk.neighbors.entries)
  rw [← List.append_assoc, List.append_assoc (r.named ++ r.excused)]
  exact hperm.append_left _

/-- What is not outstanding does not become so. -/
theorem outstanding_changed (henv : Environment r.zdo z') (h : r.outstanding = []) :
    excusedBy r.zdo.nwk.neighbors.entries z'.nwk.neighbors.entries = [] ∧ (r.changed z').outstanding = [] := by
  have hperm := outstanding_perm henv.entries
  rw [show Nwk.outstanding r.zdo.nwk.neighbors.entries = [] from h] at hperm
  exact List.append_eq_nil_iff.mp hperm.nil_eq.symm

theorem Phase.changed (h : Phase r) (henv : Environment r.zdo z') : Phase (r.changed z') := by
  cases h with
  | leaf route silent => exact .leaf (henv.route.trans route) silent
  | waiting route silent fresh inactive due =>
    obtain ⟨hexcused, hnone⟩ := outstanding_changed henv fresh.2
    refine .waiting (henv.route.trans route) silent ⟨?_, hnone⟩ (henv.active.trans inactive) (due.trans henv.timer_zero.symm)
    show r.excused ++ _ = []
    rw [fresh.1, hexcused]
    rfl
  | sending children route told active due begun spaced =>
    refine .sending children (henv.route.trans route) (told.changed henv) (henv.active.trans active) (due.trans henv.timer_zero.symm) begun ?_
    obtain ⟨secs, helapsed, hspaced⟩ := spaced
    refine ⟨secs, helapsed, ?_⟩
    rcases henv.timer with heq | ⟨-, hbase⟩
    · show _ ≤ secs + z'.parentAnnceTimerSecs.toNat
      rw [heq]
      exact hspaced
    · exact (UInt16.le_iff_toNat_le.mp hbase).trans (Nat.le_add_left _ _)
  | ended children route told inactive none_left stopped =>
    exact .ended children (henv.route.trans route) (told.changed henv) (henv.active.trans inactive) (outstanding_changed henv none_left).2
      ⟨stopped.1, henv.timer_zero.mpr stopped.2⟩

theorem processParentAnnce_environment (z : ZdoLayer) (tsn : UInt8) (payload : Buf) (micros : UInt32) (sent : List Bool) :
    Environment z (z.processParentAnnce tsn payload micros sent).1 := by
  have htimer : Environment z (if z.parentAnnceTimerSecs = 0 then z else { z with parentAnnceTimerSecs := nextParentAnnceTimer micros }) := by
    split
    · exact .refl z
    · rename_i hrunning
      exact ⟨rfl, rfl, Or.inr ⟨hrunning, base_le_nextParentAnnceTimer micros⟩, List.forall₂_same.mpr fun e _ => .refl e⟩
  unfold processParentAnnce
  split
  · exact .refl z
  · dsimp only
    have hnwk : (if z.parentAnnceTimerSecs = 0 then z else { z with parentAnnceTimerSecs := nextParentAnnceTimer micros }).nwk = z.nwk := by
      split <;> rfl
    generalize (if z.parentAnnceTimerSecs = 0 then z else { z with parentAnnceTimerSecs := nextParentAnnceTimer micros }) = z₁ at htimer hnwk
    split
    · exact htimer
    · rename_i children _
      have hevicts := NwkLayer.applyParentAnnce_evicts z₁.nwk children
      refine ⟨hevicts.canRoute.trans htimer.route, htimer.active, htimer.timer, ?_⟩
      rw [← hnwk]
      exact hevicts.entries.imp fun _ _ he => he.kept

theorem processParentAnnceRsp_environment (z : ZdoLayer) (tsn : UInt8) (payload : Buf) :
    Environment z (z.processParentAnnceRsp tsn payload) := by
  unfold processParentAnnceRsp
  split
  · exact .refl z
  · split
    · exact .refl z
    · split
      · exact .refl z
      · exact .of_evicts (NwkLayer.removeChildrenByIeee_evicts z.nwk _)

theorem arrive_environment (z : ZdoLayer) (ieee : IeeeAddress) (address : ShortAddress) (deviceType : NeighborDeviceType) (secured : Bool) :
    Environment z { z with nwk := z.nwk.arrive ieee address deviceType secured } := by
  refine .of_nwk rfl (NeighborTable.addOrUpdate_kept _ rfl fun h => ?_)
  cases secured with
  | true => rfl
  | false => simp [NeighborEntry.isEndDeviceChild, NeighborEntry.admitted] at h

theorem keepalive_environment (z : ZdoLayer) (address : ShortAddress) (source : Option IeeeAddress) :
    Environment z { z with nwk := z.nwk.refreshChildKeepalive address source } := by
  unfold NwkLayer.refreshChildKeepalive
  split
  · exact .refl z
  · exact .of_nwk rfl (NeighborTable.modifySearched_kept _ _ fun e => kept_keepalive source e)

/-! ### Steps -/

theorem Phase.tick (h : Phase r) (hdue : r.due = false) (elapsedSecs : UInt16) : Phase (r.step (.tick elapsedSecs)) := by
  have hzero : r.zdo.parentAnnceTimerSecs = 0 → r.zdo.tickParentAnnceTimer elapsedSecs = (r.zdo, false) := fun hzero => by
    rw [tickParentAnnceTimer, if_pos hzero]
  have hrunning : r.zdo.parentAnnceTimerSecs ≠ 0 → r.zdo.tickParentAnnceTimer elapsedSecs =
      ({ r.zdo with parentAnnceTimerSecs := saturatingSub16 r.zdo.parentAnnceTimerSecs elapsedSecs },
        saturatingSub16 r.zdo.parentAnnceTimerSecs elapsedSecs == 0) := fun hrunning => by
    rw [tickParentAnnceTimer, if_neg hrunning]
  cases h with
  | leaf route silent =>
    refine .leaf ?_ silent
    show (r.zdo.tickParentAnnceTimer elapsedSecs).1.nwk.canRoute = false
    rw [tickParentAnnceTimer_nwk]
    exact route
  | waiting route silent fresh inactive due =>
    rw [hdue] at due
    have hne : r.zdo.parentAnnceTimerSecs ≠ 0 := fun h => Bool.false_ne_true (due.mpr h)
    refine .waiting ?_ silent ⟨fresh.1, ?_⟩ ?_ ?_
    all_goals simp only [step, outstanding, hrunning hne]
    · exact route
    · exact fresh.2
    · exact inactive
    · simp [hdue]
  | sending children route told active due begun spaced =>
    rw [hdue] at due
    have hne : r.zdo.parentAnnceTimerSecs ≠ 0 := fun h => Bool.false_ne_true (due.mpr h)
    obtain ⟨secs, helapsed, hspaced⟩ := spaced
    refine .sending children ?_ ⟨told.constructed, ?_, told.bounded, told.apart⟩ ?_ ?_ begun ?_
    all_goals simp only [step, outstanding, named, hrunning hne]
    · exact route
    · exact told.covers
    · exact active
    · simp [hdue]
    · refine ⟨secs + elapsedSecs.toNat, by rw [helapsed]; rfl, ?_⟩
      have hsub : r.zdo.parentAnnceTimerSecs.toNat ≤
          elapsedSecs.toNat + (saturatingSub16 r.zdo.parentAnnceTimerSecs elapsedSecs).toNat := by
        unfold saturatingSub16
        split
        · rename_i hle
          rw [UInt16.toNat_sub_of_le _ _ hle]
          omega
        · rename_i hlt
          rw [UInt16.le_iff_toNat_le] at hlt
          omega
      omega
  | ended children route told inactive none_left stopped =>
    refine .ended children ?_ ⟨told.constructed, ?_, told.bounded, told.apart⟩ ?_ ?_ ?_
    all_goals simp only [step, outstanding, named, hzero stopped.2]
    · exact route
    · exact told.covers
    · exact inactive
    · exact none_left
    · exact ⟨by simp [hdue], stopped.2⟩

/-- A broadcast that is sent. -/
theorem Told.broadcast {chunk marks : List IeeeAddress} {r' : AnnceRun} (hconstructed : r'.constructed = some children)
    (hcovers : children.Perm (r.named ++ r.excused ++ (chunk ++ marks))) (hlen : chunk.length ≤ MAX_PARENT_ANNCE_CHILDREN)
    (hbounded : ∀ b ∈ r.broadcasts, b.1.length ≤ MAX_PARENT_ANNCE_CHILDREN)
    (hapart : ∀ b ∈ r.broadcasts.tail, ∃ secs, b.2 = some secs ∧ APS_PARENT_ANNOUNCE_BASE_TIMER_SECS.toNat ≤ secs)
    (hsince : r.broadcasts ≠ [] → ∃ secs, r.elapsed = some secs ∧ APS_PARENT_ANNOUNCE_BASE_TIMER_SECS.toNat ≤ secs)
    (hbroadcasts : r'.broadcasts = r.broadcasts ++ [(chunk, r.elapsed)]) (hexcused : r'.excused = r.excused)
    (hmarks : r'.outstanding = marks) : Told r' children := by
  refine ⟨hconstructed, hcovers.trans ?_, ?_, ?_⟩
  · have hnamed : r'.named = r.named ++ chunk := by
      unfold named
      rw [hbroadcasts, List.flatMap_append, List.flatMap_singleton]
    rw [hnamed, hexcused, hmarks, ← List.append_assoc]
    refine List.Perm.append_right marks ?_
    rw [List.append_assoc, List.append_assoc]
    exact List.perm_append_comm.append_left r.named
  · rw [hbroadcasts]
    intro b hb
    rcases List.mem_append.mp hb with hb | hb
    · exact hbounded b hb
    · cases List.mem_singleton.mp hb
      exact hlen
  · rw [hbroadcasts]
    intro b hb
    cases hold : r.broadcasts with
    | nil => simp [hold] at hb
    | cons first rest =>
      rw [hold, List.cons_append, List.tail_cons, List.mem_append, List.mem_singleton] at hb
      rcases hb with hb | rfl
      · exact hapart b (by rw [hold]; exact hb)
      · exact hsince (by rw [hold]; exact List.cons_ne_nil _ _)

theorem Phase.sendDue (h : Phase r) (hdue : r.due = true) {micros : UInt32} (hready : r.zdo.Attempts → r.zdo.Ready sent) :
    Phase (r.step (.sendDue micros sent)) := by
  -- what is left after a chunk decides about the next phase
  have hafter : ∀ {children : List IeeeAddress} {z' : ZdoLayer} {frame : Buf}, r.zdo.sendDueParentAnnce micros sent = (z', [frame], .ok ()) →
      z'.nwk.canRoute = true → Told (r.step (.sendDue micros sent)) children → r.zdo.parentAnnceTimerSecs = 0 →
      (Nwk.outstanding z'.nwk.neighbors.entries ≠ [] ∧ z'.parentAnnceSequenceActive = true ∧
          z'.parentAnnceTimerSecs = nextParentAnnceTimer micros ∨
        Nwk.outstanding z'.nwk.neighbors.entries = [] ∧ z'.parentAnnceSequenceActive = false ∧
          z'.parentAnnceTimerSecs = r.zdo.parentAnnceTimerSecs) → Phase (r.step (.sendDue micros sent)) := by
    intro children z' frame heq hroute htold hzero hnext
    have hstep : (r.step (.sendDue micros sent)).zdo = z' := by rw [step, heq]
    rcases hnext with ⟨-, hactive, htimer⟩ | ⟨hnone, hinactive, htimer⟩
    · have hne := ne_zero_of_base_le (base_le_nextParentAnnceTimer micros)
      refine .sending children (by rw [hstep]; exact hroute) htold (by rw [hstep]; exact hactive) ?_ ?_ ⟨0, ?_, ?_⟩
      · rw [hstep, htimer]
        exact iff_of_false Bool.false_ne_true hne
      · simp [step, heq]
      · simp [step, heq]
      · rw [hstep, htimer, Nat.zero_add]
        exact UInt16.le_iff_toNat_le.mp (base_le_nextParentAnnceTimer micros)
    · refine .ended children (by rw [hstep]; exact hroute) htold (by rw [hstep]; exact hinactive) ?_ ⟨rfl, ?_⟩
      · rw [outstanding, hstep]
        exact hnone
      · rw [hstep, htimer, hzero]
  cases h with
  | leaf route silent =>
    have heq : r.zdo.sendDueParentAnnce micros sent = (r.zdo, [], .ok ()) := by simp [sendDueParentAnnce, route]
    refine .leaf ?_ ⟨?_, ?_⟩
    · rw [step, heq]
      exact route
    · rw [step, route]
      exact silent.1
    · rw [step, heq]
      simpa using silent.2
  | waiting route silent fresh inactive due =>
    have hsends := r.zdo.sendDueParentAnnce_sends route micros hready
    rw [inactive, if_neg Bool.false_ne_true] at hsends
    have hconstructed : (r.step (.sendDue micros sent)).constructed = some r.zdo.nwk.authenticatedChildIeees := by simp [step, route, inactive]
    have hnamed : r.named = [] := by rw [named, silent.2]; rfl
    generalize heq : r.zdo.sendDueParentAnnce micros sent = out at hsends
    cases hsends with
    | nothing none ended timer route' marks =>
      rename_i z'
      have hstep : (r.step (.sendDue micros sent)).zdo = z' := by rw [step, heq]
      have hbroadcasts : (r.step (.sendDue micros sent)).broadcasts = [] := by simp [step, heq, silent.2]
      refine .ended _ (by rw [hstep]; exact route') ⟨hconstructed, ?_, ?_, ?_⟩ (by rw [hstep]; exact ended) (by rw [outstanding, hstep]; exact marks)
        ⟨rfl, by rw [hstep, timer]; exact due.mp hdue⟩
      · rw [named, hbroadcasts, outstanding, hstep, marks, none]
        show List.Perm [] ([] ++ r.excused ++ [])
        rw [fresh.1]
        exact List.Perm.refl _
      · rw [hbroadcasts]
        exact fun _ h => absurd h List.not_mem_nil
      · rw [hbroadcasts]
        exact fun _ h => absurd h List.not_mem_nil
    | chunk route' _ bound split next =>
      rename_i z' frame
      refine hafter heq route' (Told.broadcast (r := r) hconstructed ?_ bound ?_ ?_ ?_ (by simp [step, heq]) rfl (by rw [outstanding, step, heq])) (due.mp hdue) next
      · rw [split, hnamed, fresh.1]
        exact List.Perm.refl _
      · rw [silent.2]
        exact fun _ h => absurd h List.not_mem_nil
      · rw [silent.2]
        exact fun _ h => absurd h List.not_mem_nil
      · exact fun h => absurd silent.2 h
  | sending children route told active due begun spaced =>
    have hsends := r.zdo.sendDueParentAnnce_sends route micros hready
    rw [active, if_pos rfl] at hsends
    have hconstructed : (r.step (.sendDue micros sent)).constructed = some children := by simp [step, route, active, told.constructed]
    obtain ⟨secs, helapsed, hspaced⟩ := spaced
    have hzero := due.mp hdue
    rw [hzero] at hspaced
    generalize heq : r.zdo.sendDueParentAnnce micros sent = out at hsends
    cases hsends with
    | nothing none ended timer route' marks =>
      rename_i z'
      have hstep : (r.step (.sendDue micros sent)).zdo = z' := by rw [step, heq]
      have hbroadcasts : (r.step (.sendDue micros sent)).broadcasts = r.broadcasts := by simp [step, heq]
      refine .ended children (by rw [hstep]; exact route') ⟨hconstructed, ?_, ?_, ?_⟩ (by rw [hstep]; exact ended)
        (by rw [outstanding, hstep]; exact marks) ⟨rfl, by rw [hstep, timer, hzero]⟩
      · rw [named, hbroadcasts, outstanding, hstep, marks, ← none]
        exact told.covers
      · rw [hbroadcasts]
        exact told.bounded
      · rw [hbroadcasts]
        exact told.apart
    | chunk route' _ bound split next =>
      rename_i z' frame
      refine hafter heq route' (Told.broadcast (r := r) hconstructed ?_ bound told.bounded told.apart
        (fun _ => ⟨secs, helapsed, by simpa using hspaced⟩) (by simp [step, heq]) rfl (by rw [outstanding, step, heq])) hzero next
      rw [split]
      exact told.covers
  | ended children route told inactive none_left stopped =>
    rw [stopped.1] at hdue
    cases hdue

theorem start_phase (z : ZdoLayer) (micros : UInt32) : Phase (start z micros) := by
  cases hroute : z.nwk.canRoute with
  | false =>
    have heq : z.scheduleParentAnnce micros = z := by simp [scheduleParentAnnce, hroute]
    exact .leaf (by rw [start, heq]; exact hroute) ⟨rfl, rfl⟩
  | true =>
    have heq : z.scheduleParentAnnce micros = { z with
        nwk := z.nwk.clearParentAnncePending
        parentAnnceSequenceActive := false
        parentAnnceTimerSecs := nextParentAnnceTimer micros } := by simp [scheduleParentAnnce, hroute]
    refine .waiting (by rw [start, heq]; exact hroute) ⟨rfl, rfl⟩ ⟨rfl, ?_⟩ (by rw [start, heq]) ?_
    · rw [outstanding, start, heq]
      refine List.map_eq_nil_iff.mpr (List.filter_eq_nil_iff.mpr fun e he => ?_)
      obtain ⟨x, -, rfl⟩ := List.mem_map.mp (NeighborTable.entries_mapActive z.nwk.neighbors _ ▸ he)
      split
      · simp [NeighborEntry.marked]
      · rename_i hactive
        simp [NeighborEntry.marked, hactive]
    · rw [start, heq]
      exact iff_of_false Bool.false_ne_true (ne_zero_of_base_le (base_le_nextParentAnnceTimer micros))

/-! ### After the last chunk -/

/-- The announcement has been constructed, and nobody is left of it. -/
structure Finished (children : List IeeeAddress) (broadcasts : List (List IeeeAddress × Option Nat)) (r : AnnceRun) : Prop where
  phase : Phase r
  constructed : r.constructed = some children
  none_left : r.outstanding = []
  broadcasts : r.broadcasts = broadcasts

theorem Finished.changed (h : Finished children broadcasts r) (henv : Environment r.zdo z') : Finished children broadcasts (r.changed z') :=
  ⟨h.phase.changed henv, h.constructed, (outstanding_changed henv h.none_left).2, h.broadcasts⟩

/-- Every call but the two of the timer is the environment's. -/
theorem step_changed (r : AnnceRun) (op : AnnceOp) : (∃ elapsedSecs, op = .tick elapsedSecs) ∨ (∃ micros sent, op = .sendDue micros sent) ∨
    ∃ z', r.step op = r.changed z' ∧ Environment r.zdo z' := by
  cases op with
  | tick elapsedSecs => exact Or.inl ⟨elapsedSecs, rfl⟩
  | sendDue micros sent => exact Or.inr (Or.inl ⟨micros, sent, rfl⟩)
  | processParentAnnce tsn payload micros sent => exact Or.inr (Or.inr ⟨_, rfl, processParentAnnce_environment r.zdo tsn payload micros sent⟩)
  | processParentAnnceRsp tsn payload => exact Or.inr (Or.inr ⟨_, rfl, processParentAnnceRsp_environment r.zdo tsn payload⟩)
  | arrive ieee address deviceType secured => exact Or.inr (Or.inr ⟨_, rfl, arrive_environment r.zdo ieee address deviceType secured⟩)
  | readmitted ieee deviceType secured =>
    exact Or.inr (Or.inr ⟨_, rfl, .of_nwk rfl (NeighborTable.modifySearched_kept _ _ fun e => .of_mark rfl rfl rfl)⟩)
  | authorize address =>
    refine Or.inr (Or.inr ⟨_, rfl, .of_nwk rfl (NeighborTable.modifySearched_kept _ _ fun e => ?_)⟩)
    split
    · exact .of_mark rfl rfl rfl
    · exact .refl e
  | depart address ieee => exact Or.inr (Or.inr ⟨_, rfl, .of_evicts (NwkLayer.evictChild_evicts r.zdo.nwk address ieee)⟩)
  | keepalive address source => exact Or.inr (Or.inr ⟨_, rfl, keepalive_environment r.zdo address source⟩)
  | transactions slots => exact Or.inr (Or.inr ⟨_, rfl, rfl, rfl, Or.inl rfl, List.forall₂_same.mpr fun e _ => .refl e⟩)

/-- **One proper step.** -/
theorem Phase.step (h : Phase r) {op : AnnceOp} (hop : Proper r op) : Phase (r.step op) := by
  rcases step_changed r op with ⟨elapsedSecs, rfl⟩ | ⟨micros, sent, rfl⟩ | ⟨z', heq, henv⟩
  · exact h.tick hop elapsedSecs
  · exact h.sendDue hop.1 hop.2
  · rw [heq]
    exact h.changed henv

theorem Finished.step (h : Finished children broadcasts r) {op : AnnceOp} (hop : Proper r op) :
    Finished children broadcasts (r.step op) := by
  have hphase := h.phase.step hop
  rcases step_changed r op with ⟨elapsedSecs, rfl⟩ | ⟨micros, sent, rfl⟩ | ⟨z', heq, henv⟩
  · refine ⟨hphase, h.constructed, ?_, h.broadcasts⟩
    show Nwk.outstanding (r.zdo.tickParentAnnceTimer elapsedSecs).1.nwk.neighbors.entries = []
    rw [tickParentAnnceTimer_nwk]
    exact h.none_left
  · cases h.phase with
    | leaf route silent => exact absurd (silent.1.symm.trans h.constructed) (by simp)
    | waiting route silent fresh inactive due => exact absurd (silent.1.symm.trans h.constructed) (by simp)
    | ended _ route told inactive none_left stopped => exact absurd (stopped.1.symm.trans hop.1) Bool.false_ne_true
    | sending _ route told active due begun spaced =>
      have hsends := r.zdo.sendDueParentAnnce_sends route micros hop.2
      rw [active, if_pos rfl, show Nwk.outstanding r.zdo.nwk.neighbors.entries = [] from h.none_left] at hsends
      generalize heq : r.zdo.sendDueParentAnnce micros sent = out at hsends
      cases hsends with
      | nothing none ended timer route' marks =>
        refine ⟨hphase, ?_, ?_, ?_⟩
        · simp [AnnceRun.step, active, h.constructed]
        · rw [outstanding, AnnceRun.step, heq]
          exact marks
        · simp [AnnceRun.step, heq, h.broadcasts]
      | chunk route' some bound split next => exact absurd (List.append_eq_nil_iff.mp split).1 some
  · rw [heq]
    exact h.changed henv

/-! ### The theorem -/

/-- A mark goes with its child, when the child has been heard, or into a broadcast. -/
def Excuses (r : AnnceRun) (op : AnnceOp) : Prop :=
  match op with
  | .sendDue .. => True
  | _ => List.Forall₂ Kept r.zdo.nwk.neighbors.entries (r.step op).zdo.nwk.neighbors.entries

theorem step_excuses (r : AnnceRun) (op : AnnceOp) : Excuses r op := by
  rcases step_changed r op with ⟨elapsedSecs, rfl⟩ | ⟨micros, sent, rfl⟩ | ⟨z', heq, henv⟩
  · show List.Forall₂ Kept _ (r.zdo.tickParentAnnceTimer elapsedSecs).1.nwk.neighbors.entries
    rw [tickParentAnnceTimer_nwk]
    exact List.forall₂_same.mpr fun e _ => .refl e
  · trivial
  · unfold Excuses
    split
    · trivial
    · rw [heq]
      exact henv.entries

/-- **A parent announcement loses no child**, in every run in which each due broadcast is sent, once: the children of its
    construction are named, excused or outstanding with the timer running, and after the last of them nothing is sent. -/
theorem announcement_loses_no_child (z : ZdoLayer) (micros : UInt32) (ops : List AnnceOp) (h : Run.Along step Proper (start z micros) ops) :
    Accounted (Run.run step (start z micros) ops) ∧ Run.Along step Excuses (start z micros) ops ∧
      ∀ ops', Run.Along step Proper (Run.run step (start z micros) ops) ops' → (Run.run step (start z micros) ops).constructed ≠ none →
        (Run.run step (start z micros) ops).outstanding = [] →
        (Run.run step (start z micros) (ops ++ ops')).broadcasts = (Run.run step (start z micros) ops).broadcasts := by
  have hphase : Phase (Run.run step (start z micros) ops) := Run.run_induct (fun _ _ hr hop => hr.step hop) (start_phase z micros) h
  refine ⟨hphase.accounted, Run.along_of_invariant (I := fun _ => True) (fun _ _ _ => trivial) (fun r op _ => step_excuses r op) trivial ops,
    fun ops' h' hconstructed hnone => ?_⟩
  obtain ⟨children, hchildren⟩ := Option.ne_none_iff_exists'.mp hconstructed
  rw [Run.run_append]
  exact (Run.run_induct (fun _ _ hr hop => hr.step hop) (I := Finished children _) ⟨hphase, hchildren, hnone, rfl⟩ h').broadcasts

/-- One child, whose broadcast fails. -/
def failedBroadcast : AnnceRun := Run.run step (start (parentWith 0x10 [.addOrUpdate (sleepyChild false)]) 0) [.tick 20, .sendDue 0 [false]]

def tenChildren : List Identity.Event :=
  (List.range 10).map fun i => .addOrUpdate
    (.admitted (Vector.replicate 8 (UInt8.ofNat (i + 1))) (UInt16.ofNat (i + 1)) .endDevice true)

/-- Ten children take two broadcasts, for the second of which the timer is drawn again. -/
def tenNamed : List AnnceOp := [.tick 20, .sendDue 5 [true], .tick 20, .sendDue 0 [true]]

theorem sent_accounts :
    let r := Run.run step (start (parentWith 0x10 tenChildren) 0) tenNamed
    r.broadcasts.map (fun b => (b.1.length, b.2)) = [(9, none), (1, some 20)] ∧ Accounted r := by
  refine ⟨by decide +kernel, (announcement_loses_no_child (parentWith 0x10 tenChildren) 0 tenNamed
    ⟨rfl, ⟨by decide +kernel, fun _ => ⟨rfl, .empty, by decide +kernel, Or.inl rfl⟩⟩, show AnnceRun.due _ = false by decide +kernel,
      ⟨by decide +kernel, fun _ => ⟨rfl, .empty, by decide +kernel, Or.inl rfl⟩⟩, trivial⟩).1⟩

/-- The child of a failed broadcast is neither named nor outstanding, and the timer has stopped. -/
theorem failed_broadcast_loses_child :
    (failedBroadcast.constructed = some [sleepyIeee] ∧ failedBroadcast.named = [] ∧ failedBroadcast.excused = [] ∧
      failedBroadcast.outstanding = [] ∧ failedBroadcast.zdo.parentAnnceTimerSecs = 0 ∧ failedBroadcast.due = false) ∧
    ¬ Accounted failedBroadcast := by
  have hlost : failedBroadcast.constructed = some [sleepyIeee] ∧ failedBroadcast.named = [] ∧ failedBroadcast.excused = [] ∧
      failedBroadcast.outstanding = [] ∧ failedBroadcast.zdo.parentAnnceTimerSecs = 0 ∧ failedBroadcast.due = false := by
    decide +kernel
  refine ⟨hlost, fun h => ?_⟩
  have hperm := h.covers _ hlost.1
  rw [hlost.2.1, hlost.2.2.1, hlost.2.2.2.1] at hperm
  exact absurd hperm.length_eq (by decide)

end AnnceRun

end Zigbee.Zdo
