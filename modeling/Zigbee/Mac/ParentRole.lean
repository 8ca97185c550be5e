import Zigbee.Lib.Run
import Zigbee.Lib.Table
import Zigbee.Mac.Frames

/-!
# The parent role of the software MAC

Model of `zigbee-mac/src/soft_mac/parent.rs`: Association Responses wait for the child's poll, received commands
wait for the runtime.

* `ParentRole` — the role's state; `associateResponse`, `queueCommand`, `setFramePending`, `nextCommandEvent`, `clearRole`.
* `ParentOp`, `ParentSystem.step` — one call at a point of true time, with what is observed of it.
* `Ledger` — what an observer knows of one child's transaction; `PollQueue` — the polls from short addresses.
* `association_transactions` — every run keeps both.
-/

namespace Zigbee.Mac

open Bytes Checked ByteParser
open Table (swapRemove)
open Run

inductive MacError where
  | noBeacon
  | invalidParameter
  | radioError
  | channelAccessFailure
  | noAck
  | frameTooLong
  | unsupported
  | securityError
  | transactionOverflow
  | transactionExpired
  | scanInProgress
  | trackingOff
  | associationDenied
  | panAtCapacity
  | other
  | noData
  deriving DecidableEq

inductive PhyError where
  | channelBusy
  | invalidChannel
  | frameTooLong
  | crcFailed
  | hardware
  | unsupported
  deriving DecidableEq

def phyError : PhyError → MacError
  | .channelBusy => .channelAccessFailure
  | .invalidChannel => .invalidParameter
  | .frameTooLong => .frameTooLong
  | .crcFailed => .radioError
  | .hardware => .radioError
  | .unsupported => .unsupported

def mapBuildError : FrameBuildError → MacError
  | .frameTooLong => .frameTooLong
  | .invalidParameter => .invalidParameter

/-- `aBaseSuperframeDuration` in microseconds. -/
def BASE_SUPERFRAME_DURATION_US : Nat := 960 * 16

structure MlmeAssociateResponseDelivery where
  deviceAddress : IeeeAddress
  shortAddress : ShortAddress
  status : AssociationStatus
  result : Except MacError Unit
  deriving DecidableEq

/-- What the runtime takes from the role: a received command, or the outcome of an Association Response. -/
inductive RoleEvent where
  | command (event : MacCommandEvent)
  | associationResponseDelivery (delivery : MlmeAssociateResponseDelivery)
  deriving DecidableEq

def delivery (response : MlmeAssociateResponse) (result : Except MacError Unit) : MlmeAssociateResponseDelivery where
  deviceAddress := response.deviceAddress
  shortAddress := response.shortAddress
  status := response.status
  result

/-- `(now_us.wrapping_sub(deadline_us) as i32) >= 0` -/
def deadlineReached (nowUs deadlineUs : UInt32) : Bool := nowUs - deadlineUs < 0x80000000

structure PendingAssociation where
  response : MlmeAssociateResponse
  expiresAtUs : UInt32
  deriving DecidableEq

/-- The child that a transaction is for. -/
def PendingAssociation.child (entry : PendingAssociation) : IeeeAddress := entry.response.deviceAddress

/-- The role; the first three fields are its const parameters. -/
structure ParentRole where
  maxEvents : Nat
  maxAssociations : Nat
  maxPending : Nat
  events : List MacCommandEvent
  associations : List PendingAssociation
  pending : List MacAddress
  serviceRequest : Bool
  droppedEvents : UInt16

/-- What a call reads of the PIB and gets from the radio. -/
structure MacContext where
  panId : PanId
  dsn : UInt8
  extendedAddress : IeeeAddress
  transactionPersistenceTime : UInt16
  hardwareAutoAck : Bool
  setAckFramePending : Except PhyError Unit

/-- How an acknowledged transmission ends, and the frames that are heard while it lasts. -/
structure Transmission where
  outcome : Except MacError Unit
  heard : List (Buf × UInt8)

/-- What an observer of the role sees, in order. -/
inductive Observed where
  | accepted (response : MlmeAssociateResponse) (deadline : Nat)
  | transmitted (response : MlmeAssociateResponse) (outcome : Except MacError Unit)
  | queued (command : MacCommandEvent)
  | returned (event : RoleEvent) (now : Nat)
  | cleared
  deriving DecidableEq

def isUnicast : MacAddress → Bool
  | .short _ address => address < 0xFFF8
  | .extended _ address => address ≠ ieeeFill 0xFF

def isDataRequest : MacCommandEvent → Bool
  | .dataRequest .. => true
  | _ => false

namespace ParentRole

def newRole (maxEvents maxAssociations maxPending : Nat) : ParentRole where
  maxEvents
  maxAssociations
  maxPending
  events := []
  associations := []
  pending := []
  serviceRequest := false
  droppedEvents := 0

def framePendingFor (p : ParentRole) (source : MacAddress) : Bool :=
  p.pending.contains source ||
    match source with
    | .extended _ address => p.associations.any (·.child == address)
    | .short _ _ => false

def queueCommand (p : ParentRole) (data : Buf) (lqi : UInt8) : ParentRole × List Observed :=
  match parseParentCommand data lqi with
  | .ok event =>
    if p.events.length < p.maxEvents then
      ({ p with events := p.events ++ [event], serviceRequest := p.serviceRequest || isDataRequest event }, [.queued event])
    else ({ p with droppedEvents := if p.droppedEvents = 0xFFFF then 0xFFFF else p.droppedEvents + 1 }, [])
  | _ => (p, [])

def takeServiceRequest (p : ParentRole) : ParentRole := { p with serviceRequest := false }

def clearRole (p : ParentRole) : ParentRole := { p with events := [], associations := [], pending := [], serviceRequest := false }

/-- The radio's own table, with hardware acknowledgements. -/
def setHardwareFramePending (c : MacContext) : Except MacError Unit :=
  if !c.hardwareAutoAck then .ok ()
  else
    match c.setAckFramePending with
    | .ok () => .ok ()
    | .error .hardware => .error .transactionOverflow
    | .error other => .error (phyError other)

def associateResponse (p : ParentRole) (c : MacContext) (nowUs : UInt32) (rsp : MlmeAssociateResponse) :
    ParentRole × Except MacError Unit :=
  if c.panId = PanId.BROADCAST then (p, .error .invalidParameter)
  else
    match buildAssociationResponse c.dsn c.panId c.extendedAddress rsp with
    | .error e => (p, .error (mapBuildError e))
    | .ok _ =>
      let expiresAtUs := nowUs + c.transactionPersistenceTime.toUInt32 * UInt32.ofNat BASE_SUPERFRAME_DURATION_US
      let existing := p.associations.findIdx? (·.child == rsp.deviceAddress)
      if existing = none ∧ p.maxAssociations ≤ p.associations.length then (p, .error .transactionOverflow)
      else
        match setHardwareFramePending c with
        | .error e => (p, .error e)
        | .ok () =>
          let entry : PendingAssociation := ⟨rsp, expiresAtUs⟩
          match existing with
          | some index => ({ p with associations := p.associations.set index entry }, .ok ())
          | none => ({ p with associations := p.associations ++ [entry] }, .ok ())

def setFramePending (p : ParentRole) (c : MacContext) (child : MacAddress) (pending : Bool) : ParentRole × Except MacError Unit :=
  if child.panId ≠ c.panId ∨ c.panId = PanId.BROADCAST ∨ isUnicast child = false then (p, .error .invalidParameter)
  else if c.hardwareAutoAck then (p, setHardwareFramePending c)
  else
    match p.pending.findIdx? (· == child), pending with
    | none, true =>
      if p.pending.length < p.maxPending then ({ p with pending := p.pending ++ [child] }, .ok ())
      else (p, .error .transactionOverflow)
    | some index, false => ({ p with pending := swapRemove p.pending index }, .ok ())
    | _, _ => (p, .ok ())

/-- The frames that a listening window hears. -/
def hear (p : ParentRole) : List (Buf × UInt8) → ParentRole × List Observed
  | [] => (p, [])
  | (data, lqi) :: frames =>
    let queued := p.queueCommand data lqi
    let rest := queued.1.hear frames
    (rest.1, queued.2 ++ rest.2)

def transmitAssociationResponse (p : ParentRole) (c : MacContext) (tx : Transmission) (response : MlmeAssociateResponse) :
    ParentRole × List Observed × Except MacError Unit :=
  match buildAssociationResponse c.dsn c.panId c.extendedAddress response with
  | .error e => (p, [], .error (mapBuildError e))
  | .ok _ => ((p.hear tx.heard).1, .transmitted response tx.outcome :: (p.hear tx.heard).2, tx.outcome)

/-- The radio's table is told too, whatever it answers. -/
def finishAssociationDelivery (p : ParentRole) (child : IeeeAddress) (result : Except MacError Unit) :
    ParentRole × MlmeAssociateResponseDelivery :=
  match p.associations.findIdx? (·.child == child) with
  | some index =>
    match p.associations[index]? with
    | some entry => ({ p with associations := swapRemove p.associations index }, delivery entry.response result)
    | none => (p, delivery ⟨child, 0xFFFF, .panAccessDenied⟩ result)
  | none => (p, delivery ⟨child, 0xFFFF, .panAccessDenied⟩ result)

/-- `events.push_front(event)`, whose failure is ignored. -/
def pushFront (p : ParentRole) (event : MacCommandEvent) : ParentRole :=
  if p.events.length < p.maxEvents then { p with events := event :: p.events } else p

/-- A Data Request that has left the queue. -/
def serviceDataRequest (p : ParentRole) (c : MacContext) (tx : Transmission) (event : MacCommandEvent) :
    MacAddress → ParentRole × List Observed × RoleEvent
  | .extended _ child =>
    match p.associations.find? (·.child == child) with
    | none => (p, [], .command event)
    | some entry =>
      let sent := p.transmitAssociationResponse c tx entry.response
      match sent.2.2 with
      | .ok () =>
        let finished := sent.1.finishAssociationDelivery child (.ok ())
        (finished.1, sent.2.1, .associationResponseDelivery finished.2)
      | .error .frameTooLong =>
        let finished := sent.1.finishAssociationDelivery child (.error .frameTooLong)
        (finished.1, sent.2.1, .associationResponseDelivery finished.2)
      | .error .invalidParameter =>
        let finished := sent.1.finishAssociationDelivery child (.error .invalidParameter)
        (finished.1, sent.2.1, .associationResponseDelivery finished.2)
      -- a failed attempt keeps the transaction
      | .error _ => (sent.1, sent.2.1, .command event)
  | .short _ shortAddress =>
    match p.associations.find? (fun entry => entry.response.status == .success && entry.response.shortAddress == shortAddress) with
    | none => (p, [], .command event)
    | some entry =>
      -- the poll goes back to the front, for the runtime
      let p := { p.pushFront event with serviceRequest := true }
      let finished := p.finishAssociationDelivery entry.child (.ok ())
      (finished.1, [], .associationResponseDelivery finished.2)

def nextCommandEvent (p : ParentRole) (c : MacContext) (tx : Transmission) (nowUs : UInt32) : ParentRole × List Observed × Option RoleEvent :=
  match p.associations.findIdx? (fun entry => deadlineReached nowUs entry.expiresAtUs) with
  | some index =>
    match p.associations[index]? with
    | some entry =>
      ({ p with associations := swapRemove p.associations index }, [],
        some (.associationResponseDelivery (delivery entry.response (.error .transactionExpired))))
    | none => (p, [], none)
  | none =>
    match p.events with
    | [] => ({ p with serviceRequest := false }, [], none)
    | event :: events =>
      let p := { p with events }
      match event with
      | .dataRequest source _ _ =>
        let serviced := p.serviceDataRequest c tx event source
        (serviced.1, serviced.2.1, some serviced.2.2)
      | _ => (p, [], some (.command event))

end ParentRole

/-! ## Calls -/

inductive ParentOp where
  | associateResponse (context : MacContext) (response : MlmeAssociateResponse)
  | queueCommand (data : Buf) (lqi : UInt8)
  | setFramePending (context : MacContext) (child : MacAddress) (pending : Bool)
  | nextCommandEvent (context : MacContext) (tx : Transmission)
  | takeServiceRequest
  | clearRole
  | advance (us : Nat)

/-- The role, at a point of time that does not wrap. -/
structure ParentSystem where
  role : ParentRole
  now : Nat

namespace ParentSystem

/-- `monotonic_micros()` -/
def clock (s : ParentSystem) : UInt32 := UInt32.ofNat s.now

def step (s : ParentSystem) : ParentOp → ParentSystem × List Observed
  | .associateResponse c rsp =>
    let done := s.role.associateResponse c s.clock rsp
    (⟨done.1, s.now⟩,
      match done.2 with
      | .ok () => [.accepted rsp (s.now + c.transactionPersistenceTime.toNat * BASE_SUPERFRAME_DURATION_US)]
      | .error _ => [])
  | .queueCommand data lqi => (⟨(s.role.queueCommand data lqi).1, s.now⟩, (s.role.queueCommand data lqi).2)
  | .setFramePending c child pending => (⟨(s.role.setFramePending c child pending).1, s.now⟩, [])
  | .nextCommandEvent c tx =>
    let next := s.role.nextCommandEvent c tx s.clock
    (⟨next.1, s.now⟩, next.2.1 ++ (next.2.2.map (.returned · s.now)).toList)
  | .takeServiceRequest => (⟨s.role.takeServiceRequest, s.now⟩, [])
  | .clearRole => (⟨s.role.clearRole, s.now⟩, [.cleared])
  | .advance us => (⟨s.role, s.now + us⟩, [])

def new (maxEvents maxAssociations maxPending now : Nat) : ParentSystem := ⟨.newRole maxEvents maxAssociations maxPending, now⟩

end ParentSystem

/-! ## What an observer knows -/

/-- An accepted response that is not reported, replaced or cleared. -/
structure Transaction where
  response : MlmeAssociateResponse
  deadline : Nat
  acknowledged : Bool

/-- The source of a Data Request from a short address. -/
def shortPoll : MacCommandEvent → Option ShortAddress
  | .dataRequest (.short _ address) _ _ => some address
  | _ => none

/-- One child's open transaction, and the short addresses whose polls wait for the runtime. -/
structure Ledger where
  transaction : Option Transaction
  polls : List ShortAddress

namespace Ledger

/-- A transaction is open from its acceptance until a report, a replacement or a reset. -/
def step (child : IeeeAddress) (l : Ledger) : Observed → Ledger
  | .accepted response deadline => if response.deviceAddress = child then { l with transaction := some ⟨response, deadline, false⟩ } else l
  | .transmitted response (.ok ()) =>
    { l with transaction := l.transaction.map fun t => if t.response = response then { t with acknowledged := true } else t }
  | .queued command => { l with polls := l.polls ++ (shortPoll command).toList }
  | .returned (.command command) _ => if (shortPoll command).isSome then { l with polls := l.polls.tail } else l
  | .returned (.associationResponseDelivery d) _ => if d.deviceAddress = child then { l with transaction := none } else l
  | .cleared => ⟨none, []⟩
  | _ => l

/-- A report is about the open transaction; success has been acknowledged for this very response, or is shown by the poll
    that waits first and is from the assigned address, and expiry waits for the deadline. -/
def Allows (child : IeeeAddress) (l : Ledger) : Observed → Prop
  | .returned (.associationResponseDelivery d) now => d.deviceAddress = child →
      ∃ t, l.transaction = some t ∧ t.response.deviceAddress = child ∧ d.shortAddress = t.response.shortAddress ∧
        d.status = t.response.status ∧
        (d.result = .ok () → t.acknowledged = true ∨ t.response.status = .success ∧ l.polls.head? = some t.response.shortAddress) ∧
        (d.result = .error .transactionExpired → t.deadline ≤ now)
  | _ => True

end Ledger

/-- The command is a Data Request from a short address. -/
def isShortPoll (command : MacCommandEvent) : Bool := (shortPoll command).isSome

namespace PollQueue

/-- The polls that the runtime has not been given. -/
def step (waiting : List MacCommandEvent) : Observed → List MacCommandEvent
  | .queued command => if isShortPoll command then waiting ++ [command] else waiting
  | .returned (.command command) _ => if isShortPoll command then waiting.tail else waiting
  | .cleared => []
  | _ => waiting

/-- The runtime gets the first one. -/
def Allows (waiting : List MacCommandEvent) : Observed → Prop
  | .returned (.command command) _ => isShortPoll command = true → waiting.head? = some command
  | _ => True

end PollQueue

/-! ## Deadlines -/

theorem deadlineReached_ofNat (now deadline : Nat) : deadlineReached (.ofNat now) (.ofNat deadline) = true ↔
    (2 ^ 32 - deadline % 2 ^ 32 + now % 2 ^ 32) % 2 ^ 32 < 2 ^ 31 := by
  rw [deadlineReached, decide_eq_true_iff, UInt32.lt_iff_toNat_lt, UInt32.toNat_sub, UInt32.toNat_ofNat', UInt32.toNat_ofNat']
  exact Iff.rfl

variable {now : Nat}

/-- A deadline less than half a period ahead is not taken for a past one. -/
theorem le_of_deadlineReached {deadline : Nat} (hnear : deadline < now + 2 ^ 31)
    (h : deadlineReached (.ofNat now) (.ofNat deadline) = true) : deadline ≤ now := by
  have := (deadlineReached_ofNat now deadline).mp h
  omega

/-- Within half a period a past deadline is seen. -/
theorem deadlineReached_of_le {deadline : Nat} (h : deadline ≤ now) (hnear : now < deadline + 2 ^ 31) :
    deadlineReached (.ofNat now) (.ofNat deadline) = true := by
  refine (deadlineReached_ofNat now deadline).mpr ?_
  omega

/-! ## The invariant -/

open PendingAssociation

/-- The queue is in bounds, and each child has one transaction at most. -/
structure ParentRole.Lawful (p : ParentRole) : Prop where
  room : p.events.length ≤ p.maxEvents
  distinct : (p.associations.map child).Nodup

/-- The table holds a child's open transaction, whose deadline is less than half a period away. -/
structure Ledger.Tracks (child : IeeeAddress) (p : ParentRole) (now : Nat) (l : Ledger) : Prop where
  lawful : p.Lawful
  opened : ∀ t, l.transaction = some t → t.response.deviceAddress = child ∧
    ⟨t.response, UInt32.ofNat t.deadline⟩ ∈ p.associations ∧ t.deadline < now + 2 ^ 31
  closed : l.transaction = none → ∀ entry ∈ p.associations, entry.child ≠ child
  polls : l.polls = p.events.filterMap shortPoll

/-! ### Received frames -/

variable {q : ParentRole} {log : List Observed} {response : MlmeAssociateResponse}

namespace ParentRole

variable {p : ParentRole}

/-- What hearing frames does: some commands join the queue. -/
structure Hears (p q : ParentRole) (log : List Observed) : Prop where
  associations : q.associations = p.associations
  bound : q.maxEvents = p.maxEvents
  room : p.events.length ≤ p.maxEvents → q.events.length ≤ q.maxEvents
  events : ∃ commands, q.events = p.events ++ commands ∧ log = commands.map .queued

theorem Hears.refl (p : ParentRole) : Hears p p [] := ⟨rfl, rfl, id, [], (List.append_nil _).symm, rfl⟩

theorem Hears.trans {p r : ParentRole} {log' : List Observed} (h : Hears p q log) (h' : Hears q r log') : Hears p r (log ++ log') := by
  obtain ⟨commands, hevents, rfl⟩ := h.events
  obtain ⟨commands', hevents', rfl⟩ := h'.events
  refine ⟨h'.associations.trans h.associations, h'.bound.trans h.bound, fun hroom => h'.room (h.room hroom), commands ++ commands', ?_, ?_⟩
  · rw [hevents', hevents, List.append_assoc]
  · rw [List.map_append]

theorem queueCommand_hears (p : ParentRole) (data : Buf) (lqi : UInt8) : Hears p (p.queueCommand data lqi).1 (p.queueCommand data lqi).2 := by
  unfold queueCommand
  split
  · rename_i event _
    split
    · rename_i hroom
      refine ⟨rfl, rfl, fun _ => ?_, [event], rfl, rfl⟩
      rw [List.length_append, List.length_singleton]
      exact hroom
    · exact ⟨rfl, rfl, id, [], (List.append_nil _).symm, rfl⟩
  · exact .refl p

theorem hear_hears (frames : List (Buf × UInt8)) (p : ParentRole) : Hears p (p.hear frames).1 (p.hear frames).2 := by
  induction frames generalizing p with
  | nil => exact .refl p
  | cons frame frames ih => exact (queueCommand_hears p frame.1 frame.2).trans (ih _)

/-! ### One step of the queue -/

/-- An Association Response is not built, or is sent while frames are heard. -/
inductive Transmits (p : ParentRole) (response : MlmeAssociateResponse) : ParentRole → List Observed → Except MacError Unit → Prop
  | refused (e : FrameBuildError) : Transmits p response p [] (.error (mapBuildError e))
  | sent {q : ParentRole} {log : List Observed} (outcome : Except MacError Unit) (hears : Hears p q log) :
      Transmits p response q (.transmitted response outcome :: log) outcome

theorem transmit_transmits (c : MacContext) (tx : Transmission) (response : MlmeAssociateResponse) :
    Transmits p response (p.transmitAssociationResponse c tx response).1 (p.transmitAssociationResponse c tx response).2.1
      (p.transmitAssociationResponse c tx response).2.2 := by
  unfold transmitAssociationResponse
  split
  · exact .refused _
  · exact .sent _ (hear_hears tx.heard p)

/-- What the queue does when nothing has expired: what becomes of its first command. -/
inductive Serves (p : ParentRole) : ParentRole → List Observed → Option RoleEvent → Prop
  | idle (empty : p.events = []) : Serves p { p with serviceRequest := false } [] none
  | returned {event : MacCommandEvent} {events : List MacCommandEvent} (first : p.events = event :: events) :
      Serves p { p with events } [] (some (.command event))
  | failed {event : MacCommandEvent} {events : List MacCommandEvent} {response : MlmeAssociateResponse} {q : ParentRole} {log : List Observed}
      {e : MacError} (first : p.events = event :: events) (notShort : isShortPoll event = false)
      (transmits : Transmits { p with events } response q log (.error e)) : Serves p q log (some (.command event))
  | delivered {event : MacCommandEvent} {events : List MacCommandEvent} {index : Nat} {entry : PendingAssociation} {q : ParentRole}
      {log : List Observed} {result : Except MacError Unit} (first : p.events = event :: events) (notShort : isShortPoll event = false)
      (found : p.associations[index]? = some entry) (transmits : Transmits { p with events } entry.response q log result)
      (notExpired : result ≠ .error .transactionExpired) :
      Serves p { q with associations := swapRemove q.associations index } log
        (some (.associationResponseDelivery (delivery entry.response result)))
  | confirmed {pan : PanId} {destination : MacAddress} {lqi : UInt8} {events : List MacCommandEvent} {index : Nat} {entry : PendingAssociation}
      (first : p.events = .dataRequest (.short pan entry.response.shortAddress) destination lqi :: events)
      (found : p.associations[index]? = some entry) (success : entry.response.status = .success) :
      Serves p { p with serviceRequest := true, associations := swapRemove p.associations index } []
        (some (.associationResponseDelivery (delivery entry.response (.ok ()))))

/-- A delivery is reported for the entry of its child. -/
theorem finish_found (hdistinct : (p.associations.map child).Nodup) {entry : PendingAssociation}
    (hentry : entry ∈ p.associations) (result : Except MacError Unit) :
    ∃ index, p.associations[index]? = some entry ∧ p.finishAssociationDelivery entry.child result =
      ({ p with associations := swapRemove p.associations index }, delivery entry.response result) := by
  unfold finishAssociationDelivery
  split
  · rename_i index hindex
    obtain ⟨entry', hat, hchild⟩ := Table.getElem?_of_findIdx? hindex
    have heq : entry' = entry := List.inj_on_of_nodup_map hdistinct (List.mem_of_getElem? hat) hentry (beq_iff_eq.mp hchild)
    subst heq
    rw [hat]
    exact ⟨index, hat, rfl⟩
  · rename_i hnone
    have := List.findIdx?_eq_none_iff.mp hnone entry hentry
    simp at this

theorem Transmits.associations {result : Except MacError Unit} (h : Transmits p response q log result) :
    q.associations = p.associations := by
  cases h with
  | refused => rfl
  | sent _ hears => exact hears.associations

/-- The queue has room for the command that has just left it. -/
theorem pushFront_eq {events : List MacCommandEvent} {event : MacCommandEvent} (hroom : p.events.length ≤ p.maxEvents)
    (hfirst : p.events = event :: events) : ({ p with events } : ParentRole).pushFront event = p := by
  have hlt : events.length < p.maxEvents := by
    rw [hfirst, List.length_cons] at hroom
    omega
  unfold pushFront
  rw [if_pos hlt]
  cases p
  cases hfirst
  rfl

theorem serviceDataRequest_serves (hp : p.Lawful) (c : MacContext) (tx : Transmission) {source destination : MacAddress} {lqi : UInt8}
    {events : List MacCommandEvent} (hfirst : p.events = .dataRequest source destination lqi :: events) :
    Serves p (({ p with events } : ParentRole).serviceDataRequest c tx (.dataRequest source destination lqi) source).1
      (({ p with events } : ParentRole).serviceDataRequest c tx (.dataRequest source destination lqi) source).2.1
      (some (({ p with events } : ParentRole).serviceDataRequest c tx (.dataRequest source destination lqi) source).2.2) := by
  cases source with
  | extended pan child =>
    unfold serviceDataRequest
    dsimp only
    split
    · exact .returned hfirst
    · rename_i entry hentry
      have hmem : entry ∈ p.associations := List.mem_of_find?_eq_some hentry
      obtain rfl : entry.child = child := by simpa using List.find?_some hentry
      have htx := transmit_transmits (p := ({ p with events } : ParentRole)) c tx entry.response
      generalize ({ p with events } : ParentRole).transmitAssociationResponse c tx entry.response = sent at htx
      obtain ⟨q, log, result⟩ := sent
      dsimp only at htx ⊢
      have hassoc : q.associations = p.associations := htx.associations
      have hfinish : result ≠ .error .transactionExpired →
          Serves p (q.finishAssociationDelivery entry.child result).1 log
            (some (.associationResponseDelivery (q.finishAssociationDelivery entry.child result).2)) := by
        intro hresult
        obtain ⟨index, hat, heq⟩ := finish_found (p := q) (by rw [hassoc]; exact hp.distinct) (by rw [hassoc]; exact hmem) result
        rw [heq]
        exact .delivered hfirst rfl (by rw [← hassoc]; exact hat) htx hresult
      split
      · exact hfinish (by simp)
      · exact hfinish (by simp)
      · exact hfinish (by simp)
      · exact .failed hfirst rfl htx
  | short pan shortAddress =>
    unfold serviceDataRequest
    dsimp only
    split
    · exact .returned hfirst
    · rename_i entry hentry
      have hmem : entry ∈ p.associations := List.mem_of_find?_eq_some hentry
      obtain ⟨hstatus, rfl⟩ : entry.response.status = .success ∧ entry.response.shortAddress = shortAddress := by
        simpa using List.find?_some hentry
      rw [pushFront_eq hp.room hfirst]
      obtain ⟨index, hat, heq⟩ := finish_found (p := ({ p with serviceRequest := true } : ParentRole)) hp.distinct hmem (.ok ())
      rw [heq]
      exact .confirmed hfirst hat hstatus

/-- **What `next_command_event` can do**: it reports an expired transaction, or else serves the queue. -/
theorem nextCommandEvent_cases (hp : p.Lawful) (c : MacContext) (tx : Transmission) (nowUs : UInt32) :
    (∃ index entry, p.associations[index]? = some entry ∧ deadlineReached nowUs entry.expiresAtUs = true ∧
      p.nextCommandEvent c tx nowUs = ({ p with associations := swapRemove p.associations index }, [],
        some (.associationResponseDelivery (delivery entry.response (.error .transactionExpired))))) ∨
    (∀ entry ∈ p.associations, deadlineReached nowUs entry.expiresAtUs = false) ∧
      Serves p (p.nextCommandEvent c tx nowUs).1 (p.nextCommandEvent c tx nowUs).2.1 (p.nextCommandEvent c tx nowUs).2.2 := by
  unfold nextCommandEvent
  split
  · rename_i index hindex
    obtain ⟨entry, hat, hreached⟩ := Table.getElem?_of_findIdx? hindex
    rw [hat]
    exact Or.inl ⟨index, entry, hat, hreached, rfl⟩
  · rename_i hnone
    refine Or.inr ⟨List.findIdx?_eq_none_iff.mp hnone, ?_⟩
    split
    · rename_i hempty
      exact .idle hempty
    · rename_i event events hfirst
      dsimp only
      split
      · exact serviceDataRequest_serves hp c tx hfirst
      · exact .returned hfirst

end ParentRole

/-! ### What the observer of a child keeps -/

variable (commands : List MacCommandEvent)

namespace Ledger

variable {child : IeeeAddress} {p q : ParentRole} {now : Nat} {l : Ledger}

/-- Hearing changes the polls only. -/
theorem run_queued : Run.run (step child) l (commands.map .queued) = { l with polls := l.polls ++ commands.filterMap shortPoll } := by
  induction commands generalizing l with
  | nil => simp
  | cons command commands ih =>
    rw [List.map_cons, run_cons, ih, step]
    cases hpoll : shortPoll command <;> simp [hpoll]

theorem along_queued : Run.Along (step child) (Allows child) l (commands.map .queued) := by
  induction commands generalizing l with
  | nil => trivial
  | cons command commands ih => exact ⟨trivial, ih⟩

theorem Tracks.hear (h : Tracks child p now l) (hears : p.Hears q log) :
    Run.Along (step child) (Allows child) l log ∧ Tracks child q now (Run.run (step child) l log) ∧
      (Run.run (step child) l log).transaction = l.transaction := by
  obtain ⟨commands, hevents, rfl⟩ := hears.events
  rw [run_queued]
  refine ⟨along_queued commands, ⟨⟨hears.room h.lawful.room, ?_⟩, ?_, ?_, ?_⟩, rfl⟩
  · rw [hears.associations]
    exact h.lawful.distinct
  · rw [hears.associations]
    exact h.opened
  · rw [hears.associations]
    exact h.closed
  · rw [hevents, List.filterMap_append, h.polls]

/-- The role with other flags, or without a command that is no poll from a short address. -/
theorem Tracks.congr (h : Tracks child p now l) (hassoc : q.associations = p.associations) (hbound : q.maxEvents = p.maxEvents)
    (hlen : q.events.length ≤ p.events.length) (hpolls : q.events.filterMap shortPoll = p.events.filterMap shortPoll) :
    Tracks child q now l := by
  refine ⟨⟨?_, ?_⟩, ?_, ?_, h.polls.trans hpolls.symm⟩
  · rw [hbound]
    exact hlen.trans h.lawful.room
  · rw [hassoc]
    exact h.lawful.distinct
  · rw [hassoc]
    exact h.opened
  · rw [hassoc]
    exact h.closed

/-- A response that is acknowledged is the open transaction's, or another. -/
theorem Tracks.transmitted (h : Tracks child p now l) (response : MlmeAssociateResponse) (outcome : Except MacError Unit) :
    Tracks child p now (step child l (.transmitted response outcome)) ∧
      (outcome = .ok () → ∀ t, (step child l (.transmitted response outcome)).transaction = some t → t.response = response →
        t.acknowledged = true) := by
  match outcome with
  | .error e => exact ⟨h, fun h => nomatch h⟩
  | .ok () =>
    unfold step
    dsimp only
    refine ⟨⟨h.lawful, fun t ht => ?_, fun hnone => h.closed (Option.map_eq_none_iff.mp hnone), h.polls⟩, fun _ t ht hresponse => ?_⟩
    · obtain ⟨t', ht', rfl⟩ := Option.map_eq_some_iff.mp ht
      split <;> exact h.opened t' ht'
    · obtain ⟨t', -, rfl⟩ := Option.map_eq_some_iff.mp ht
      split
      · rfl
      · rename_i hne
        rw [if_neg hne] at hresponse
        exact absurd hresponse hne

/-- **A report closes the transaction of the entry that leaves the table.** -/
theorem Tracks.report (h : Tracks child p now l) {index : Nat} {entry : PendingAssociation} (hat : p.associations[index]? = some entry)
    (result : Except MacError Unit)
    (hok : ∀ t, l.transaction = some t → t.response = entry.response → result = .ok () →
      t.acknowledged = true ∨ t.response.status = .success ∧ l.polls.head? = some t.response.shortAddress)
    (hexpired : ∀ t, l.transaction = some t → UInt32.ofNat t.deadline = entry.expiresAtUs → t.deadline < now + 2 ^ 31 →
      result = .error .transactionExpired → t.deadline ≤ now) :
    Allows child l (.returned (.associationResponseDelivery (delivery entry.response result)) now) ∧
      Tracks child { p with associations := swapRemove p.associations index } now
        (step child l (.returned (.associationResponseDelivery (delivery entry.response result)) now)) := by
  obtain ⟨hi, hentry⟩ := List.getElem?_eq_some_iff.mp hat
  have hnodup : p.associations.Nodup := h.lawful.distinct.of_map _
  have hmem : ∀ x, x ∈ swapRemove p.associations index ↔ x ≠ entry ∧ x ∈ p.associations := by
    intro x
    rw [(Table.swapRemove_perm hi).mem_iff, ← List.Nodup.erase_getElem hnodup index hi, hnodup.mem_erase_iff, hentry]
  have hin : entry ∈ p.associations := List.mem_of_getElem? hat
  have hlawful : ({ p with associations := swapRemove p.associations index } : ParentRole).Lawful :=
    ⟨h.lawful.room, Table.nodup_swapRemove h.lawful.distinct⟩
  have hsame : ∀ x ∈ p.associations, x.child = entry.child → x = entry := fun x hx hchild =>
    List.inj_on_of_nodup_map h.lawful.distinct hx hin hchild
  unfold step
  dsimp only
  by_cases hchild : entry.child = child
  · rw [if_pos (show (delivery entry.response result).deviceAddress = child from hchild)]
    constructor
    · intro _
      cases ht : l.transaction with
      | none => exact absurd hchild (h.closed ht entry hin)
      | some t =>
        obtain ⟨htchild, htin, hdeadline⟩ := h.opened t ht
        have heq : (⟨t.response, UInt32.ofNat t.deadline⟩ : PendingAssociation) = entry := hsame _ htin (htchild.trans hchild.symm)
        have hresponse : t.response = entry.response := congrArg PendingAssociation.response heq
        exact ⟨t, rfl, htchild, by rw [hresponse]; rfl, by rw [hresponse]; rfl, hok t ht hresponse,
          hexpired t ht (congrArg PendingAssociation.expiresAtUs heq) hdeadline⟩
    · refine ⟨hlawful, fun t ht => (nomatch ht), fun _ x hx hxchild => ?_, h.polls⟩
      obtain ⟨hne, hxin⟩ := (hmem x).mp hx
      exact hne (hsame x hxin (hxchild.trans hchild.symm))
  · rw [if_neg (show ¬(delivery entry.response result).deviceAddress = child from hchild)]
    refine ⟨fun heq => absurd heq hchild, hlawful, fun t ht => ?_, fun hnone x hx => h.closed hnone x ((hmem x).mp hx).2, h.polls⟩
    obtain ⟨htchild, htin, hdeadline⟩ := h.opened t ht
    refine ⟨htchild, (hmem _).mpr ⟨fun heq => hchild ?_, htin⟩, hdeadline⟩
    rw [← heq]
    exact htchild

theorem Tracks.transmits {outcome : Except MacError Unit} (h : Tracks child p now l) (htx : p.Transmits response q log outcome) :
    Run.Along (step child) (Allows child) l log ∧ Tracks child q now (Run.run (step child) l log) ∧
      (outcome = .ok () → ∀ t, (Run.run (step child) l log).transaction = some t → t.response = response →
        t.acknowledged = true) := by
  cases htx with
  | refused e => exact ⟨trivial, h, fun h => nomatch h⟩
  | sent outcome hears =>
    rename_i log
    obtain ⟨hsent, hacknowledged⟩ := h.transmitted response outcome
    obtain ⟨halong, hheard, hkept⟩ := hsent.hear hears
    refine ⟨⟨trivial, halong⟩, hheard, fun hok t ht => ?_⟩
    rw [run_cons, hkept] at ht
    exact hacknowledged hok t ht

/-- **Serving the queue.** -/
theorem Tracks.serves {event : Option RoleEvent} (h : Tracks child p now l) (hserves : p.Serves q log event) :
    Run.Along (step child) (Allows child) l (log ++ (event.map (.returned · now)).toList) ∧
      Tracks child q now (Run.run (step child) l (log ++ (event.map (.returned · now)).toList)) := by
  have htail : ∀ {event : MacCommandEvent} {events : List MacCommandEvent}, p.events = event :: events →
      isShortPoll event = false → Tracks child { p with events } now l := fun {event events} first notShort =>
    h.congr rfl rfl (by rw [first]; exact Nat.le_succ _) (by
      rw [first, List.filterMap_cons_none (Option.isSome_eq_false_iff.mp notShort |> Option.isNone_iff_eq_none.mp)])
  have hstay : ∀ {event : MacCommandEvent} {l : Ledger}, isShortPoll event = false →
      step child l (.returned (.command event) now) = l := fun notShort => if_neg (by rw [← isShortPoll, notShort]; simp)
  cases hserves with
  | idle empty => exact ⟨trivial, h.congr rfl rfl le_rfl rfl⟩
  | returned first =>
    rename_i event events
    refine ⟨⟨trivial, trivial⟩, ?_⟩
    rw [List.nil_append, Option.map_some, Option.toList_some, run_cons, run_nil]
    cases hpoll : isShortPoll event with
    | false =>
      rw [hstay hpoll]
      exact htail first hpoll
    | true =>
      obtain ⟨address, haddress⟩ := Option.isSome_iff_exists.mp hpoll
      rw [step, if_pos (show (shortPoll event).isSome = true from hpoll)]
      refine ⟨⟨?_, h.lawful.distinct⟩, h.opened, h.closed, ?_⟩
      · have hroom := h.lawful.room
        rw [first, List.length_cons] at hroom
        exact Nat.le_of_succ_le hroom
      · rw [h.polls, first, List.filterMap_cons_some haddress]
        rfl
  | failed first notShort transmits =>
    obtain ⟨halong, hq, -⟩ := (htail first notShort).transmits transmits
    rw [along_append, run_append]
    refine ⟨⟨halong, trivial, trivial⟩, ?_⟩
    rw [Option.map_some, Option.toList_some, run_cons, run_nil, hstay notShort]
    exact hq
  | delivered first notShort found transmits notExpired =>
    rename_i event events index entry q result
    obtain ⟨halong, hq, hacknowledged⟩ := (htail first notShort).transmits transmits
    have hat : q.associations[index]? = some entry := by
      rw [transmits.associations]
      exact found
    obtain ⟨hallowed, hnext⟩ := hq.report hat result
      (fun t ht hresponse hok => Or.inl (hacknowledged hok t ht hresponse))
      (fun _ _ _ _ hexpired => absurd hexpired notExpired)
    rw [along_append, run_append]
    exact ⟨⟨halong, hallowed, trivial⟩, hnext⟩
  | confirmed first found success =>
    rename_i pan destination lqi events index entry
    have hpolls : l.polls.head? = some entry.response.shortAddress := by
      rw [h.polls, first]
      rfl
    obtain ⟨hallowed, hnext⟩ := h.report found (.ok ())
      (fun t _ hresponse _ => Or.inr (by rw [hresponse]; exact ⟨success, hpolls⟩))
      (fun _ _ _ _ hexpired => nomatch hexpired)
    exact ⟨⟨hallowed, trivial⟩, hnext.congr rfl rfl le_rfl rfl⟩

end Ledger

/-- **What `associate_response` does**: nothing, or it puts the response into the table under its child. -/
theorem ParentRole.associateResponse_cases (p : ParentRole) (c : MacContext) (nowUs : UInt32) (rsp : MlmeAssociateResponse) :
    (∃ e, p.associateResponse c nowUs rsp = (p, .error e)) ∨
    ∃ associations, p.associateResponse c nowUs rsp = ({ p with associations }, .ok ()) ∧
      (∀ x, (p.associations.map child).Nodup →
        (x ∈ associations ↔ x ∈ p.associations ∧ x.child ≠ rsp.deviceAddress ∨
          x = ⟨rsp, nowUs + c.transactionPersistenceTime.toUInt32 * UInt32.ofNat BASE_SUPERFRAME_DURATION_US⟩)) ∧
      ((p.associations.map child).Nodup → (associations.map child).Nodup) := by
  unfold associateResponse
  split
  · exact Or.inl ⟨_, rfl⟩
  · split
    · exact Or.inl ⟨_, rfl⟩
    · dsimp only
      split
      · exact Or.inl ⟨_, rfl⟩
      · split
        · exact Or.inl ⟨_, rfl⟩
        · split
          · rename_i index hindex
            obtain ⟨entry, hat, hchild⟩ := Table.getElem?_of_findIdx? hindex
            have hchild : entry.child = rsp.deviceAddress := beq_iff_eq.mp hchild
            refine Or.inr ⟨_, rfl, fun x hdistinct => ⟨fun hx => ?_, fun hx => ?_⟩, fun hdistinct => ?_⟩
            · rw [← hchild]
              exact (Table.mem_set_of_nodup hdistinct hat hx).symm
            · rcases hx with ⟨hx, hne⟩ | rfl
              · rcases Table.mem_set_of_mem _ hx with hsame | hmem
                · rw [hat] at hsame
                  cases hsame
                  exact absurd hchild hne
                · exact hmem
              · exact List.mem_set (List.getElem?_eq_some_iff.mp hat).1 _
            · rw [Table.map_set_same hat hchild.symm]
              exact hdistinct
          · rename_i hnone
            have hnew : ∀ x ∈ p.associations, x.child ≠ rsp.deviceAddress := fun x hx heq => by
              have := List.findIdx?_eq_none_iff.mp hnone x hx
              simp [heq] at this
            refine Or.inr ⟨_, rfl, fun x hdistinct => ?_, fun hdistinct => Table.nodup_append_new hdistinct hnew⟩
            rw [List.mem_append, List.mem_singleton]
            exact or_congr_left (and_iff_left_of_imp (hnew x)).symm

open ParentRole

namespace Ledger

variable {child : IeeeAddress} {s : ParentSystem} {l : Ledger}

/-- An accepted response is its child's open transaction. -/
theorem Tracks.accept {p : ParentRole} (h : Tracks child p now l) (c : MacContext) (rsp : MlmeAssociateResponse)
    {associations : List PendingAssociation} (hmem : ∀ x, (p.associations.map PendingAssociation.child).Nodup →
      (x ∈ associations ↔ x ∈ p.associations ∧ x.child ≠ rsp.deviceAddress ∨
        x = ⟨rsp, UInt32.ofNat now + c.transactionPersistenceTime.toUInt32 * UInt32.ofNat BASE_SUPERFRAME_DURATION_US⟩))
    (hdistinct : (p.associations.map PendingAssociation.child).Nodup → (associations.map PendingAssociation.child).Nodup) :
    Tracks child { p with associations } now
      (step child l (.accepted rsp (now + c.transactionPersistenceTime.toNat * BASE_SUPERFRAME_DURATION_US))) := by
  have hnodup := h.lawful.distinct
  have hlawful : ({ p with associations } : ParentRole).Lawful := ⟨h.lawful.room, hdistinct hnodup⟩
  unfold step
  dsimp only
  split
  · rename_i hchild
    refine ⟨hlawful, fun t ht => ?_, fun hnone => (nomatch hnone), h.polls⟩
    cases ht
    refine ⟨hchild, (hmem _ hnodup).mpr (Or.inr ?_), ?_⟩
    · have hpersistence : UInt32.ofNat c.transactionPersistenceTime.toNat = c.transactionPersistenceTime.toUInt32 := by simp
      rw [UInt32.ofNat_add, UInt32.ofNat_mul, hpersistence]
    · have := c.transactionPersistenceTime.toNat_lt
      simp only [BASE_SUPERFRAME_DURATION_US]
      omega
  · rename_i hchild
    refine ⟨hlawful, fun t ht => ?_, fun hnone x hx => ?_, h.polls⟩
    · obtain ⟨htchild, htin, hdeadline⟩ := h.opened t ht
      refine ⟨htchild, (hmem _ hnodup).mpr (Or.inl ⟨htin, fun heq => hchild ?_⟩), hdeadline⟩
      rw [← heq]
      exact htchild
    · rcases (hmem x hnodup).mp hx with ⟨hx, -⟩ | rfl
      · exact h.closed hnone x hx
      · exact hchild

/-- **One call keeps what the observer of a child knows.** -/
theorem tracks_step (h : Tracks child s.role s.now l) (op : ParentOp) :
    Run.Along (step child) (Allows child) l (s.step op).2 ∧
      Tracks child (s.step op).1.role (s.step op).1.now (Run.run (step child) l (s.step op).2) := by
  cases op with
  | associateResponse c rsp =>
    simp only [ParentSystem.step]
    rcases s.role.associateResponse_cases c s.clock rsp with ⟨e, heq⟩ | ⟨associations, heq, hmem, hdistinct⟩
    · rw [heq]
      exact ⟨trivial, h⟩
    · rw [heq]
      exact ⟨⟨trivial, trivial⟩, h.accept c rsp hmem hdistinct⟩
  | queueCommand data lqi =>
    obtain ⟨halong, hnext, -⟩ := h.hear (s.role.queueCommand_hears data lqi)
    exact ⟨halong, hnext⟩
  | setFramePending c child' pending =>
    refine ⟨trivial, ?_⟩
    simp only [ParentSystem.step]
    unfold ParentRole.setFramePending
    split
    · exact h
    · split
      · exact h
      · split
        · split
          · exact h.congr rfl rfl le_rfl rfl
          · exact h
        · exact h.congr rfl rfl le_rfl rfl
        · exact h
  | nextCommandEvent c tx =>
    simp only [ParentSystem.step]
    rcases ParentRole.nextCommandEvent_cases h.lawful c tx s.clock with ⟨index, entry, hat, hreached, heq⟩ | ⟨-, hserves⟩
    · rw [heq]
      obtain ⟨hallowed, hnext⟩ := h.report hat (.error .transactionExpired) (fun _ _ _ hok => nomatch hok)
        (fun t _ hdeadline hnear _ => by
          rw [← hdeadline] at hreached
          exact le_of_deadlineReached hnear hreached)
      exact ⟨⟨hallowed, trivial⟩, hnext⟩
    · exact h.serves hserves
  | takeServiceRequest => exact ⟨trivial, h.congr rfl rfl le_rfl rfl⟩
  | clearRole =>
    refine ⟨⟨trivial, trivial⟩, ⟨Nat.zero_le _, List.nodup_nil⟩, fun t ht => (nomatch ht), fun _ x hx => ?_, rfl⟩
    exact absurd hx List.not_mem_nil
  | advance us =>
    refine ⟨trivial, h.lawful, fun t ht => ?_, h.closed, h.polls⟩
    obtain ⟨htchild, htin, hdeadline⟩ := h.opened t ht
    refine ⟨htchild, htin, hdeadline.trans_le ?_⟩
    simp only [ParentSystem.step]
    omega

end Ledger

/-! ### The polls -/

namespace PollQueue

variable {waiting : List MacCommandEvent}

theorem run_queued : Run.run step waiting (commands.map .queued) = waiting ++ commands.filter isShortPoll := by
  induction commands generalizing waiting with
  | nil => exact (List.append_nil _).symm
  | cons command commands ih =>
    rw [List.map_cons, run_cons, ih, step, List.filter_cons]
    split
    · rw [List.append_assoc, List.singleton_append]
    · rfl

theorem along_queued : Run.Along step Allows waiting (commands.map .queued) := by
  induction commands generalizing waiting with
  | nil => trivial
  | cons command commands ih => exact ⟨trivial, ih⟩

variable {p : ParentRole}

theorem hear (hears : p.Hears q log) :
    Run.Along step Allows (p.events.filter isShortPoll) log ∧
      Run.run step (p.events.filter isShortPoll) log = q.events.filter isShortPoll := by
  obtain ⟨commands, hevents, rfl⟩ := hears.events
  rw [hevents, List.filter_append]
  exact ⟨along_queued commands, run_queued commands⟩

theorem transmits {outcome : Except MacError Unit} (htx : p.Transmits response q log outcome) :
    Run.Along step Allows (p.events.filter isShortPoll) log ∧
      Run.run step (p.events.filter isShortPoll) log = q.events.filter isShortPoll := by
  cases htx with
  | refused e => exact ⟨trivial, rfl⟩
  | sent outcome hears => exact ⟨⟨trivial, (hear hears).1⟩, (hear hears).2⟩

/-- **Serving the queue** gives the runtime the first poll, or none. -/
theorem serves {event : Option RoleEvent} (now : Nat) (hserves : p.Serves q log event) :
    Run.Along step Allows (p.events.filter isShortPoll) (log ++ (event.map (.returned · now)).toList) ∧
      Run.run step (p.events.filter isShortPoll) (log ++ (event.map (.returned · now)).toList) = q.events.filter isShortPoll := by
  cases hserves with
  | idle empty => exact ⟨trivial, rfl⟩
  | returned first =>
    rename_i event events
    rw [first, List.filter_cons]
    split
    · rename_i hpoll
      exact ⟨⟨fun _ => rfl, trivial⟩, if_pos hpoll⟩
    · rename_i hpoll
      exact ⟨⟨fun h => absurd h hpoll, trivial⟩, if_neg hpoll⟩
  | failed first notShort htx =>
    obtain ⟨halong, hrun⟩ := transmits htx
    rw [first, List.filter_cons_of_neg (by simp [notShort]), along_append, run_append, hrun]
    exact ⟨⟨halong, fun h => by simp [notShort] at h, trivial⟩, if_neg (by simp [notShort])⟩
  | delivered first notShort found htx notExpired =>
    obtain ⟨halong, hrun⟩ := transmits htx
    rw [first, List.filter_cons_of_neg (by simp [notShort]), along_append, run_append, hrun]
    exact ⟨⟨halong, trivial, trivial⟩, rfl⟩
  | confirmed first found success => exact ⟨⟨trivial, trivial⟩, rfl⟩

/-- **One call keeps the polls.** -/
theorem waits_step {s : ParentSystem} (hlawful : s.role.Lawful) (op : ParentOp) :
    Run.Along step Allows (s.role.events.filter isShortPoll) (s.step op).2 ∧
      Run.run step (s.role.events.filter isShortPoll) (s.step op).2 = (s.step op).1.role.events.filter isShortPoll := by
  cases op with
  | associateResponse c rsp =>
    simp only [ParentSystem.step]
    rcases s.role.associateResponse_cases c s.clock rsp with ⟨e, heq⟩ | ⟨associations, heq, -⟩
    · rw [heq]
      exact ⟨trivial, rfl⟩
    · rw [heq]
      exact ⟨⟨trivial, trivial⟩, rfl⟩
  | queueCommand data lqi => exact hear (s.role.queueCommand_hears data lqi)
  | setFramePending c child pending =>
    refine ⟨trivial, ?_⟩
    simp only [ParentSystem.step]
    unfold setFramePending
    split
    · rfl
    · split
      · rfl
      · split
        · split <;> rfl
        · rfl
        · rfl
  | nextCommandEvent c tx =>
    simp only [ParentSystem.step]
    rcases nextCommandEvent_cases hlawful c tx s.clock with ⟨index, entry, -, -, heq⟩ | ⟨-, hserves⟩
    · rw [heq]
      exact ⟨⟨trivial, trivial⟩, rfl⟩
    · exact serves s.now hserves
  | takeServiceRequest => exact ⟨trivial, rfl⟩
  | clearRole => exact ⟨⟨trivial, trivial⟩, rfl⟩
  | advance us => exact ⟨trivial, rfl⟩

end PollQueue

/-! ## Runs -/

def parentRun (s : ParentSystem) (ops : List ParentOp) : ParentSystem := Run.run (fun s op => (s.step op).1) s ops

def parentTrace (s : ParentSystem) (ops : List ParentOp) : List Observed := (outputs ParentSystem.step s ops).flatten

/-- The report of a child's transaction. -/
def reportOf (child : IeeeAddress) : Observed → Option MlmeAssociateResponseDelivery
  | .returned (.associationResponseDelivery d) _ => if d.deviceAddress = child then some d else none
  | _ => none

def reports (child : IeeeAddress) (trace : List Observed) : List MlmeAssociateResponseDelivery := trace.filterMap (reportOf child)

theorem reports_append (child : IeeeAddress) (trace trace' : List Observed) :
    reports child (trace ++ trace') = reports child trace ++ reports child trace' := List.filterMap_append

theorem reports_cons_of_eq {child : IeeeAddress} {d : MlmeAssociateResponseDelivery} (h : d.deviceAddress = child) (now : Nat)
    (trace : List Observed) : reports child (.returned (.associationResponseDelivery d) now :: trace) = d :: reports child trace := by
  simp [reports, reportOf, h]

/-- The child's transaction is replaced or cleared. -/
def Supersedes (child : IeeeAddress) : Observed → Prop
  | .accepted response _ => response.deviceAddress = child
  | .cleared => True
  | _ => False

/-- The report is about the response. -/
def Reports (response : MlmeAssociateResponse) (d : MlmeAssociateResponseDelivery) : Prop :=
  d.deviceAddress = response.deviceAddress ∧ d.shortAddress = response.shortAddress ∧ d.status = response.status

namespace Ledger

variable {child : IeeeAddress} {l : Ledger}

/-- What is observed is a report of the child's transaction, which it closes, or leaves the transaction as it is. -/
theorem step_reports {o : Observed} (h : ¬ Supersedes child o) :
    reportOf child o = none ∧
        (step child l o).transaction.map (fun t => (t.response, t.deadline)) = l.transaction.map (fun t => (t.response, t.deadline)) ∨
      ∃ d now, o = .returned (.associationResponseDelivery d) now ∧ d.deviceAddress = child ∧ (step child l o).transaction = none := by
  rcases o with ⟨response, deadline⟩ | ⟨response, outcome⟩ | command | ⟨event, now⟩ | _
  · exact Or.inl ⟨rfl, by rw [step, if_neg (show ¬response.deviceAddress = child from h)]⟩
  · rcases outcome with e | _
    · exact Or.inl ⟨rfl, rfl⟩
    · refine Or.inl ⟨rfl, ?_⟩
      rw [step, Option.map_map]
      congr 1
      funext t
      rw [Function.comp_apply]
      split <;> rfl
  · exact Or.inl ⟨rfl, rfl⟩
  · rcases event with command | d
    · refine Or.inl ⟨rfl, ?_⟩
      rw [step]
      split <;> rfl
    · by_cases hchild : d.deviceAddress = child
      · exact Or.inr ⟨d, now, rfl, hchild, by rw [step, if_pos hchild]⟩
      · exact Or.inl ⟨if_neg hchild, by rw [step, if_neg hchild]⟩
  · exact absurd trivial h

/-- Without a transaction there is no report, until the next acceptance. -/
theorem reports_closed {trace : List Observed} (h : l.transaction = none) (ha : Run.Along (step child) (Allows child) l trace)
    (hnone : ∀ o ∈ trace, ¬ Supersedes child o) : reports child trace = [] := by
  induction trace generalizing l with
  | nil => rfl
  | cons o trace ih =>
    rcases step_reports (l := l) (hnone o List.mem_cons_self) with ⟨hreport, hkept⟩ | ⟨d, now, rfl, hchild, -⟩
    · rw [h] at hkept
      rw [reports, List.filterMap_cons_none hreport]
      exact ih (Option.map_eq_none_iff.mp hkept) ha.2 fun o' ho' => hnone o' (List.mem_cons_of_mem o ho')
    · obtain ⟨t, ht, -⟩ := ha.1 hchild
      cases h.symm.trans ht

/-- **An open transaction is reported once, or stays open**, until it is superseded. -/
theorem reports_open {trace : List Observed} {t : Transaction} (h : l.transaction = some t)
    (ha : Run.Along (step child) (Allows child) l trace) (hnone : ∀ o ∈ trace, ¬ Supersedes child o) :
    reports child trace = [] ∧ (∃ t', (Run.run (step child) l trace).transaction = some t' ∧ t'.response = t.response ∧ t'.deadline = t.deadline) ∨
      ∃ d, reports child trace = [d] ∧ Reports t.response d := by
  induction trace generalizing l t with
  | nil => exact Or.inl ⟨rfl, t, h, rfl, rfl⟩
  | cons o trace ih =>
    have hlater : ∀ o' ∈ trace, ¬ Supersedes child o' := fun o' ho' => hnone o' (List.mem_cons_of_mem o ho')
    rcases step_reports (l := l) (hnone o List.mem_cons_self) with ⟨hreport, hkept⟩ | ⟨d, now, rfl, hchild, hclosed⟩
    · rw [h] at hkept
      obtain ⟨t', hstep, hsame⟩ := Option.map_eq_some_iff.mp hkept
      obtain ⟨hresponse, hdeadline⟩ := Prod.mk.inj hsame
      have hcons : reports child (o :: trace) = reports child trace := List.filterMap_cons_none hreport
      rw [hcons, run_cons, ← hresponse, ← hdeadline]
      exact ih hstep ha.2 hlater
    · obtain ⟨t', ht', hdevice, hshort, hstatus, -⟩ := ha.1 hchild
      cases h.symm.trans ht'
      refine Or.inr ⟨d, ?_, hchild.trans hdevice.symm, hshort, hstatus⟩
      rw [reports_cons_of_eq hchild, reports_closed hclosed ha.2 hlater]

end Ledger

/-! ### Progress -/

def isNext : ParentOp → Bool
  | .nextCommandEvent .. => true
  | _ => false

/-- No response is accepted and nothing is cleared, and the queue is read within half a period after the deadline. -/
def Due (deadline : Nat) (s : ParentSystem) : ParentOp → Prop
  | .associateResponse .. => False
  | .clearRole => False
  | .nextCommandEvent .. => deadline ≤ s.now ∧ s.now < deadline + 2 ^ 31
  | _ => True

namespace Ledger

variable {child : IeeeAddress}

/-- **A transaction that is due is reported** when the queue has been read as often as there are transactions. -/
theorem reported_when_due {s : ParentSystem} {l : Ledger} {t : Transaction} (h : Tracks child s.role s.now l) (ht : l.transaction = some t)
    {ops : List ParentOp} (hdue : Run.Along (fun s op => (s.step op).1) (Due t.deadline) s ops)
    (hcount : s.role.associations.length ≤ ops.countP isNext) : reports child (parentTrace s ops) ≠ [] := by
  induction ops generalizing s l with
  | nil =>
    obtain ⟨-, hin, -⟩ := h.opened t ht
    have := List.length_pos_of_mem hin
    simp only [List.countP_nil] at hcount
    omega
  | cons op ops ih =>
    have htrace : reports child (parentTrace s (op :: ops)) =
        reports child (s.step op).2 ++ reports child (parentTrace (s.step op).1 ops) := reports_append _ _ _
    have hnext := (tracks_step h op).2
    -- a call that spares the transactions
    have hquiet : isNext op = false → (s.step op).1.role.associations = s.role.associations →
        (Run.run (step child) l (s.step op).2).transaction = l.transaction → reports child (parentTrace s (op :: ops)) ≠ [] := by
      intro hop hassoc hsame
      rw [htrace]
      refine List.append_ne_nil_of_right_ne_nil _ (ih hnext (hsame.trans ht) hdue.2 ?_)
      rw [hassoc]
      simpa [List.countP_cons, hop] using hcount
    cases op with
    | associateResponse c rsp => exact hdue.1.elim
    | clearRole => exact hdue.1.elim
    | queueCommand data lqi =>
      have hears := s.role.queueCommand_hears data lqi
      exact hquiet rfl hears.associations (h.hear hears).2.2
    | setFramePending c child' pending =>
      refine hquiet rfl ?_ rfl
      simp only [ParentSystem.step]
      unfold setFramePending
      split
      · rfl
      · split
        · rfl
        · split
          · split <;> rfl
          · rfl
          · rfl
    | takeServiceRequest => exact hquiet rfl rfl rfl
    | advance us => exact hquiet rfl rfl rfl
    | nextCommandEvent c tx =>
      obtain ⟨htchild, hin, -⟩ := h.opened t ht
      have hreached : deadlineReached s.clock (.ofNat t.deadline) = true := deadlineReached_of_le hdue.1.1 hdue.1.2
      rcases nextCommandEvent_cases h.lawful c tx s.clock with ⟨index, entry, hat, -, heq⟩ | ⟨hnone, -⟩
      · have hstep : s.step (.nextCommandEvent c tx) = (⟨{ s.role with associations := swapRemove s.role.associations index }, s.now⟩,
            [.returned (.associationResponseDelivery (delivery entry.response (.error .transactionExpired))) s.now]) := by
          simp only [ParentSystem.step, heq]
          rfl
        rw [htrace]
        by_cases hchild : entry.child = child
        · refine List.append_ne_nil_of_left_ne_nil ?_ _
          rw [hstep, reports_cons_of_eq (show (delivery entry.response _).deviceAddress = child from hchild)]
          exact List.cons_ne_nil _ _
        · refine List.append_ne_nil_of_right_ne_nil _ (ih hnext ?_ hdue.2 ?_)
          · rw [hstep, run_cons, run_nil, step, if_neg (show ¬(delivery entry.response _).deviceAddress = child from hchild)]
            exact ht
          · have hlength := Table.length_swapRemove (List.getElem?_eq_some_iff.mp hat).1
            rw [hstep]
            simp only [List.countP_cons, isNext, if_true] at hcount ⊢
            omega
      · have := hnone _ hin
        rw [hreached] at this
        cases this

end Ledger

/-! ## Association transactions -/

/-- **Association transactions are reported exactly once**, in every run of the parent role. -/
theorem association_transactions (maxEvents maxAssociations maxPending now : Nat) (ops : List ParentOp) :
    -- a child has one transaction at most
    ((parentRun (.new maxEvents maxAssociations maxPending now) ops).role.associations.map child).Nodup ∧
    -- an accepted response that is not superseded is reported once, or it is pending; and it is reported once the queue
    -- has been read as often as there are transactions, after the deadline
    (∀ pre response deadline post, parentTrace (.new maxEvents maxAssociations maxPending now) ops = pre ++ .accepted response deadline :: post →
      (∀ o ∈ post, ¬ Supersedes response.deviceAddress o) →
        (reports response.deviceAddress post = [] ∧
            (∃ entry ∈ (parentRun (.new maxEvents maxAssociations maxPending now) ops).role.associations, entry.response = response) ∨
          ∃ d, reports response.deviceAddress post = [d] ∧ Reports response d) ∧
        ∀ ops', Run.Along (fun s op => (s.step op).1) (Due deadline) (parentRun (.new maxEvents maxAssociations maxPending now) ops) ops' →
          (parentRun (.new maxEvents maxAssociations maxPending now) ops).role.associations.length ≤ ops'.countP isNext →
          reports response.deviceAddress
            (post ++ parentTrace (parentRun (.new maxEvents maxAssociations maxPending now) ops) ops') ≠ []) ∧
    -- every report is of an open transaction, and says what happened to it
    (∀ child, Run.Along (Ledger.step child) (Ledger.Allows child) ⟨none, []⟩ (parentTrace (.new maxEvents maxAssociations maxPending now) ops)) ∧
    -- the runtime gets every queued poll from a short address, in order
    (Run.Along PollQueue.step PollQueue.Allows [] (parentTrace (.new maxEvents maxAssociations maxPending now) ops) ∧
      Run.run PollQueue.step [] (parentTrace (.new maxEvents maxAssociations maxPending now) ops) =
        (parentRun (.new maxEvents maxAssociations maxPending now) ops).role.events.filter isShortPoll) ∧
    -- a poll of a child with a transaction is told to wait for it
    ∀ pan, ∀ entry ∈ (parentRun (.new maxEvents maxAssociations maxPending now) ops).role.associations,
      (parentRun (.new maxEvents maxAssociations maxPending now) ops).role.framePendingFor (.extended pan entry.child) = true := by
  generalize hstart : ParentSystem.new maxEvents maxAssociations maxPending now = start
  have hinitial : ∀ child, Ledger.Tracks child start.role start.now ⟨none, []⟩ := by
    intro child
    rw [← hstart]
    exact ⟨⟨Nat.zero_le _, List.nodup_nil⟩, fun t ht => (nomatch ht), fun _ _ h => absurd h List.not_mem_nil, rfl⟩
  have hledger := fun child => along_outputs (f := ParentSystem.step) (R := fun s l => Ledger.Tracks child s.role s.now l)
    (fun _ _ op h => Ledger.tracks_step h op) (hinitial child) ops
  have hpolls := along_outputs (f := ParentSystem.step)
    (R := fun s waiting => (∃ l, Ledger.Tracks (ieeeFill 0) s.role s.now l) ∧ waiting = s.role.events.filter isShortPoll)
    (fun s _ op ⟨⟨_, h⟩, hwaiting⟩ => by
      obtain ⟨halong, hrun⟩ := PollQueue.waits_step h.lawful op
      rw [hwaiting]
      exact ⟨halong, ⟨_, (Ledger.tracks_step h op).2⟩, hrun⟩)
    ⟨⟨_, hinitial (ieeeFill 0)⟩, by rw [← hstart]⟩ ops
  refine ⟨(hledger (ieeeFill 0)).2.lawful.distinct, ?_, fun child => (hledger child).1, ⟨hpolls.1, hpolls.2.2⟩, ?_⟩
  · intro pre response deadline post htrace hnone
    obtain ⟨halong, hend⟩ := hledger response.deviceAddress
    change parentTrace start ops = _ at htrace
    rw [show (outputs ParentSystem.step start ops).flatten = pre ++ .accepted response deadline :: post from htrace,
      along_append] at halong
    rw [show (outputs ParentSystem.step start ops).flatten = pre ++ .accepted response deadline :: post from htrace,
      run_append, run_cons] at hend
    generalize Run.run (Ledger.step response.deviceAddress) ⟨none, []⟩ pre = l at halong hend
    have hopen : (Ledger.step response.deviceAddress l (.accepted response deadline)).transaction = some ⟨response, deadline, false⟩ := by
      rw [Ledger.step, if_pos rfl]
    rcases Ledger.reports_open hopen halong.2.2 hnone with ⟨hempty, t, ht, hresponse, hdeadline⟩ | hone
    · obtain ⟨-, hin, -⟩ := hend.opened t ht
      refine ⟨Or.inl ⟨hempty, _, hin, hresponse⟩, fun ops' hdue hcount => ?_⟩
      rw [reports_append]
      refine List.append_ne_nil_of_right_ne_nil _ (Ledger.reported_when_due hend ht ?_ hcount)
      rw [hdeadline]
      exact hdue
    · refine ⟨Or.inr hone, fun ops' _ _ => ?_⟩
      obtain ⟨d, hd, -⟩ := hone
      rw [reports_append, hd]
      exact List.cons_ne_nil _ _
  · intro pan entry hentry
    rw [framePendingFor, Bool.or_eq_true]
    exact Or.inr (List.any_eq_true.mpr ⟨entry, hentry, beq_self_eq_true _⟩)

/-! ### A child that fetches its response -/

def coordinator : MacContext where
  panId := 0x1A62
  dsn := 7
  extendedAddress := ieeeFill 9
  transactionPersistenceTime := 0x01F4
  hardwareAutoAck := false
  setAckFramePending := .ok ()

def admitted : MlmeAssociateResponse := ⟨ieeeFill 3, 0x5C21, .success⟩

/-- The poll of a sleepy neighbour is in front of the child's. -/
def admission : List ParentOp :=
  [.queueCommand (buildDataRequestShort 1 (.short 0x1A62 0) 0x2B10) 200, .associateResponse coordinator admitted,
    .queueCommand (buildDataRequest 2 (.short 0x1A62 0) (ieeeFill 3)) 180, .advance 5000, .nextCommandEvent coordinator ⟨.ok (), []⟩,
    .nextCommandEvent coordinator ⟨.ok (), []⟩]

def neighbourPoll : MacCommandEvent := .dataRequest (.short 0x1A62 0x2B10) (.short 0x1A62 0) 200

/-- What is observed from the acceptance on. -/
def admissionTail : List Observed :=
  [.queued (.dataRequest (.extended 0x1A62 (ieeeFill 3)) (.short 0x1A62 0) 180), .returned (.command neighbourPoll) 5100,
    .transmitted admitted (.ok ()), .returned (.associationResponseDelivery (delivery admitted (.ok ()))) 5100]

/-- The runtime gets the neighbour's poll, and one report when the child has acknowledged its response. -/
theorem admission_reported :
    parentTrace (.new 4 4 4 100) admission = [.queued neighbourPoll] ++ .accepted admitted 7680100 :: admissionTail ∧
    ∃ d, reports admitted.deviceAddress admissionTail = [d] ∧ Reports admitted d := by
  have htrace : parentTrace (.new 4 4 4 100) admission = [.queued neighbourPoll] ++ .accepted admitted 7680100 :: admissionTail := by
    decide +kernel
  have hempty : (parentRun (.new 4 4 4 100) admission).role.associations = [] := by decide +kernel
  have hnone : ∀ o ∈ admissionTail, ¬ Supersedes admitted.deviceAddress o := by
    simp [admissionTail, Supersedes]
  have hreports := ((association_transactions 4 4 4 100 admission).2.1 _ _ _ _ htrace hnone).1
  refine ⟨htrace, hreports.resolve_left ?_⟩
  rintro ⟨-, entry, hentry, -⟩
  rw [hempty] at hentry
  exact absurd hentry List.not_mem_nil

end Zigbee.Mac
