import Zigbee.Nwk.DataService

/-!
# Route Record and source route

A Route Record collects the relays between a device and a concentrator; the concentrator stores the
list, with the way back to each relay on it, and sends over it.

* `RecordTravels` — a record on its way: each relay has put its extension of the record on air.
* `sourceRouteWalk` — the hops of a source-routed frame, by `processSourceRoute`.
* `handsOver_of_subframe` — a data request over a source route hands its frame to the relay that the
  route names first.
-/

namespace Zigbee.Nwk

open Bytes Table

/-! ## The record -/

/-- The body of a Route Record that lists these relays. -/
def recordBody (relays : List ShortAddress) : List UInt8 := UInt8.ofNat relays.length :: relays.flatMap le16

theorem recordCount (relays : List ShortAddress) (h : relays.length < 256) :
    (UInt8.ofNat relays.length).toNat = relays.length := by
  rw [UInt8.toNat_ofNat']
  omega

variable {relays : List ShortAddress}

/-- A relay adds itself to the end of the list, and only while there is room. -/
theorem extendRouteRecord_recordBody {a : ShortAddress} {body : List UInt8} (hlen : relays.length ≤ MAX_SOURCE_ROUTE_RELAYS)
    (h : extendRouteRecord (recordBody relays) a = .ok body) :
    (relays ++ [a]).length ≤ MAX_SOURCE_ROUTE_RELAYS ∧ body = recordBody (relays ++ [a]) := by
  have hmax : MAX_SOURCE_ROUTE_RELAYS = 8 := rfl
  have hcount := recordCount relays (by omega)
  unfold extendRouteRecord recordBody at h
  dsimp only at h
  rw [hcount] at h
  split at h
  · cases h
  · split at h
    · cases h
    · rename_i hroom
      cases h
      refine ⟨by rw [List.length_append]; simp; omega, ?_⟩
      have htake : (UInt8.ofNat relays.length :: relays.flatMap le16).take (1 + relays.length * 2) =
          UInt8.ofNat relays.length :: relays.flatMap le16 := by
        apply List.take_of_length_le
        rw [List.length_cons, length_flatMap_le16]
        omega
      have hadd : UInt8.ofNat relays.length + 1 = UInt8.ofNat (relays ++ [a]).length := by
        rw [List.length_append, List.length_singleton]
        exact (UInt8.ofNat_add _ _).symm
      rw [htake, recordBody, List.flatMap_append, ← hadd]
      simp

/-- The concentrator reads the relays that were recorded. -/
theorem routeRecordRelays_recordBody (h : relays.length < 256) : routeRecordRelays (recordBody relays) = relays := by
  unfold routeRecordRelays recordBody
  rw [u8At_cons_zero, recordCount _ h]
  apply List.ext_getElem
  · simp
  · intro i hi hi'
    rw [List.getElem_map, List.getElem_range]
    have hskip : u16At (UInt8.ofNat relays.length :: relays.flatMap le16) (1 + i * 2) =
        u16At (relays.flatMap le16) (i * 2) := by
      rw [← List.singleton_append, u16At_append_right (by simp), List.length_singleton]
      congr 1
      omega
    rw [hskip]
    exact u16At_flatMap_le16 relays i hi'

/-- A record on its way over relays, each of which has put its extension of the record on air. -/
inductive RecordTravels : NwkFrame → List ShortAddress → NwkFrame → Prop
  | arrived (f : NwkFrame) : RecordTravels f [] f
  | relayed {s : NwkLayer} {r : RelayReading} {f f' f'' : NwkFrame} {relays : List ShortAddress}
      (hsent : (s.relayRouteRecord f.header f.payload r).1.air = s.air ++ [f'])
      (hrest : RecordTravels f' relays f'') : RecordTravels f (s.nib.networkAddress :: relays) f''

/-- What a relay sends on is the record with the relay's address added. -/
theorem relayRouteRecord_air {s : NwkLayer} {header : NwkHeader} {cmdId : UInt8} {body : List UInt8} {r : RelayReading}
    {f : NwkFrame} (h : (s.relayRouteRecord header (cmdId :: body) r).1.air = s.air ++ [f]) :
    ∃ body', extendRouteRecord body s.nib.networkAddress = .ok body' ∧
      f.payload = NwkCommandId.routeRecord :: body' ∧ f.header.srcAddr = header.srcAddr := by
  have hno : ∀ {air : List NwkFrame}, s.air = air → air ≠ s.air ++ [f] := by
    rintro air rfl heq
    simp at heq
  unfold NwkLayer.relayRouteRecord at h
  dsimp only at h
  generalize (if header.radius = 0 then 0 else header.radius - 1) = newRadius at h
  split at h
  · exact absurd h (hno rfl)
  · split at h
    · exact absurd h (hno rfl)
    · rename_i body' hext
      split at h
      · exact absurd h (hno rfl)
      · split at h
        · rename_i hbuild
          obtain ⟨frame, hemits, -⟩ := NwkLayer.buildNwkFrame_emits hbuild
          rw [hemits.rest] at h
          simp at h
        · rename_i hop _ _ s' frame hbuild
          obtain ⟨frame', hemits, hheader, hpayload, hok⟩ := NwkLayer.buildNwkFrame_emits hbuild
          cases hok frame rfl
          have hair : s'.air = s.air := by
            rw [hemits.rest]
            simp
          have hsend : (NwkLayer.sendHop { s' with nib := s'.nib.nextSeq.1 } frame hop r.first none).1.air = s.air ++ [f] := by
            split at h
            · rename_i heq
              rw [heq]
              exact h
            · rename_i heq
              rw [heq]
              exact h
          have hf : f = frame := by
            simp only [NwkLayer.sendHop, NwkLayer.transmit] at hsend
            split at hsend
            · simp only [hair, List.append_cancel_left_eq, List.cons.injEq, and_true] at hsend
              exact hsend.symm
            · exact absurd hsend (hno hair.symm)
          rw [hf, hheader, hpayload]
          exact ⟨body', hext, rfl, rfl⟩

/-- A record that has arrived lists the relays it came over. -/
theorem RecordTravels.spec {f f' : NwkFrame} (h : RecordTravels f relays f') {listed : List ShortAddress}
    (hlen : listed.length ≤ MAX_SOURCE_ROUTE_RELAYS) (hpayload : f.payload = NwkCommandId.routeRecord :: recordBody listed) :
    (listed ++ relays).length ≤ MAX_SOURCE_ROUTE_RELAYS ∧
      f'.payload = NwkCommandId.routeRecord :: recordBody (listed ++ relays) ∧ f'.header.srcAddr = f.header.srcAddr := by
  induction h generalizing listed with
  | arrived f =>
    rw [List.append_nil]
    exact ⟨hlen, hpayload, rfl⟩
  | @relayed s r f f₁ f₂ relays hsent _ ih =>
    rw [hpayload] at hsent
    obtain ⟨body, hext, hpayload₁, hsrc₁⟩ := relayRouteRecord_air hsent
    obtain ⟨hlen₁, rfl⟩ := extendRouteRecord_recordBody hlen hext
    obtain ⟨hlen₂, hpayload₂, hsrc₂⟩ := ih hlen₁ hpayload₁
    rw [List.append_assoc, List.singleton_append] at hlen₂ hpayload₂
    exact ⟨hlen₂, hpayload₂, hsrc₂.trans hsrc₁⟩

/-! ## The way back -/

/-- Routes that are stored one after another. -/
def SourceRouteTable.insertAll (t : SourceRouteTable) (routes : List (ShortAddress × List ShortAddress)) :
    SourceRouteTable :=
  routes.foldl (fun t x => t.insert x.1 x.2) t

theorem map_fst_relaySuffixes (relays : List ShortAddress) : (relaySuffixes relays).map Prod.fst = relays := by
  induction relays with
  | nil => rfl
  | cons a relays ih => rw [relaySuffixes, List.map_cons, ih]

/-- The relays behind a relay are relays, and it is not among them. -/
theorem mem_relaySuffixes (hnodup : relays.Nodup) {route : ShortAddress × List ShortAddress}
    (h : route ∈ relaySuffixes relays) : route.2 <:+ relays ∧ route.1 ∉ route.2 := by
  induction relays with
  | nil => cases h
  | cons a relays ih =>
    obtain ⟨hnew, hnodup'⟩ := List.nodup_cons.mp hnodup
    rw [relaySuffixes] at h
    rcases List.mem_cons.mp h with rfl | h
    · exact ⟨List.suffix_cons a relays, hnew⟩
    · obtain ⟨hsuffix, hmem⟩ := ih hnodup' h
      exact ⟨hsuffix.trans (List.suffix_cons a relays), hmem⟩

theorem foldl_storeRoute (s : NwkLayer) (routes : List (ShortAddress × List ShortAddress)) :
    (routes.foldl (fun s x => NwkLayer.storeRoute s x.1 x.2) s).sourceRouteTable = s.sourceRouteTable.insertAll routes ∧
      (routes.foldl (fun s x => NwkLayer.storeRoute s x.1 x.2) s).concentratorActive = s.concentratorActive := by
  induction routes generalizing s with
  | nil => exact ⟨rfl, rfl⟩
  | cons route routes ih => exact ih (s.storeRoute route.1 route.2)

/-- A record that fits is stored, with the way back to each relay. -/
theorem handleRouteRecord_spec {s : NwkLayer} {src : ShortAddress} (hroute : s.canRoute = true)
    (hlen : relays.length ≤ MAX_SOURCE_ROUTE_RELAYS) :
    (s.handleRouteRecord src (recordBody relays)).sourceRouteTable =
        s.sourceRouteTable.insertAll ((src, relays) :: relaySuffixes relays) ∧
      (s.handleRouteRecord src (recordBody relays)).concentratorActive = s.concentratorActive := by
  have hmax : MAX_SOURCE_ROUTE_RELAYS = 8 := rfl
  have hcount : (u8At (recordBody relays) 0).toNat = relays.length := by
    rw [recordBody, u8At_cons_zero, recordCount _ (by omega)]
  have hbody : (recordBody relays).length = 1 + relays.length * 2 := by
    rw [recordBody, List.length_cons, length_flatMap_le16]
    omega
  unfold NwkLayer.handleRouteRecord
  rw [if_neg (by simp [hroute]), if_neg (by simp [recordBody]), hcount, if_neg (by omega), if_neg (by omega)]
  dsimp only
  rw [routeRecordRelays_recordBody (by omega)]
  exact foldl_storeRoute (s.storeRoute src relays) (relaySuffixes relays)

/-- The hops of a source-routed frame, from a hop to the destination. -/
def sourceRouteWalk (dst : ShortAddress) : Nat → SourceRoute → ShortAddress → Option (List ShortAddress)
  | 0, _, _ => none
  | n + 1, sr, hop =>
    if hop = dst then some [hop]
    else
      match processSourceRoute sr hop dst with
      | .error _ => none
      | .ok (next, index) => (sourceRouteWalk dst n { sr with relayIndex := index } next).map (hop :: ·)

/-- From the relay that the index names, the walk goes down the list. -/
theorem sourceRouteWalk_spec {dst : ShortAddress} (hdst : dst ∉ relays) (hlen : relays.length < 256) (count : UInt8)
    (i : Nat) (hi : i < relays.length) :
    sourceRouteWalk dst (i + 2) ⟨count, UInt8.ofNat i, relays⟩ relays[i] =
      some ((relays.take (i + 1)).reverse ++ [dst]) := by
  have hne : ∀ j (hj : j < relays.length), relays[j] ≠ dst := by
    rintro j hj rfl
    exact hdst (List.getElem_mem hj)
  have hindex : ∀ j, j < relays.length → (UInt8.ofNat j).toNat = j := by
    intro j hj
    rw [UInt8.toNat_ofNat']
    omega
  induction i with
  | zero =>
    have hprocess : processSourceRoute ⟨count, UInt8.ofNat 0, relays⟩ relays[0] dst = .ok (dst, 0) := by
      unfold processSourceRoute
      rw [hindex 0 hi, List.getElem?_eq_getElem hi]
      rfl
    rw [sourceRouteWalk, if_neg (hne 0 hi), hprocess]
    cases relays with
    | nil => simp at hi
    | cons a relays => simp [sourceRouteWalk]
  | succ i ih =>
    have hi' : i < relays.length := by omega
    have hzero : UInt8.ofNat (i + 1) ≠ 0 := by
      intro h0
      have := hindex (i + 1) hi
      rw [h0, UInt8.toNat_zero] at this
      omega
    have hprocess : processSourceRoute ⟨count, UInt8.ofNat (i + 1), relays⟩ relays[i + 1] dst =
        .ok (relays[i], UInt8.ofNat i) := by
      unfold processSourceRoute
      dsimp only
      rw [hindex (i + 1) hi, List.getElem?_eq_getElem hi]
      dsimp only
      rw [if_neg hzero, if_neg (not_not_intro rfl), Nat.add_sub_cancel, List.getElem?_eq_getElem hi']
      dsimp only
      rw [UInt8.ofNat_add]
      simp
    rw [sourceRouteWalk, if_neg (hne (i + 1) hi), hprocess]
    dsimp only
    rw [ih hi', List.take_succ_eq_append_getElem hi, List.reverse_append]
    rfl

/-! ## Data frames of a request -/

/-- Frames that meet `P`, each with its MAC destination, have gone on air one after another. -/
def Sends (P : NwkFrame → ShortAddress → Prop) (s s' : NwkLayer) : Prop :=
  ∃ sent : List (NwkFrame × ShortAddress), s'.air = s.air ++ sent.map Prod.fst ∧
    s'.hops = s.hops ++ sent.map Prod.snd ∧ ∀ x ∈ sent, P x.1 x.2

def NwkFrame.IsCommand (f : NwkFrame) : Prop := f.header.frameControl.frameType = NwkFrameType.command

/-- A data frame for the destination that carries this source route. -/
structure NwkFrame.IsDataFor (f : NwkFrame) (dstAddr : ShortAddress) (sourceRoute : Option SourceRoute) : Prop where
  frameType : f.header.frameControl.frameType = NwkFrameType.data
  dstAddr : f.header.dstAddr = dstAddr
  sourceRoute : f.header.sourceRoute = sourceRoute

section

variable {P Q : NwkFrame → ShortAddress → Prop} {s s' s'' : NwkLayer} {f : NwkFrame}

theorem Sends.of_eq (hair : s'.air = s.air) (hhops : s'.hops = s.hops) : Sends P s s' :=
  ⟨[], by simpa using hair, by simpa using hhops, fun _ hx => absurd hx List.not_mem_nil⟩

theorem Sends.trans (h : Sends P s s') (h' : Sends P s' s'') : Sends P s s'' := by
  obtain ⟨sent, hair, hhops, hP⟩ := h
  obtain ⟨sent', hair', hhops', hP'⟩ := h'
  refine ⟨sent ++ sent', by simp [hair', hair], by simp [hhops', hhops], fun x hx => ?_⟩
  rcases List.mem_append.mp hx with hx | hx
  · exact hP x hx
  · exact hP' x hx

theorem Sends.mono (h : Sends P s s') (hPQ : ∀ f hop, P f hop → Q f hop) : Sends Q s s' := by
  obtain ⟨sent, hair, hhops, hP⟩ := h
  exact ⟨sent, hair, hhops, fun x hx => hPQ _ _ (hP x hx)⟩

theorem Sends.of_emits {n : Nat} (h : NwkLayer.Emits s s' f n) (hf : ∀ hop, P f hop) : Sends P s s' := by
  obtain ⟨hops, hlen, hhops⟩ := h.hops
  refine ⟨hops.map (f, ·), ?_, ?_, fun x hx => ?_⟩
  · rw [h.rest]
    simp [Function.comp_def, hlen]
  · simpa [Function.comp_def] using hhops
  · obtain ⟨hop, -, rfl⟩ := List.mem_map.mp hx
    exact hf hop

theorem sendNwkCommand_sends {dstAddr srcAddr : ShortAddress} {srcIeee dstIeee : Option IeeeAddress} {cmdId : UInt8}
    {cmdPayload : List UInt8} {radius : UInt8} {aes : Bool} {path : Path} {out : Except NwkStatus Unit}
    (h : s.sendNwkCommand dstAddr srcAddr srcIeee dstIeee cmdId cmdPayload radius aes path = (s', out)) :
    Sends (fun f _ => f.IsCommand) s s' := by
  obtain ⟨frame, n, hemits, ⟨htype, -⟩, -⟩ :=
    NwkLayer.sendNwkCommand_emits s dstAddr srcAddr srcIeee dstIeee cmdId cmdPayload radius aes path
  rw [h] at hemits
  exact .of_emits hemits fun _ => htype

theorem discoverRoute_sends (dest : ShortAddress) (r : CommandReading) :
    Sends (fun f _ => f.IsCommand) s (s.discoverRoute dest r).1 := by
  unfold NwkLayer.discoverRoute
  split
  · exact .of_eq rfl rfl
  · split
    · exact .of_eq rfl rfl
    · dsimp only [Nib.nextRouteRequestId]
      split
      · exact .of_eq rfl rfl
      · split
        · rename_i heq
          have hsent := sendNwkCommand_sends heq
          exact hsent
        · rename_i heq
          have hsent := sendNwkCommand_sends heq
          exact hsent

theorem handleUnroutableDestination_sends (dstAddr : ShortAddress) (discover : Bool) (status : NwkStatus)
    (r : CommandReading) :
    Sends (fun f _ => f.IsCommand) s (s.handleUnroutableDestination dstAddr discover status r).1 := by
  unfold NwkLayer.handleUnroutableDestination
  split
  · exact .of_eq rfl rfl
  · split
    · exact .of_eq rfl rfl
    · exact discoverRoute_sends dstAddr r

theorem sendRequiredRouteRecord_sends (dstAddr : ShortAddress) (r : CommandReading) :
    Sends (fun f _ => f.IsCommand) s (s.sendRequiredRouteRecord dstAddr r).1 := by
  have hrecord : ∀ {s' : NwkLayer} {out : Except NwkStatus Unit},
      s.sendRouteRecordFrom dstAddr s.nib.networkAddress s.nib.ieeeAddress [] r = (s', out) →
      Sends (fun f _ => f.IsCommand) s s' := by
    intro s' out heq
    unfold NwkLayer.sendRouteRecordFrom at heq
    split at heq
    · cases heq
      exact .of_eq rfl rfl
    · exact sendNwkCommand_sends heq
  unfold NwkLayer.sendRequiredRouteRecord
  split
  · split
    · rename_i heq
      have hsent := hrecord heq
      exact hsent
    · rename_i heq
      have hsent := hrecord heq
      exact hsent
  · exact .of_eq rfl rfl

theorem finishData_log (s : NwkLayer) (dstAddr hop : ShortAddress) (sourceRouted : Bool) (r : DataReading) (ok : Bool) :
    (s.finishData dstAddr hop sourceRouted r ok).air = s.air ∧ (s.finishData dstAddr hop sourceRouted r ok).hops = s.hops := by
  have hnote : (if !sourceRouted && r.first == .noAck then s.noteLinkFailure dstAddr hop else s).air = s.air ∧
      (if !sourceRouted && r.first == .noAck then s.noteLinkFailure dstAddr hop else s).hops = s.hops := by
    unfold NwkLayer.noteLinkFailure
    split
    · split <;> exact ⟨rfl, rfl⟩
    · exact ⟨rfl, rfl⟩
  unfold NwkLayer.finishData
  dsimp only
  generalize (if !sourceRouted && r.first == .noAck then s.noteLinkFailure dstAddr hop else s) = t at hnote
  split
  · exact hnote
  · split
    · exact hnote
    · split <;> exact hnote

theorem trackBroadcast_log (s : NwkLayer) (src : ShortAddress) (seq : UInt8) (frame : NwkFrame) (radius : UInt8) (now : UInt32)
    (allHeard : List ShortAddress → Bool) : (s.trackBroadcast src seq frame radius now allHeard).air = s.air ∧
      (s.trackBroadcast src seq frame radius now allHeard).hops = s.hops := by
  unfold NwkLayer.trackBroadcast
  split
  · rw [NwkLayer.scheduleBroadcast_fst]
    exact ⟨rfl, rfl⟩
  · exact ⟨rfl, rfl⟩

theorem transmit_sends (s : NwkLayer) (frame : NwkFrame) (hop : ShortAddress) (outcome : MacOutcome) :
    Sends (fun f next => f = frame ∧ next = hop) s (s.transmit frame hop outcome) := by
  unfold NwkLayer.transmit
  split
  · exact ⟨[(frame, hop)], rfl, rfl, by simp⟩
  · exact .of_eq rfl rfl

/-- A frame without an alternative goes to its hop alone, and was on air if the MAC confirmed it. -/
theorem sendHop_sends (s : NwkLayer) (frame : NwkFrame) (hop : ShortAddress) (first : MacOutcome)
    (alternate : Option (ShortAddress × MacOutcome)) :
    Sends (fun f next => f = frame ∧ (alternate = none → next = hop)) s (s.sendHop frame hop first alternate).1 ∧
      ((s.sendHop frame hop first alternate).2 = true → alternate = none →
        (s.sendHop frame hop first alternate).1.air.getLast? = some frame ∧
          (s.sendHop frame hop first alternate).1.hops.getLast? = some hop) ∧
      (alternate = none → (s.sendHop frame hop first alternate).2 = first.isOk) := by
  have hfirst := transmit_sends s frame hop first
  cases alternate with
  | none =>
    refine ⟨hfirst.mono fun f next h => ⟨h.1, fun _ => h.2⟩, fun hok _ => ?_, fun _ => rfl⟩
    have hair : first.onAir = true := by
      cases first <;> simp_all [NwkLayer.sendHop, MacOutcome.isOk, MacOutcome.onAir]
    simp [NwkLayer.sendHop, NwkLayer.transmit, hair]
  | some second =>
    refine ⟨?_, fun _ => nofun, nofun⟩
    have hmono := hfirst.mono (Q := fun f next => f = frame ∧ (some second = none → next = hop)) fun _ _ h => ⟨h.1, nofun⟩
    unfold NwkLayer.sendHop
    dsimp only
    split
    · exact hmono.trans ((transmit_sends _ frame second.1 second.2).mono fun _ _ h => ⟨h.1, nofun⟩)
    · exact hmono

/-- **What the data frame itself puts on air.**  Over a source route it goes to its hop and nowhere else,
    once it is built, and the request succeeds when the MAC confirms it. -/
theorem sendData_sends (s : NwkLayer) (dstAddr : ShortAddress) (radius : UInt8) (payload : List UInt8)
    (securityEnable discover : Bool) (sourceRoute : Option SourceRoute) (hop : ShortAddress) (r : DataReading) :
    let result := s.sendData dstAddr radius payload securityEnable discover sourceRoute hop r
    let built := NwkLayer.buildNwkFrame { s with nib := s.nib.nextSeq.1 }
      (s.dataHeader dstAddr radius s.nib.nextSeq.2 securityEnable discover sourceRoute) payload r.aes
    Sends (fun f next => f.IsDataFor dstAddr sourceRoute ∧ (sourceRoute.isSome = true → next = hop)) s result.1 ∧
      (sourceRoute.isSome = true → ∀ seq, result.2 = .ok seq → ∃ f, f.IsDataFor dstAddr sourceRoute ∧
        f.header.seqNumber = seq ∧ f.payload = payload ∧ result.1.air.getLast? = some f ∧
        result.1.hops.getLast? = some hop) ∧
      (sourceRoute.isSome = true → r.first = .confirmed → ∀ f, built.2 = .ok f → result.2 = .ok s.nib.nextSeq.2) := by
  intro result built
  have hresult : result = s.sendData dstAddr radius payload securityEnable discover sourceRoute hop r := rfl
  unfold NwkLayer.sendData at hresult
  dsimp only at hresult
  cases hbuild : built with
  | mk s' out =>
    obtain ⟨frame, hemits, hheader, hpayload, hok⟩ := NwkLayer.buildNwkFrame_emits hbuild
    rw [show NwkLayer.buildNwkFrame _ _ _ _ = (s', out) from hbuild] at hresult
    have hbuilt : Sends (fun f next => f.IsDataFor dstAddr sourceRoute ∧ (sourceRoute.isSome = true → next = hop)) s s' := by
      obtain ⟨hops, hlen, hhops⟩ := hemits.hops
      rw [List.eq_nil_of_length_eq_zero hlen] at hhops
      refine .of_eq ?_ (by simpa using hhops)
      rw [hemits.rest]
      simp
    have hdata : frame.IsDataFor dstAddr sourceRoute := by
      constructor <;> rw [hheader] <;> rfl
    cases out with
    | error status =>
      rw [hresult]
      exact ⟨hbuilt, fun _ _ => nofun, fun _ _ _ => nofun⟩
    | ok f =>
      cases hok f rfl
      obtain ⟨hsent, hlast, hanswer⟩ :=
        sendHop_sends s' frame hop r.first (if sourceRoute.isNone then r.alternate else none)
      have hnone : sourceRoute.isSome = true → (if sourceRoute.isNone then r.alternate else none) = none := by
        cases sourceRoute <;> simp
      have hsends := hbuilt.trans (hsent.mono fun f next h => ⟨h.1 ▸ hdata, fun hsome => h.2 (hnone hsome)⟩)
      have hseq : frame.header.seqNumber = s.nib.nextSeq.2 := by
        rw [hheader]
        rfl
      dsimp only at hresult
      split at hresult
      · rename_i hchild
        have hdirect : sourceRoute.isSome = false := by
          cases sourceRoute <;> simp_all
        rw [hresult]
        exact ⟨hbuilt, fun hsome => absurd hsome (by simp [hdirect]), fun hsome => absurd hsome (by simp [hdirect])⟩
      · cases hhop : s'.sendHop frame hop r.first (if sourceRoute.isNone then r.alternate else none) with
        | mk t ok =>
          rw [hhop] at hsends hlast hanswer hresult
          dsimp only at hsends hlast hanswer hresult
          -- Neither the broadcast schedule nor the routing state that follows puts anything on air.
          have hlog : result.1.air = t.air ∧ result.1.hops = t.hops := by
            rw [hresult]
            dsimp only
            rw [(finishData_log ..).1, (finishData_log ..).2]
            split
            · exact trackBroadcast_log ..
            · exact ⟨rfl, rfl⟩
          refine ⟨hsends.trans (.of_eq hlog.1 hlog.2), fun hsome seq hseq' => ?_, fun hsome hfirst f hf => ?_⟩
          · cases ok with
            | false => rw [hresult] at hseq'; cases hseq'
            | true =>
              rw [hresult] at hseq'
              cases hseq'
              rw [hlog.1, hlog.2]
              exact ⟨frame, hdata, hseq, hpayload, hlast rfl (hnone hsome)⟩
          · rw [hresult, hanswer (hnone hsome), hfirst]
            rfl

end

/-- **Data requests over a source route**, from a layer that routes to the destination by it: the data frame
    goes to the first relay and to no one else, and a request succeeds only with the frame on air. -/
structure NwkLayer.HandsOver (s : NwkLayer) (dstAddr : ShortAddress) (sr : SourceRoute) (firstRelay : ShortAddress) :
    Prop where
  only : ∀ radius payload securityEnable discover r,
    Sends (fun f hop => f.IsCommand ∨ (f.IsDataFor dstAddr (some sr) ∧ hop = firstRelay)) s
      (s.nldeDataRequest dstAddr radius payload securityEnable discover r).1
  handed : ∀ radius payload securityEnable discover r seq,
    (s.nldeDataRequest dstAddr radius payload securityEnable discover r).2 = .ok seq →
    ∃ f, f.IsDataFor dstAddr (some sr) ∧ f.header.seqNumber = seq ∧ f.payload = payload ∧
      (s.nldeDataRequest dstAddr radius payload securityEnable discover r).1.air.getLast? = some f ∧
      (s.nldeDataRequest dstAddr radius payload securityEnable discover r).1.hops.getLast? = some firstRelay
  /-- Nothing but a failed Route Record, a frame that cannot be built or the MAC stops a request. -/
  accepted : ∀ radius payload securityEnable discover (r : DataReading), s.joined = true →
    s.routing.hasFailedManyToOne dstAddr = false → r.first = .confirmed →
    ∀ s', s.sendRequiredRouteRecord dstAddr r.record = (s', .ok ()) →
    ∀ f, (NwkLayer.buildNwkFrame { s' with nib := s'.nib.nextSeq.1 }
      (s'.dataHeader dstAddr radius s'.nib.nextSeq.2 securityEnable discover (some sr)) payload r.aes).2 = .ok f →
    (s.nldeDataRequest dstAddr radius payload securityEnable discover r).2 = .ok s'.nib.nextSeq.2

/-- What a data request puts on air: commands, and its data frame with the source route to the destination. -/
theorem nldeDataRequest_sends (s : NwkLayer) (dstAddr : ShortAddress) (radius : UInt8) (payload : List UInt8)
    (securityEnable discover : Bool) (r : DataReading) :
    Sends (fun f _ => f.IsCommand ∨ f.IsDataFor dstAddr (s.sourceRouteSubframe dstAddr)) s
      (s.nldeDataRequest dstAddr radius payload securityEnable discover r).1 := by
  unfold NwkLayer.nldeDataRequest
  split
  · exact .of_eq rfl rfl
  · split
    · exact .of_eq rfl rfl
    · dsimp only
      split
      · exact (handleUnroutableDestination_sends ..).mono fun _ _ => Or.inl
      · have hdiscover : Sends (fun f _ => f.IsCommand ∨ f.IsDataFor dstAddr (s.sourceRouteSubframe dstAddr)) s
            (if (s.sourceRouteSubframe dstAddr).isNone && discover && r.unconfirmed then
              (s.handleUnroutableDestination dstAddr true .routeError r.discovery).1 else s) := by
          split
          · exact (handleUnroutableDestination_sends ..).mono fun _ _ => Or.inl
          · exact .of_eq rfl rfl
        have hrecord := hdiscover.trans ((sendRequiredRouteRecord_sends dstAddr r.record).mono fun _ _ => Or.inl)
        split
        · rename_i heq
          rw [heq] at hrecord
          exact hrecord
        · rename_i heq
          rw [heq] at hrecord
          exact hrecord.trans ((sendData_sends ..).1.mono fun _ _ h => Or.inr h.1)

/-- A request for a destination with a source route. -/
theorem handsOver_of_subframe {s : NwkLayer} {dstAddr firstRelay : ShortAddress} {sr : SourceRoute}
    (hsubframe : s.sourceRouteSubframe dstAddr = some sr) (hrelay : sr.relayList[sr.relayIndex.toNat]? = some firstRelay) :
    s.HandsOver dstAddr sr firstRelay := by
  have hhop : ∀ r, NwkLayer.dataNextHop (some sr) r = .ok firstRelay := by
    intro r
    rw [NwkLayer.dataNextHop, Option.bind_some, hrelay]
  -- The request is refused at once, or goes on from what the Route Record leaves.
  have hcases : ∀ radius payload securityEnable discover r,
      (∃ status, s.nldeDataRequest dstAddr radius payload securityEnable discover r = (s, .error status)) ∨
      (∃ s' status, s.sendRequiredRouteRecord dstAddr r.record = (s', .error status) ∧
        s.nldeDataRequest dstAddr radius payload securityEnable discover r = (s', .error status)) ∨
      (∃ s', s.sendRequiredRouteRecord dstAddr r.record = (s', .ok ()) ∧
        s.nldeDataRequest dstAddr radius payload securityEnable discover r =
          s'.sendData dstAddr radius payload securityEnable discover (some sr) firstRelay r) := by
    intro radius payload securityEnable discover r
    unfold NwkLayer.nldeDataRequest
    split
    · exact Or.inl ⟨_, rfl⟩
    · split
      · exact Or.inl ⟨_, rfl⟩
      · rw [hsubframe]
        dsimp only
        rw [hhop]
        simp only [Option.isNone_some, Bool.false_and, Bool.false_eq_true, if_false]
        split
        · rename_i heq
          exact Or.inr (Or.inl ⟨_, _, heq, rfl⟩)
        · rename_i heq
          exact Or.inr (Or.inr ⟨_, heq, rfl⟩)
  have hrecord : ∀ r : CommandReading, Sends (fun f _ => f.IsCommand) s (s.sendRequiredRouteRecord dstAddr r).1 :=
    fun r => sendRequiredRouteRecord_sends dstAddr r
  constructor
  · intro radius payload securityEnable discover r
    rcases hcases radius payload securityEnable discover r with ⟨_, heq⟩ | ⟨s', _, hsent, heq⟩ | ⟨s', hsent, heq⟩
    · rw [heq]
      exact .of_eq rfl rfl
    · have hcommands := hrecord r.record
      rw [hsent] at hcommands
      rw [heq]
      exact hcommands.mono fun _ _ => Or.inl
    · have hcommands := hrecord r.record
      rw [hsent] at hcommands
      rw [heq]
      exact (hcommands.mono fun _ _ => Or.inl).trans
        ((sendData_sends ..).1.mono fun _ _ h => Or.inr ⟨h.1, h.2 rfl⟩)
  · intro radius payload securityEnable discover r seq hok
    rcases hcases radius payload securityEnable discover r with ⟨_, heq⟩ | ⟨s', _, -, heq⟩ | ⟨s', -, heq⟩
    · rw [heq] at hok
      cases hok
    · rw [heq] at hok
      cases hok
    · rw [heq] at hok ⊢
      exact (sendData_sends ..).2.1 rfl seq hok
  · intro radius payload securityEnable discover r hjoined hfailed hfirst s' hsent f hbuilt
    have hdata : s.nldeDataRequest dstAddr radius payload securityEnable discover r =
        s'.sendData dstAddr radius payload securityEnable discover (some sr) firstRelay r := by
      simp [NwkLayer.nldeDataRequest, hjoined, hfailed, hsubframe, hhop, hsent]
    rw [hdata]
    exact (sendData_sends ..).2.2 rfl hfirst f hbuilt

/-- A Route Record of device 5 to the concentrator 0. -/
def plainRecord (radius : UInt8) (relays : List ShortAddress) : NwkFrame :=
  ⟨⟨⟨NwkFrameType.command, 2, 0, false, false, false, false, false, false⟩, 0, 5, radius, 1, none, none, none, none⟩,
    NwkCommandId.routeRecord :: recordBody relays, none⟩

def plainRelay (next : ShortAddress) : RelayReading :=
  ⟨.ok next, false, ⟨true, .unroutable, 0⟩, none, ⟨true, .unroutable, 0⟩, true, false, false, .confirmed, none, none, none⟩

theorem record_over_two_relays : RecordTravels (plainRecord 10 []) [7, 8] (plainRecord 8 [7, 8]) := by
  refine .relayed (show ((plainRouter 7).relayRouteRecord (plainRecord 10 []).header (plainRecord 10 []).payload
    (plainRelay 8)).1.air = _ ++ [plainRecord 9 [7]] by decide +kernel) ?_
  refine .relayed (show ((plainRouter 8).relayRouteRecord (plainRecord 9 [7]).header (plainRecord 9 [7]).payload
    (plainRelay 0)).1.air = _ ++ [plainRecord 8 [7, 8]] by decide +kernel) ?_
  exact .arrived _

end Zigbee.Nwk
