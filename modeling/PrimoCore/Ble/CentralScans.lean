/-
**Whose discovery it is.**

The table of service ranges and the index of the service that is scanned serve all links. A range in the
table is that of the link which reported the service last, and all ranges go with any link that ends. So
a peripheral is scanned in its own ranges as long as the reports of the others come in the right order.

* `ScanState` — the reports of the links, and the order they came in: who reported each service last, and
  the scan that was sent last.
* `KeepsReports` — **the condition on a step**: the order of the reports, and what the other links have
  reported.
* `RangesKnown` — the invariant of the ranges: each one in the table was reported by the last link that
  reported its service, and the scan that was sent last is in a range of its link.
* `Provenance` — the invariant: also, a flagged slot whose characteristic can be asked for has reported it.
* `requests_right` — **in every run** whose steps meet `KeepsReports`, all that is sent is right.
-/

import PrimoCore.Ble.CentralReports

namespace PrimoCore.Ble

open PrimoCore.Lib

/-! ### The order of the reports -/

/-- The reports, and the order they came in since a link ended: the link that reported each service last,
and the scan that was sent last, with no registered service reported since. -/
structure ScanState extends ReportState where
  reporter : Uuid → Option UInt16
  scanning : Option (UInt16 × HandleRange)

/-- A registered service is among some that are found. -/
def reportsRegistered (infos : List RemoteServiceInfo) (services : List FoundService) : Bool :=
  services.any fun service => infos.any fun info => service.uuid = info.uuid

namespace ScanState

/-- The role as it is constructed, `allowMultilink` called and `begin` done, whatever is registered. -/
def initial (central : CentralRole) (linksNo : UInt8) : ScanState where
  toReportState := .initial central linksNo
  reporter := fun _ => none
  scanning := none

/-- Who has reported each service last, after an input. -/
def reporterAfter (state : ScanState) : CentralInput → Uuid → Option UInt16
  | .event ⟨_, .disconnected _⟩ => fun _ => none
  | .event ⟨connHandle, .primSrvcDiscRsp gattStatus services last⟩ => fun uuid =>
      if gattStatus = statusSuccess ∧ ∃ service ∈ services ++ [last], service.uuid = uuid then
        some connHandle
      else state.reporter uuid
  | _ => state.reporter

/-- The scan sent last, after an input. -/
def scanningAfter (state : ScanState) (input : CentralInput) : Option (UInt16 × HandleRange) :=
  match input with
  | .event ⟨_, .disconnected _⟩ => none
  | .event ⟨_, .primSrvcDiscRsp gattStatus services last⟩ =>
      if gattStatus = statusSuccess ∧
          reportsRegistered state.central.remoteServiceInfo (services ++ [last]) then none
      else (scans (state.central.step input).2).head?.or state.scanning
  | _ => (scans (state.central.step input).2).head?.or state.scanning

def step (state : ScanState) (input : CentralInput) : ScanState where
  toReportState := state.toReportState.step input
  reporter := state.reporterAfter input
  scanning := state.scanningAfter input

/-! ### The condition on a step -/

/-- Of the registered services that were reported since a link ended, each was reported last by this
link. -/
def OwnReports (state : ScanState) (connHandle : UInt16) : Prop :=
  ∀ service ∈ registered state.central.remoteServiceInfo,
    ∀ reporter ∈ state.reporter service.2, reporter = connHandle

/-- A response with characteristics meets: it answers the scan that was sent last, with characteristics in
the range of that, and every other link flagged for one of them has reported the same value handle. -/
structure CharsMeet (state : ScanState) (connHandle : UInt16) (chars : List FoundChar) : Prop where
  scanned : ∃ scan ∈ state.scanning, scan.1 = connHandle ∧
    ∀ found ∈ chars, scan.2.has found.handleValue
  same : ∀ found ∈ chars, ∀ info ∈ state.central.remoteCharacteristicInfo,
    info.isFound (state.scannedService.map RemoteServiceInfo.service) found →
    ∀ other ∈ state.live, other ≠ connHandle → info.connectionIndex (state.central.slot other) →
      state.Reported other info.toRemoteCharacteristicInfo found.handleValue

end ScanState

/-- Some request would be made for the characteristic. -/
def CentralCharacteristicInfo.sendable (info : CentralCharacteristicInfo) : Bool :=
  info.valueHandle ≠ 0 && (info.properties.read || info.properties.writeWoResp ||
    info.properties.write || info.properties.notify || info.properties.indicate)

namespace ScanState

/-- **What a step must meet.** A connection takes a slot for which no characteristic is flagged that can be
asked for. Where a peripheral ends its list of services or a scan, the services were reported last by
itself; the characteristics it reports answer the last scan, and a value handle is stored only where the
other links flagged for the characteristic have reported the same. -/
def KeepsReports (state : ScanState) : CentralInput → Prop
  | .event ⟨_, .connected _ _⟩ =>
      ∀ info ∈ state.central.remoteCharacteristicInfo,
        info.connectionIndex (state.central.slot connHandleInvalid) → ¬ info.sendable
  | .event ⟨connHandle, .primSrvcDiscRsp gattStatus _ _⟩ =>
      gattStatus = statusInvalidHandle → state.OwnReports connHandle
  | .event ⟨connHandle, .charDiscRsp gattStatus chars⟩ =>
      (gattStatus = statusSuccess → state.CharsMeet connHandle chars) ∧
        (gattStatus = statusAttributeNotFound → state.OwnReports connHandle)
  | _ => True

instance (state : ScanState) (connHandle : UInt16) : Decidable (state.OwnReports connHandle) :=
  have (uuid : Uuid) : Decidable (∀ reporter ∈ state.reporter uuid, reporter = connHandle) :=
    Option.decidableForallMem _
  List.decidableBAll _ _

instance (state : ScanState) (connHandle : UInt16) (chars : List FoundChar) :
    Decidable (state.CharsMeet connHandle chars) :=
  have (info : CentralCharacteristicInfo) (handle : UInt16) :
      Decidable (∀ other ∈ state.live, other ≠ connHandle →
        info.connectionIndex (state.central.slot other) →
          state.Reported other info.toRemoteCharacteristicInfo handle) :=
    List.decidableBAll _ _
  decidable_of_iff ((∃ scan ∈ state.scanning, scan.1 = connHandle ∧
      ∀ found ∈ chars, scan.2.has found.handleValue) ∧
      ∀ found ∈ chars, ∀ info ∈ state.central.remoteCharacteristicInfo,
        info.isFound (state.scannedService.map RemoteServiceInfo.service) found →
        ∀ other ∈ state.live, other ≠ connHandle → info.connectionIndex (state.central.slot other) →
          state.Reported other info.toRemoteCharacteristicInfo found.handleValue)
    ⟨fun ⟨scanned, same⟩ => ⟨scanned, same⟩, fun ⟨scanned, same⟩ => ⟨scanned, same⟩⟩

instance (state : ScanState) (input : CentralInput) : Decidable (state.KeepsReports input) :=
  match input with
  | .event ⟨_, .connected _ _⟩ => inferInstanceAs (Decidable (∀ info ∈ _, _))
  | .event ⟨_, .primSrvcDiscRsp _ _ _⟩ => inferInstanceAs (Decidable (_ → _))
  | .event ⟨_, .charDiscRsp _ _⟩ => inferInstanceAs (Decidable (_ ∧ _))
  | .event ⟨_, .advReport _⟩ | .event ⟨_, .txComplete _⟩ | .event ⟨_, .disconnected _⟩
  | .event ⟨_, .gattsWrite _ _⟩ | .event ⟨_, .sysAttrMissing⟩ | .event ⟨_, .readRsp _ _ _⟩
  | .event ⟨_, .writeRsp _⟩ | .event ⟨_, .hvx _ _ _⟩ | .updateCharacteristicValue _ _
  | .readRemoteCharacteristic _ _ | .writeRemoteCharacteristic _ _ _
  | .subscribeRemoteCharacteristic _ _ | .unsubcribeRemoteCharacteristic _ _ => isTrue trivial

end ScanState

/-! ### The table of ranges -/

/-- Of the services registered under one UUID, only the first one gets a range. -/
def SingleRange (infos : List RemoteServiceInfo) : Prop :=
  infos.Pairwise fun first second => first.uuid = second.uuid → second.handlesRange = .zero

/-- An entry after a service has been stored: it is of that service, or it was there before and keeps out of
its way. -/
theorem storeService_range {found : FoundService} {infos : List RemoteServiceInfo}
    (single : SingleRange infos) {entry : RemoteServiceInfo}
    (member : entry ∈ storeService found infos) :
    found = ⟨entry.uuid, entry.handlesRange⟩ ∨
      (entry ∈ infos ∧ (found.uuid = entry.uuid → entry.handlesRange = .zero)) := by
  induction infos with
  | nil => cases member
  | cons info rest ih =>
    obtain ⟨first, others⟩ := List.pairwise_cons.mp single
    simp only [storeService] at member
    split_ifs at member with same
    · rcases List.mem_cons.mp member with rfl | old
      · exact .inl (by rw [← same])
      · exact .inr ⟨List.mem_cons_of_mem _ old, fun again => first entry old (same.symm.trans again)⟩
    · rcases List.mem_cons.mp member with rfl | old
      · exact .inr ⟨List.mem_cons_self .., fun again => absurd again same⟩
      · rcases ih others old with stored | ⟨before, apart⟩
        · exact .inl stored
        · exact .inr ⟨List.mem_cons_of_mem _ before, apart⟩

theorem storeService_single {found : FoundService} {infos : List RemoteServiceInfo}
    (single : SingleRange infos) : SingleRange (storeService found infos) := by
  induction infos with
  | nil => exact List.Pairwise.nil
  | cons info rest ih =>
    obtain ⟨first, others⟩ := List.pairwise_cons.mp single
    simp only [storeService]
    split_ifs with same
    · exact List.pairwise_cons.mpr ⟨first, others⟩
    · refine List.pairwise_cons.mpr ⟨fun entry member shared => ?_, ih others⟩
      rcases storeService_range others member with rfl | ⟨before, _⟩
      · exact absurd shared.symm same
      · exact first entry before shared

theorem storeServices_single (services : List FoundService) {infos : List RemoteServiceInfo}
    (single : SingleRange infos) : SingleRange (storeServices services infos) := by
  induction services generalizing infos with
  | nil => exact single
  | cons found rest ih => exact ih (storeService_single single)

/-- **An entry after a list of services**: it has the range of one of them, or none, or it is as before and
of no service of the list. -/
theorem storeServices_range {services : List FoundService} {infos : List RemoteServiceInfo}
    (single : SingleRange infos) {entry : RemoteServiceInfo}
    (member : entry ∈ storeServices services infos) :
    ⟨entry.uuid, entry.handlesRange⟩ ∈ services ∨ entry.handlesRange = .zero ∨
      (entry ∈ infos ∧ ∀ found ∈ services, found.uuid ≠ entry.uuid) := by
  induction services generalizing infos with
  | nil => exact .inr (.inr ⟨member, fun _ none => absurd none List.not_mem_nil⟩)
  | cons found rest ih =>
    rcases ih (storeService_single single) member with stored | clear | ⟨before, apart⟩
    · exact .inl (List.mem_cons_of_mem _ stored)
    · exact .inr (.inl clear)
    · rcases storeService_range single before with rfl | ⟨old, kept⟩
      · exact .inl (List.mem_cons_self ..)
      · by_cases shared : found.uuid = entry.uuid
        · exact .inr (.inl (kept shared))
        · exact .inr (.inr ⟨old, List.forall_mem_cons.mpr ⟨shared, apart⟩⟩)

/-- Services that are not registered leave the table as it is. -/
theorem storeServices_unregistered {services : List FoundService} {infos : List RemoteServiceInfo}
    (none : reportsRegistered infos services = false) : storeServices services infos = infos := by
  have storeOne : ∀ (found : FoundService) (entries : List RemoteServiceInfo),
      (∀ info ∈ entries, found.uuid ≠ info.uuid) → storeService found entries = entries := by
    intro found entries apart
    induction entries with
    | nil => rfl
    | cons info rest ih =>
      rw [List.forall_mem_cons] at apart
      rw [storeService, if_neg apart.1, ih apart.2]
  induction services with
  | nil => rfl
  | cons found rest ih =>
    simp only [reportsRegistered, List.any_eq_false] at none
    rw [List.forall_mem_cons] at none
    show storeServices rest (storeService found infos) = infos
    rw [storeOne found infos (by simpa using none.1)]
    exact ih (by simpa [reportsRegistered] using none.2)

/-! ### The invariant of the ranges -/

/-- A scan of a service: it ends where the range of the service ends, and starts in it. -/
structure ScansIn (info : RemoteServiceInfo) (range : HandleRange) : Prop where
  ends : range.endHandle = info.handlesRange.endHandle
  starts : info.handlesRange.startHandle ≤ range.startHandle

/-- **The invariant of the ranges**: a range in the table was reported by the link that reported the service
last, which is up; and the scan that was sent last is in a range of the service that is scanned, which the
link it was sent to has reported. -/
structure RangesKnown (state : ScanState) : Prop where
  single : SingleRange state.central.remoteServiceInfo
  ranges : ∀ info ∈ state.central.remoteServiceInfo, info.handlesRange ≠ .zero →
    ∃ connHandle ∈ state.reporter info.uuid,
      ⟨info.uuid, info.handlesRange⟩ ∈ (state.reports connHandle).services
  reporters : ∀ uuid, ∀ connHandle ∈ state.reporter uuid, connHandle ∈ state.live
  scanned : ∀ scan ∈ state.scanning, scan.1 ∈ state.live ∧ ∃ info ∈ state.scannedService,
    ScansIn info scan.2 ∧ ⟨info.uuid, info.handlesRange⟩ ∈ (state.reports scan.1).services

theorem initial_known (central : CentralRole) (linksNo : UInt8) :
    RangesKnown (.initial central linksNo) where
  single := by
    refine List.pairwise_iff_forall_sublist.mpr fun {first second} sublist _ => ?_
    obtain ⟨info, _, rfl⟩ := List.mem_map.mp (sublist.subset (List.mem_cons_of_mem _
      (List.mem_singleton_self second)) : second ∈ central.remoteServiceInfo.map _)
    rfl
  ranges := by
    intro info member used
    obtain ⟨entry, _, rfl⟩ := List.mem_map.mp (member : info ∈ central.remoteServiceInfo.map _)
    exact absurd rfl used
  reporters := fun _ _ none => by cases none
  scanned := fun _ none => by cases none

section Ranges

variable {state : ScanState} (known : RangesKnown state)

include known

/-- What leaves the table, the order and the links that are up keeps the invariant. -/
theorem known_of_same {input : CentralInput}
    (table : (state.step input).central.remoteServiceInfo = state.central.remoteServiceInfo)
    (scannedService : (state.step input).scannedService = state.scannedService)
    (reporter : state.reporterAfter input = state.reporter)
    (scanning : state.scanningAfter input = state.scanning)
    (stays : ∀ connHandle ∈ state.live, connHandle ∈ (state.step input).live)
    (goes : ∀ connHandle ∈ state.live, ∀ peerAddr count,
      input ≠ .event ⟨connHandle, .connected peerAddr count⟩) : RangesKnown (state.step input) where
  single := by
    rw [table]
    exact known.single
  ranges := by
    intro info member used
    rw [table] at member
    obtain ⟨connHandle, reported, service⟩ := known.ranges info member used
    have up := known.reporters info.uuid connHandle reported
    exact ⟨connHandle, by rw [show (state.step input).reporter = _ from reporter]; exact reported,
      services_kept (goes connHandle up) service⟩
  reporters := by
    intro uuid connHandle reported
    rw [show (state.step input).reporter = _ from reporter] at reported
    exact stays connHandle (known.reporters uuid connHandle reported)
  scanned := by
    intro scan sent
    rw [show (state.step input).scanning = _ from scanning] at sent
    obtain ⟨up, info, here, inside, service⟩ := known.scanned scan sent
    exact ⟨stays scan.1 up, info, by rw [scannedService]; exact here, inside,
      services_kept (goes scan.1 up) service⟩

/-- A response that is no success and starts no scan changes nothing. -/
theorem failed_known {input : CentralInput} (noLink : input.isLinkEvent = false)
    (central : (state.step input).central = state.central)
    (reporter : state.reporterAfter input = state.reporter)
    (scanning : state.scanningAfter input = state.scanning) : RangesKnown (state.step input) := by
  refine known_of_same known (by rw [central]) ?_ reporter scanning ?_ ?_
  · rw [ReportState.scannedService, central]
    rfl
  · intro other up
    show other ∈ input.linksAfter state.live
    rw [linksAfter_of_noLinkEvent noLink]
    exact up
  · rintro other _ peerAddr count rfl
    cases noLink

/-- A disconnection leaves no range. -/
theorem disconnected_known (connHandle : UInt16) (reason : UInt8) :
    RangesKnown (state.step (.event ⟨connHandle, .disconnected reason⟩)) where
  single := by
    show SingleRange (state.central.remoteServiceInfo.map RemoteServiceInfo.clear)
    exact List.pairwise_map.mpr (known.single.imp fun _ _ => rfl)
  ranges := by
    intro info member used
    obtain ⟨entry, _, rfl⟩ := List.mem_map.mp
      (member : info ∈ state.central.remoteServiceInfo.map RemoteServiceInfo.clear)
    exact absurd rfl used
  reporters := fun _ _ none => by cases none
  scanned := fun _ none => by cases none

/-- The services a peripheral reports get its ranges. -/
theorem services_known {connHandle : UInt16} (up : connHandle ∈ state.live)
    (services : List FoundService) (last : FoundService) :
    RangesKnown (state.step (.event ⟨connHandle, .primSrvcDiscRsp statusSuccess services last⟩)) := by
  have table : (state.step (.event ⟨connHandle, .primSrvcDiscRsp statusSuccess services
      last⟩)).central.remoteServiceInfo =
        storeServices (services ++ [last]) state.central.remoteServiceInfo := rfl
  have reported : ∀ uuid, (state.step (.event ⟨connHandle, .primSrvcDiscRsp statusSuccess services
      last⟩)).reporter uuid = if ∃ service ∈ services ++ [last], service.uuid = uuid then
        some connHandle else state.reporter uuid := fun uuid => by
    simp only [ScanState.step, ScanState.reporterAfter, true_and]
  have own : ∀ service ∈ services ++ [last], service ∈ ((state.step (.event ⟨connHandle,
      .primSrvcDiscRsp statusSuccess services last⟩)).reports connHandle).services := by
    intro service member
    show service ∈ (state.reportsAfter _ connHandle).services
    rw [ReportState.reportsAfter, if_pos rfl, Function.update_self]
    exact List.mem_append_right _ member
  have keeps : ∀ {other : UInt16} {service : FoundService},
      service ∈ (state.reports other).services → service ∈ ((state.step (.event ⟨connHandle,
        .primSrvcDiscRsp statusSuccess services last⟩)).reports other).services := fun reported =>
    services_kept (fun _ _ same => by cases same) reported
  refine ⟨?_, ?_, ?_, ?_⟩
  · rw [table]
    exact storeServices_single _ known.single
  · intro info member used
    rw [table] at member
    rw [reported]
    rcases storeServices_range known.single member with stored | clear | ⟨before, apart⟩
    · exact ⟨connHandle, by rw [if_pos ⟨_, stored, rfl⟩, Option.mem_def], own _ stored⟩
    · exact absurd clear used
    · have none : ¬ ∃ service ∈ services ++ [last], service.uuid = info.uuid :=
        fun ⟨service, inside, same⟩ => apart service inside same
      obtain ⟨other, reporter, service⟩ := known.ranges info before used
      exact ⟨other, by rw [if_neg none]; exact reporter, keeps service⟩
  · intro uuid other reporter
    rw [reported] at reporter
    split_ifs at reporter
    · obtain rfl := Option.mem_some_iff.mp reporter
      exact up
    · exact known.reporters uuid other reporter
  · intro scan sent
    replace sent : scan ∈ state.scanningAfter (.event ⟨connHandle,
      .primSrvcDiscRsp statusSuccess services last⟩) := sent
    simp only [ScanState.scanningAfter, true_and] at sent
    split_ifs at sent with registered
    · cases sent
    · have silent : scans (state.central.step (.event ⟨connHandle,
          .primSrvcDiscRsp statusSuccess services last⟩)).2 = [] := rfl
      rw [silent, List.head?_nil, Option.none_or] at sent
      obtain ⟨live, info, here, inside, service⟩ := known.scanned scan sent
      refine ⟨live, info, ?_, inside, keeps service⟩
      show info ∈ (storeServices (services ++ [last]) state.central.remoteServiceInfo)[_]?
      rw [storeServices_unregistered (Bool.not_eq_true _ ▸ registered)]
      exact here

/-- **The next service is scanned in a range of the peripheral**, where the services were reported last by
itself. -/
theorem next_known {connHandle : UInt16} (own : state.OwnReports connHandle) {first index : Nat}
    (next : nextFound state.central.remoteServiceInfo first = some index) :
    ∃ info ∈ state.central.remoteServiceInfo[index]?,
      ⟨info.uuid, info.handlesRange⟩ ∈ (state.reports connHandle).services := by
  obtain ⟨info, here, found⟩ := nextFound_found next
  have member := List.mem_of_getElem? here
  have used : info.handlesRange ≠ .zero := by
    intro clear
    simp [RemoteServiceInfo.found, clear, HandleRange.zero] at found
  obtain ⟨reporter, reported, service⟩ := known.ranges info member used
  obtain rfl := own (info.service, info.uuid) (List.mem_map.mpr ⟨info, member, rfl⟩) reporter reported
  exact ⟨info, here, service⟩

/-- The scan of a next service keeps the invariant. -/
theorem scan_known {input : CentralInput} {connHandle : UInt16} (up : connHandle ∈ state.live)
    (own : state.OwnReports connHandle) {first index : Nat}
    (next : nextFound state.central.remoteServiceInfo first = some index)
    (central : (state.step input).central =
      { state.central with remoteServiceDiscoveryIndex := index })
    (live : (state.step input).live = state.live) (reports : (state.step input).reports = state.reports)
    (reporter : state.reporterAfter input = state.reporter)
    (scanning : state.scanningAfter input = some (connHandle,
      (state.central.remoteServiceInfo[index]?.map RemoteServiceInfo.handlesRange).getD .zero)) :
    RangesKnown (state.step input) := by
  refine ⟨?_, ?_, ?_, ?_⟩
  · rw [central]
    exact known.single
  · rw [central, reports, show (state.step input).reporter = _ from reporter]
    exact known.ranges
  · rw [live, show (state.step input).reporter = _ from reporter]
    exact known.reporters
  · intro scan sent
    obtain ⟨info, here, service⟩ := next_known known own next
    rw [Option.mem_def] at here
    replace sent : scan ∈ state.scanningAfter input := sent
    rw [scanning, here, Option.map_some, Option.getD_some] at sent
    obtain rfl := Option.mem_some_iff.mp sent
    refine ⟨live ▸ up, info, ?_, ⟨rfl, UInt16.le_refl _⟩, by rw [reports]; exact service⟩
    rw [ReportState.scannedService, central]
    exact here

/-- A characteristic in the range of the last scan is in a range its peripheral has reported. -/
theorem chars_inside {connHandle : UInt16} {chars : List FoundChar}
    (meets : state.CharsMeet connHandle chars) : connHandle ∈ state.live ∧
      ∃ info ∈ state.scannedService, ⟨info.uuid, info.handlesRange⟩ ∈
        (state.reports connHandle).services ∧ ∀ found ∈ chars, info.handlesRange.has found.handleValue := by
  obtain ⟨scan, sent, rfl, inside⟩ := meets.scanned
  obtain ⟨up, info, here, scans, service⟩ := known.scanned scan sent
  refine ⟨up, info, here, service, fun found member => ?_⟩
  have within := inside found member
  simp only [HandleRange.has, Bool.and_eq_true, decide_eq_true_eq] at within ⊢
  exact ⟨UInt16.le_trans scans.starts within.1, scans.ends ▸ within.2⟩

/-- The scan goes on in the range it is in. -/
theorem chars_known {connHandle : UInt16} {chars : List FoundChar}
    (tracks : Tracks state.toLinkState) (meets : state.CharsMeet connHandle chars) :
    RangesKnown (state.step (.event ⟨connHandle, .charDiscRsp statusSuccess chars⟩)) := by
  obtain ⟨up, info, here, service, inside⟩ := chars_inside known meets
  rw [Option.mem_def] at here
  have keeps : ∀ {other : UInt16} {service : FoundService},
      service ∈ (state.reports other).services → service ∈ ((state.step (.event ⟨connHandle,
        .charDiscRsp statusSuccess chars⟩)).reports other).services := fun reported =>
    services_kept (fun _ _ same => by cases same) reported
  refine ⟨known.single, ?_, known.reporters, ?_⟩
  · intro entry member used
    obtain ⟨reporter, reported, service⟩ := known.ranges entry member used
    exact ⟨reporter, reported, keeps service⟩
  · intro scan sent
    have next : (state.step (.event ⟨connHandle, .charDiscRsp statusSuccess chars⟩)).scanning =
        some (state.central.handleAt (state.central.slot connHandle), continueRange
          ((state.scannedService.map RemoteServiceInfo.handlesRange).getD .zero) chars) := rfl
    rw [next, handleAt_slot tracks up, here, Option.map_some, Option.getD_some] at sent
    obtain rfl := Option.mem_some_iff.mp sent
    obtain ⟨ends, start⟩ := continueRange_cases info.handlesRange chars
    refine ⟨up, info, here, ⟨ends, ?_⟩, keeps service⟩
    rcases start with same | ⟨found, member, same⟩
    · exact same ▸ UInt16.le_refl _
    · have within := inside found member
      simp only [HandleRange.has, Bool.and_eq_true, decide_eq_true_eq] at within
      exact same ▸ within.1

/-- A link that comes up has no scan under way; one that ends takes all ranges with it. -/
theorem link_known {input : CentralInput} (legal : state.Legal input)
    (noLink : input.isLinkEvent = true) : RangesKnown (state.step input) := by
  match input, noLink with
  | .event ⟨connHandle, .connected peerAddr count⟩, _ =>
    have silent := step_scans state.central
      (show (CentralInput.event ⟨connHandle, .connected peerAddr count⟩).isDiscovery = false from rfl)
    have fresh := (legal_connected legal.links).1
    refine known_of_same known rfl rfl rfl ?_ (fun _ up => List.mem_cons_of_mem _ up) ?_
    · show (scans (state.central.step _).2).head?.or state.scanning = state.scanning
      rw [silent, List.head?_nil, Option.none_or]
    · intro other up _ _ same
      cases same
      exact fresh up
  | .event ⟨connHandle, .disconnected reason⟩, _ =>
    exact disconnected_known known connHandle reason

/-- Other inputs leave the ranges alone, and scan nothing. -/
theorem quiet_known {input : CentralInput} (noLink : input.isLinkEvent = false)
    (discovery : input.isDiscovery = false) : RangesKnown (state.step input) := by
  have silent := step_scans state.central discovery
  have tables := step_tables state.central noLink discovery
  refine known_of_same known tables.remoteServiceInfo ?_ ?_ ?_ ?_ ?_
  · show (state.central.step input).1.remoteServiceInfo[
      (state.central.step input).1.remoteServiceDiscoveryIndex]? = _
    rw [tables.remoteServiceInfo, tables.remoteServiceDiscoveryIndex]
    rfl
  · unfold ScanState.reporterAfter
    split
    · cases noLink
    · cases discovery
    · rfl
  · unfold ScanState.scanningAfter
    split
    · cases noLink
    · cases discovery
    · rw [silent, List.head?_nil, Option.none_or]
  · intro other up
    show other ∈ input.linksAfter state.live
    rw [linksAfter_of_noLinkEvent noLink]
    exact up
  · rintro other _ peerAddr count rfl
    cases noLink

/-- The end of a list of services leads to the scan of the first one, or to none. -/
theorem listed_known {connHandle : UInt16} (tracks : Tracks state.toLinkState)
    (up : connHandle ∈ state.live) {gattStatus : UInt16} (services : List FoundService)
    (last : FoundService) (failed : gattStatus ≠ statusSuccess)
    (own : gattStatus = statusInvalidHandle → state.OwnReports connHandle) :
    RangesKnown (state.step (.event ⟨connHandle, .primSrvcDiscRsp gattStatus services last⟩)) := by
  have reporter : state.reporterAfter (.event ⟨connHandle,
      .primSrvcDiscRsp gattStatus services last⟩) = state.reporter := by
    simp [ScanState.reporterAfter, failed]
  have scanning : state.scanningAfter (.event ⟨connHandle,
      .primSrvcDiscRsp gattStatus services last⟩) = (scans (state.central.onServices connHandle
        gattStatus services last).2).head?.or state.scanning := by
    simp only [ScanState.scanningAfter, failed, false_and, if_false]
    rfl
  rcases state.central.onServices_failed connHandle services last failed with
    ⟨outputs, same, silent⟩ | ⟨invalid, index, next, same⟩
  · exact failed_known known rfl (congrArg Prod.fst same) reporter (by
      rw [scanning, same, silent, List.head?_nil, Option.none_or])
  · refine scan_known known up (own invalid) next (congrArg Prod.fst same) rfl ?_ reporter ?_
    · show state.reportsAfter (.event ⟨connHandle,
        .primSrvcDiscRsp gattStatus services last⟩) = state.reports
      rw [ReportState.reportsAfter, if_neg failed]
    · rw [scanning, same, handleAt_slot tracks up]
      rfl

/-- The end of a scan leads to the next one, or to none. -/
theorem scanned_known {connHandle : UInt16} (tracks : Tracks state.toLinkState)
    (up : connHandle ∈ state.live) {gattStatus : UInt16} (chars : List FoundChar)
    (failed : gattStatus ≠ statusSuccess)
    (own : gattStatus = statusAttributeNotFound → state.OwnReports connHandle) :
    RangesKnown (state.step (.event ⟨connHandle, .charDiscRsp gattStatus chars⟩)) := by
  have scanning : state.scanningAfter (.event ⟨connHandle, .charDiscRsp gattStatus chars⟩) =
      (scans (state.central.onChars connHandle gattStatus chars).2).head?.or state.scanning := rfl
  rcases state.central.onChars_failed connHandle chars failed with
    ⟨outputs, same, silent⟩ | ⟨notFound, index, next, same⟩
  · exact failed_known known rfl (congrArg Prod.fst same) rfl (by
      rw [scanning, same, silent, List.head?_nil, Option.none_or])
  · refine scan_known known up (own notFound) next (congrArg Prod.fst same) rfl ?_ rfl ?_
    · show state.reportsAfter (.event ⟨connHandle, .charDiscRsp gattStatus chars⟩) = state.reports
      rw [ReportState.reportsAfter, if_neg failed]
    · rw [scanning, same, handleAt_slot tracks up]
      rfl

/-- **The step lemma of the ranges.** -/
theorem step_known {input : CentralInput} (tracks : Tracks state.toLinkState)
    (legal : state.Legal input) (keeps : state.KeepsReports input) :
    RangesKnown (state.step input) := by
  cases discovery : input.isDiscovery with
  | false =>
    cases noLink : input.isLinkEvent with
    | true => exact link_known known legal noLink
    | false => exact quiet_known known noLink discovery
  | true =>
    match input, discovery with
    | .event ⟨connHandle, .primSrvcDiscRsp gattStatus services last⟩, _ =>
      have up : connHandle ∈ state.live := legal.client connHandle rfl
      by_cases success : gattStatus = statusSuccess
      · subst success
        exact services_known known up services last
      · exact listed_known known tracks up services last success keeps
    | .event ⟨connHandle, .charDiscRsp gattStatus chars⟩, _ =>
      have up : connHandle ∈ state.live := legal.client connHandle rfl
      by_cases success : gattStatus = statusSuccess
      · subst success
        exact chars_known known tracks (keeps.1 rfl)
      · exact scanned_known known tracks up chars success keeps.2

end Ranges

/-! ### The invariant -/

/-- **The invariant**: the slots track the links, the ranges are known, and a link whose slot is flagged for
a characteristic that can be asked for has reported the value handle in the table. -/
structure Provenance (state : ScanState) : Prop where
  tracks : Tracks state.toLinkState
  known : RangesKnown state
  flagged : ∀ connHandle ∈ state.live, ∀ info ∈ state.central.remoteCharacteristicInfo,
    info.connectionIndex (state.central.slot connHandle) → info.sendable →
      state.Reported connHandle info.toRemoteCharacteristicInfo info.valueHandle

theorem initial_provenance (central : CentralRole) (linksNo : UInt8) :
    Provenance (.initial central linksNo) where
  tracks := initial_tracks central.clearTables linksNo
  known := initial_known central linksNo
  flagged := fun _ member => absurd member List.not_mem_nil

/-- What a response reports, where it meets the condition. -/
theorem reported_of_found {state : ScanState} (known : RangesKnown state) {connHandle : UInt16}
    {chars : List FoundChar} (meets : state.CharsMeet connHandle chars) {found : FoundChar}
    (member : found ∈ chars) {info : RemoteCharacteristicInfo}
    (isFound : info.isFound (state.scannedService.map RemoteServiceInfo.service) found) :
    (state.step (.event ⟨connHandle, .charDiscRsp statusSuccess chars⟩)).Reported connHandle info
      found.handleValue := by
  obtain ⟨_, entry, scanned, reported, inside⟩ := chars_inside known meets
  obtain ⟨service, uuid⟩ := isFound
  rw [Option.mem_def] at scanned
  rw [scanned, Option.map_some, Option.some_inj] at service
  refine ⟨(entry.uuid, found), ?_, ?_, uuid, rfl⟩
  · show _ ∈ (Function.update state.reports connHandle
      ((state.reports connHandle).addChars chars) connHandle).chars
    rw [Function.update_self]
    exact mem_addChars reported member (inside found member)
  · show (info.service, entry.uuid) ∈ registered (state.central.step _).1.remoteServiceInfo
    rw [step_registered, ← service]
    exact List.mem_map.mpr ⟨entry, List.mem_of_getElem? scanned, rfl⟩

section Step

variable {state : ScanState} (provenance : Provenance state)

include provenance

/-- An input that leaves the flags of a link and its reports keeps the link right. -/
theorem flagged_kept {input : CentralInput} (legal : state.Legal input) {connHandle : UInt16}
    (goes : ∀ peerAddr count, input ≠ .event ⟨connHandle, .connected peerAddr count⟩)
    (before : connHandle ∈ state.live) (after : connHandle ∈ (state.step input).live)
    {info : CentralCharacteristicInfo} (member : info ∈ state.central.remoteCharacteristicInfo)
    (flagged : info.connectionIndex ((state.step input).central.slot connHandle))
    (sendable : info.sendable) :
    (state.step input).Reported connHandle info.toRemoteCharacteristicInfo info.valueHandle := by
  have kept : (state.step input).central.slot connHandle = state.central.slot connHandle :=
    provenance.tracks.owned.slot_kept legal.links before after
  rw [kept] at flagged
  exact reported_kept goes (provenance.flagged connHandle before info member flagged sendable)

theorem connected_provenance {connHandle : UInt16} {peerAddr : Vector UInt8 6} {count : UInt8}
    (legal : state.Legal (.event ⟨connHandle, .connected peerAddr count⟩))
    (keeps : state.KeepsReports (.event ⟨connHandle, .connected peerAddr count⟩)) :
    Provenance (state.step (.event ⟨connHandle, .connected peerAddr count⟩)) where
  tracks := step_tracks provenance.tracks legal.links legal.room
  known := step_known provenance.known provenance.tracks legal keeps
  flagged := by
    intro other up info member flagged sendable
    obtain ⟨fresh, _, _⟩ := legal_connected legal.links
    rcases List.mem_cons.mp up with rfl | before
    · have slot : (state.step (.event ⟨other, .connected peerAddr count⟩)).central.slot other =
          state.central.slot connHandleInvalid :=
        provenance.tracks.owned.slot_new legal.links
      rw [slot] at flagged
      exact absurd sendable (keeps info member flagged)
    · have different : other ≠ connHandle := fun same => fresh (same ▸ before)
      exact flagged_kept provenance legal
        (fun _ _ same => different (by cases same; rfl)) before up member flagged sendable

theorem disconnected_provenance {connHandle : UInt16} {reason : UInt8}
    (legal : state.Legal (.event ⟨connHandle, .disconnected reason⟩)) :
    Provenance (state.step (.event ⟨connHandle, .disconnected reason⟩)) where
  tracks := step_tracks provenance.tracks legal.links legal.room
  known := step_known provenance.known provenance.tracks legal trivial
  flagged := by
    intro other up info member flagged sendable
    have before : other ∈ state.live := (List.mem_filter.mp up).1
    have table : (state.step (.event ⟨connHandle,
        .disconnected reason⟩)).central.remoteCharacteristicInfo =
          if state.central.peripheralConnected - 1 = 0 then
            CentralRole.clearCharacteristics state.central.remoteCharacteristicInfo
          else state.central.remoteCharacteristicInfo := rfl
    rw [table] at member
    split_ifs at member
    · -- All is cleared.
      obtain ⟨cleared, _, rfl⟩ := List.mem_map.mp member
      simp [CentralCharacteristicInfo.sendable] at sendable
    · exact flagged_kept provenance legal (fun _ _ same => by cases same) before up member flagged
        sendable

theorem chars_provenance {connHandle : UInt16} {chars : List FoundChar}
    (legal : state.Legal (.event ⟨connHandle, .charDiscRsp statusSuccess chars⟩))
    (meets : state.CharsMeet connHandle chars) :
    Provenance (state.step (.event ⟨connHandle, .charDiscRsp statusSuccess chars⟩)) where
  tracks := step_tracks provenance.tracks legal.links legal.room
  known := step_known provenance.known provenance.tracks legal ⟨fun _ => meets, fun failed => by cases failed⟩
  flagged := by
    intro other up info member flagged sendable
    replace member : info ∈ state.central.remoteCharacteristicInfo.map fun info => chars.foldl
        (CentralRole.storeChar (state.scannedService.map RemoteServiceInfo.service)
          (state.central.slot connHandle)) info := member
    rw [List.mem_map] at member
    obtain ⟨old, oldMember, rfl⟩ := member
    rcases storeChars_cases (state.scannedService.map RemoteServiceInfo.service)
      (state.central.slot connHandle) chars old with ⟨_, same⟩ | ⟨found, foundMember, isFound, stored⟩
    · rw [same] at flagged sendable ⊢
      exact flagged_kept provenance legal (fun _ _ same => by cases same) up up oldMember flagged
        sendable
    · rw [stored] at flagged ⊢
      by_cases own : other = connHandle
      · rw [own]
        exact reported_of_found provenance.known meets foundMember isFound
      · have client : connHandle ∈ state.live := legal.client connHandle rfl
        have kept : (state.step (.event ⟨connHandle, .charDiscRsp statusSuccess chars⟩)).central.slot
            other = state.central.slot other :=
          provenance.tracks.owned.slot_kept legal.links up up
        have elsewhere := slot_ne provenance.tracks client up own
        rw [kept] at flagged
        replace flagged : Function.update old.connectionIndex (state.central.slot connHandle) true
          (state.central.slot other) = true := flagged
        rw [Function.update_of_ne elsewhere] at flagged
        exact reported_kept (fun _ _ same => by cases same)
          (meets.same found foundMember old oldMember isFound other up own flagged)

/-- An input that leaves the characteristics alone, and is no link event, keeps the invariant. -/
theorem other_provenance {input : CentralInput} (legal : state.Legal input)
    (keeps : state.KeepsReports input) (noLink : input.isLinkEvent = false)
    (same : (state.step input).central.remoteCharacteristicInfo =
      state.central.remoteCharacteristicInfo) : Provenance (state.step input) where
  tracks := step_tracks provenance.tracks legal.links legal.room
  known := step_known provenance.known provenance.tracks legal keeps
  flagged := by
    intro connHandle up info member flagged sendable
    rw [same] at member
    have before : connHandle ∈ state.live := linksAfter_of_noLinkEvent noLink state.live ▸ up
    refine flagged_kept provenance legal (fun _ _ connects => ?_) before up member flagged sendable
    rw [connects] at noLink
    cases noLink

/-- **The step lemma.** A legal step that meets the condition keeps the invariant. -/
theorem step_provenance {input : CentralInput} (legal : state.Legal input)
    (keeps : state.KeepsReports input) : Provenance (state.step input) := by
  cases noLink : input.isLinkEvent with
  | true =>
    match input, noLink with
    | .event ⟨_, .connected _ _⟩, _ => exact connected_provenance provenance legal keeps
    | .event ⟨_, .disconnected _⟩, _ => exact disconnected_provenance provenance legal
  | false =>
    cases discovery : input.isDiscovery with
    | false =>
      exact other_provenance provenance legal keeps noLink
        (step_tables state.central noLink discovery).remoteCharacteristicInfo
    | true =>
      match input, discovery with
      | .event ⟨connHandle, .primSrvcDiscRsp gattStatus services last⟩, _ =>
        exact other_provenance provenance legal keeps rfl
          (onServices_characteristics state.central connHandle gattStatus services last)
      | .event ⟨connHandle, .charDiscRsp gattStatus chars⟩, _ =>
        by_cases success : gattStatus = statusSuccess
        · subst success
          exact chars_provenance provenance legal (keeps.1 rfl)
        · exact other_provenance provenance legal keeps rfl
            (onChars_characteristics state.central connHandle chars success)

end Step

/-! ### What is sent -/

/-- The next service is scanned in a range the peripheral has reported. -/
theorem next_right {state : ScanState} (known : RangesKnown state) {connHandle : UInt16}
    (own : state.OwnReports connHandle) {first index : Nat}
    (next : nextFound state.central.remoteServiceInfo first = some index) :
    (state.reports connHandle).HasRange
      ((state.central.remoteServiceInfo[index]?.map RemoteServiceInfo.handlesRange).getD .zero) := by
  obtain ⟨info, here, service⟩ := next_known known own next
  rw [Option.mem_def] at here
  rw [here, Option.map_some, Option.getD_some]
  exact ⟨_, service, rfl, .inl rfl⟩

/-- The scan goes on in the range it is in. -/
theorem continue_right {state : ScanState} (known : RangesKnown state) {connHandle : UInt16}
    {chars : List FoundChar} (meets : state.CharsMeet connHandle chars) :
    ((state.reports connHandle).addChars chars).HasRange (continueRange
      ((state.scannedService.map RemoteServiceInfo.handlesRange).getD .zero) chars) := by
  obtain ⟨_, info, scanned, reported, inside⟩ := chars_inside known meets
  rw [Option.mem_def] at scanned
  rw [scanned, Option.map_some, Option.getD_some]
  obtain ⟨last, start⟩ := continueRange_cases info.handlesRange chars
  refine ⟨_, reported, last, ?_⟩
  rcases start with same | ⟨found, member, same⟩
  · exact .inl same
  · exact .inr ⟨_, mem_addChars reported member (inside found member), same.symm, inside found member⟩

section Sent

variable {state : ScanState} (provenance : Provenance state)

include provenance

/-- **A request goes to peripherals that have reported the characteristic.** -/
theorem request_right {characteristic : Nat} {distance : UInt16}
    {allowed : CentralCharacteristicInfo → Bool}
    {call : CentralCharacteristicInfo → UInt16 → StackCall} {codes : Nat → UInt32}
    (transfer : ∀ info connHandle, (call info connHandle).isTransfer)
    (sendable : ∀ info, info.valueHandle ≠ 0 → allowed info → info.sendable)
    (link : ∀ info connHandle, (call info connHandle).transferHandle = connHandle)
    (attHandle : ∀ info connHandle, (call info connHandle).attHandle = info.valueHandle + distance) :
    ∀ made ∈ transfers (state.central.request characteristic allowed call codes).2.1,
      made.transferHandle ∈ state.live ∧
        ∃ info ∈ state.central.remoteCharacteristicInfo, info.characteristic = characteristic ∧
          ∃ handle, state.Reported made.transferHandle info.toRemoteCharacteristicInfo handle ∧
            made.attHandle = handle + distance := by
  intro made member
  obtain ⟨info, found, discovered, allows, connHandle, target, rfl⟩ :=
    (request_transfers state.central characteristic allowed call codes transfer).2 made member
  obtain ⟨slot, filtered, rfl⟩ := List.mem_map.mp target
  rw [List.mem_filter, List.mem_range, decide_eq_true_eq] at filtered
  obtain ⟨inside, used, flagged⟩ := filtered
  have up : state.central.handleAt slot ∈ state.live :=
    provenance.tracks.holds.owned slot inside used
  have here : slot = state.central.slot (state.central.handleAt slot) :=
    provenance.tracks.holds.eq_find up inside rfl
  have entry : info ∈ state.central.remoteCharacteristicInfo := List.mem_of_find?_eq_some found
  rw [link, attHandle]
  refine ⟨up, info, entry, ?_, info.valueHandle, ?_, rfl⟩
  · have matched := List.find?_some found
    exact of_decide_eq_true matched
  · exact provenance.flagged _ up info entry (here ▸ flagged) (sendable info discovered allows)

/-- **What is scanned has been reported.** -/
theorem scanned_right {input : CentralInput} (legal : state.Legal input)
    (keeps : state.KeepsReports input) : ∀ scan ∈ scans (state.central.step input).2,
      ((state.toReportState.step input).reports scan.1).HasRange scan.2 := by
  cases discovery : input.isDiscovery with
  | false =>
    rw [step_scans state.central discovery]
    exact fun _ member => absurd member List.not_mem_nil
  | true =>
    match input, discovery with
    | .event ⟨connHandle, .primSrvcDiscRsp gattStatus services last⟩, _ =>
      have peripheral := handleAt_slot provenance.tracks (legal.client connHandle rfl)
      show ∀ scan ∈ scans (state.central.onServices connHandle gattStatus services last).2, _
      by_cases success : gattStatus = statusSuccess
      · subst success
        exact fun _ member => absurd member List.not_mem_nil
      · rcases state.central.onServices_failed connHandle services last success with
          ⟨outputs, same, silent⟩ | ⟨invalid, index, next, same⟩
        · rw [same, silent]
          exact fun _ member => absurd member List.not_mem_nil
        · rw [same, peripheral]
          intro scan member
          obtain rfl := List.mem_singleton.mp member
          show (state.reportsAfter _ connHandle).HasRange _
          rw [ReportState.reportsAfter, if_neg success]
          exact next_right provenance.known (keeps invalid) next
    | .event ⟨connHandle, .charDiscRsp gattStatus chars⟩, _ =>
      have peripheral := handleAt_slot provenance.tracks (legal.client connHandle rfl)
      show ∀ scan ∈ scans (state.central.onChars connHandle gattStatus chars).2, _
      by_cases success : gattStatus = statusSuccess
      · subst success
        intro scan member
        obtain rfl := List.mem_singleton.mp member
        show (state.reportsAfter _ (state.central.handleAt _)).HasRange _
        rw [peripheral, ReportState.reportsAfter, if_pos rfl, Function.update_self]
        exact continue_right provenance.known (keeps.1 rfl)
      · rcases state.central.onChars_failed connHandle chars success with
          ⟨outputs, same, silent⟩ | ⟨notFound, index, next, same⟩
        · rw [same, silent]
          exact fun _ member => absurd member List.not_mem_nil
        · rw [same, peripheral]
          intro scan member
          obtain rfl := List.mem_singleton.mp member
          show (state.reportsAfter _ connHandle).HasRange _
          rw [ReportState.reportsAfter, if_neg success]
          exact next_right provenance.known (keeps.2 notFound) next

/-- **What a step sends is right.** -/
theorem step_right {input : CentralInput} (legal : state.Legal input)
    (keeps : state.KeepsReports input) : RequestsRight state.toReportState input where
  requests := by
    intro characteristic distance asks
    match input, asks with
    | .readRemoteCharacteristic _ codes, asks =>
      cases asks
      refine request_right provenance (fun _ _ => rfl) ?_ (fun _ _ => rfl) fun _ _ => ?_
      · intro info discovered read
        simp [CentralCharacteristicInfo.sendable, discovered, show info.properties.read = true from read]
      · exact (UInt16.add_zero _).symm
    | .writeRemoteCharacteristic _ value codes, asks =>
      cases asks
      refine request_right provenance (fun _ _ => rfl) ?_ (fun _ _ => rfl) fun _ _ => ?_
      · intro info discovered write
        simp only [Bool.or_eq_true] at write
        rcases write with write | write <;>
          simp [CentralCharacteristicInfo.sendable, discovered, write]
      · exact (UInt16.add_zero _).symm
    | .subscribeRemoteCharacteristic _ codes, asks =>
      cases asks
      refine request_right provenance (fun _ _ => rfl) ?_ (fun _ _ => rfl) fun _ _ => rfl
      intro info discovered subscribe
      simp only [Bool.or_eq_true] at subscribe
      rcases subscribe with subscribe | subscribe <;>
        simp [CentralCharacteristicInfo.sendable, discovered, subscribe]
    | .unsubcribeRemoteCharacteristic _ codes, asks =>
      cases asks
      refine request_right provenance (fun _ _ => rfl) ?_ (fun _ _ => rfl) fun _ _ => rfl
      intro info discovered subscribe
      simp only [Bool.or_eq_true] at subscribe
      rcases subscribe with subscribe | subscribe <;>
        simp [CentralCharacteristicInfo.sendable, discovered, subscribe]
  scanned := scanned_right provenance legal keeps

end Sent

/-- A run with the order of the reports is one of the reports. -/
theorem eachStep_reports {meets : ReportState → CentralInput → Prop} {state : ScanState}
    {inputs : List CentralInput} :
    EachStep ScanState.step (fun state input => meets state.toReportState input) state inputs ↔
      EachStep ReportState.step meets state.toReportState inputs := by
  induction inputs generalizing state with
  | nil => exact Iff.rfl
  | cons input rest ih => exact and_congr Iff.rfl ih

/-- **In every run whose steps meet `KeepsReports`, requests go to peripherals that have reported the
characteristic on their current connection, for the handle they have reported, and scans are of ranges
they have reported.** -/
theorem requests_right (central : CentralRole) (linksNo : UInt8) (inputs : List CentralInput)
    (legal : EachStep ReportState.step ReportState.Legal (.initial central linksNo) inputs)
    (keeps : EachStep ScanState.step ScanState.KeepsReports (.initial central linksNo) inputs) :
    EachStep ReportState.step RequestsRight (.initial central linksNo) inputs := by
  have right : EachStep ScanState.step (fun state input => RequestsRight state.toReportState input)
      (.initial central linksNo) inputs :=
    eachStep_of_invariant
      (fun _ _ provenance meets => step_provenance provenance meets.1 meets.2)
      (fun _ _ provenance meets => step_right provenance meets.1 meets.2)
      (initial_provenance central linksNo) (eachStep_and.mpr ⟨eachStep_reports.mpr legal, keeps⟩)
  exact eachStep_reports.mp right

/-- Two peripherals connect and are discovered, one after the other: both have the characteristic at the
same value handle. A read goes to both; one of them leaves, and a subscription goes to the other. -/
def twoDiscovered : List CentralInput :=
  connection 0 :: connection 1 :: discoveryOf 0 3 ++ discoveryOf 1 3 ++
    [.readRemoteCharacteristic 1 fun _ => nrfSuccess, .event ⟨0, .disconnected 0x13⟩,
      .subscribeRemoteCharacteristic 1 fun _ => nrfSuccess]

theorem requests_right_two :
    EachStep ReportState.step RequestsRight (.initial oneRemoteCentral 2) twoDiscovered :=
  requests_right oneRemoteCentral 2 twoDiscovered (by decide) (by decide)

/-- **Two peripherals with the characteristic at different handles**: the first one is read at the
handle of the second. -/
theorem read_misdirected :
    ¬ ∀ (central : CentralRole) (linksNo : UInt8) (inputs : List CentralInput),
      EachStep ReportState.step ReportState.Legal (.initial central linksNo) inputs →
      EachStep ReportState.step RequestsRight (.initial central linksNo) inputs := by
  intro always
  have each := always oneRemoteCentral 2 (connection 0 :: discoveryOf 0 3 ++
    connection 1 :: discoveryOf 1 5 ++ [.readRemoteCharacteristic 1 fun _ => nrfSuccess]) (by decide)
  have right := each.2.2.2.2.2.2.2.2.2.2.1
  obtain ⟨_, info, member, _, handle, reported, same⟩ :=
    right.requests 1 0 rfl (.gattcRead 0 5) (by decide)
  obtain rfl := List.mem_singleton.mp member
  have five : handle = 5 := by
    rw [UInt16.add_zero] at same
    exact same.symm
  subst five
  exact absurd reported (by decide)

end PrimoCore.Ble
