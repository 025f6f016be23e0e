/-
**What the peripherals have reported, and what the central role asks them.**

Discovery fills one table for all links: a handle range per service, one value handle per characteristic,
and the index of the service that is scanned. What each peripheral has reported on its current
connection is kept apart here, to compare the table with.

* `LinkReports`, `ReportState` — the reports of each link, gathered from the events.
* `Reported` — a peripheral has reported a value handle for a registered characteristic.
* `RequestsRight` — **what a step may send**: requests to peripherals that reported the characteristic,
  for the handle they reported, and scans of ranges they reported.
* `storeChars_cases`, `reported_kept` — what a response stores, and which reports a step keeps.
* `step_scans`, `request_transfers` — which steps scan, and what a request sends.
-/

import PrimoCore.Ble.CentralLinks

namespace PrimoCore.Ble

open PrimoCore.Lib

/-! ### Reports -/

/-- What a peripheral has reported on its current connection: services, and characteristics, each with
the UUID of a reported service that has its value handle. -/
structure LinkReports where
  services : List FoundService
  chars : List (Uuid × FoundChar)

namespace LinkReports

/-- A characteristic, for each reported service that has its value handle. -/
def inServices (reports : LinkReports) (found : FoundChar) : List (Uuid × FoundChar) :=
  (reports.services.filter fun service => service.handleRange.has found.handleValue).map
    fun service => (service.uuid, found)

def addServices (reports : LinkReports) (services : List FoundService) : LinkReports :=
  { reports with services := reports.services ++ services }

def addChars (reports : LinkReports) (chars : List FoundChar) : LinkReports :=
  { reports with chars := reports.chars ++ chars.flatMap reports.inServices }

/-- A range that has been reported, from its start or from a reported value handle in it on. -/
def HasRange (reports : LinkReports) (range : HandleRange) : Prop :=
  ∃ service ∈ reports.services, range.endHandle = service.handleRange.endHandle ∧
    (range.startHandle = service.handleRange.startHandle ∨
      ∃ report ∈ reports.chars, report.2.handleValue = range.startHandle ∧
        service.handleRange.has report.2.handleValue)

end LinkReports

/-- The central role, the links that are up, what each has reported and who it is. -/
structure ReportState extends LinkState where
  reports : UInt16 → LinkReports
  peerAddr : UInt16 → Vector UInt8 6

namespace ReportState

/-- The role as it is constructed, `allowMultilink` called and `begin` done, whatever is registered. -/
def initial (central : CentralRole) (linksNo : UInt8) : ReportState where
  toLinkState := .initial central.clearTables linksNo
  reports := fun _ => ⟨[], []⟩
  peerAddr := fun _ => .replicate 6 0

/-- The reports after an input: a connection starts with none. -/
def reportsAfter (state : ReportState) : CentralInput → UInt16 → LinkReports
  | .event ⟨connHandle, .connected _ _⟩ => Function.update state.reports connHandle ⟨[], []⟩
  | .event ⟨connHandle, .primSrvcDiscRsp gattStatus services last⟩ =>
      if gattStatus = statusSuccess then
        Function.update state.reports connHandle
          ((state.reports connHandle).addServices (services ++ [last]))
      else state.reports
  | .event ⟨connHandle, .charDiscRsp gattStatus chars⟩ =>
      if gattStatus = statusSuccess then
        Function.update state.reports connHandle ((state.reports connHandle).addChars chars)
      else state.reports
  | _ => state.reports

/-- Who is at the links after an input. -/
def peerAddrAfter (state : ReportState) : CentralInput → UInt16 → Vector UInt8 6
  | .event ⟨connHandle, .connected peerAddr _⟩ => Function.update state.peerAddr connHandle peerAddr
  | _ => state.peerAddr

def step (state : ReportState) (input : CentralInput) : ReportState where
  toLinkState := state.toLinkState.step input
  reports := state.reportsAfter input
  peerAddr := state.peerAddrAfter input

/-- A peripheral has reported a value handle for a characteristic of a registered service. -/
def Reported (state : ReportState) (connHandle : UInt16) (info : RemoteCharacteristicInfo)
    (handle : UInt16) : Prop :=
  ∃ report ∈ (state.reports connHandle).chars,
    (info.service, report.1) ∈ registered state.central.remoteServiceInfo ∧
      report.2.uuid = info.uuid ∧ report.2.handleValue = handle

end ReportState

/-- The link an event of the GATT client is from. -/
def CentralInput.clientLink : CentralInput → Option UInt16
  | .event ⟨connHandle, .primSrvcDiscRsp _ _ _⟩ | .event ⟨connHandle, .charDiscRsp _ _⟩
  | .event ⟨connHandle, .readRsp _ _ _⟩ | .event ⟨connHandle, .writeRsp _⟩
  | .event ⟨connHandle, .hvx _ _ _⟩ => some connHandle
  | _ => none

/-- What the stack does. -/
structure ReportState.Expected (state : ReportState) (input : CentralInput) : Prop where
  links : state.toLinkState.Legal input
  client : ∀ connHandle ∈ input.clientLink, connHandle ∈ state.live

/-- What the stack does, with at most the allowed number of links. -/
structure ReportState.Legal (state : ReportState) (input : CentralInput) : Prop
    extends state.Expected input where
  room : state.toLinkState.HasRoom input

/-! ### What may be sent -/

/-- The characteristic a call asks for, and the distance of the attribute from its value. -/
def CentralInput.asks : CentralInput → Option (Nat × UInt16)
  | .readRemoteCharacteristic characteristic _ | .writeRemoteCharacteristic characteristic _ _ =>
      some (characteristic, 0)
  | .subscribeRemoteCharacteristic characteristic _
  | .unsubcribeRemoteCharacteristic characteristic _ => some (characteristic, 1)
  | _ => none

/-- The attribute a transfer is about. -/
def StackCall.attHandle : StackCall → UInt16
  | .gattsHvx _ handle _ | .gattcRead _ handle | .gattcWrite _ _ handle _ => handle
  | _ => 0

/-- The scans of a range among some outputs. -/
def scans (outputs : List (Output CentralNotice)) : List (UInt16 × HandleRange) :=
  outputs.filterMap fun
    | .call (.gattcCharacteristicsDiscover connHandle handleRange) => some (connHandle, handleRange)
    | _ => none

/-- **What a step may send.** A request goes to a link that is up, whose peripheral has reported the
characteristic, for the value handle it has reported or the handle behind it; a scan is of a range the
peripheral has reported. -/
structure RequestsRight (state : ReportState) (input : CentralInput) : Prop where
  requests : ∀ characteristic distance, input.asks = some (characteristic, distance) →
    ∀ call ∈ transfers (state.central.step input).2, call.transferHandle ∈ state.live ∧
      ∃ info ∈ state.central.remoteCharacteristicInfo, info.characteristic = characteristic ∧
        ∃ handle, state.Reported call.transferHandle info.toRemoteCharacteristicInfo handle ∧
          call.attHandle = handle + distance
  scanned : ∀ scan ∈ scans (state.central.step input).2,
    ((state.step input).reports scan.1).HasRange scan.2

instance (state : ReportState) (connHandle : UInt16) (info : RemoteCharacteristicInfo)
    (handle : UInt16) : Decidable (state.Reported connHandle info handle) :=
  inferInstanceAs (Decidable (∃ report ∈ _, _))

instance (state : ReportState) (input : CentralInput) : Decidable (state.Expected input) :=
  have : Decidable (∀ connHandle ∈ input.clientLink, connHandle ∈ state.live) :=
    Option.decidableForallMem _
  decidable_of_iff (state.toLinkState.Legal input ∧
      ∀ connHandle ∈ input.clientLink, connHandle ∈ state.live)
    ⟨fun ⟨links, client⟩ => ⟨links, client⟩, fun ⟨links, client⟩ => ⟨links, client⟩⟩

instance (state : ReportState) (input : CentralInput) : Decidable (state.Legal input) :=
  decidable_of_iff (state.Expected input ∧ state.toLinkState.HasRoom input)
    ⟨fun ⟨expected, room⟩ => ⟨expected, room⟩, fun legal => ⟨legal.toExpected, legal.room⟩⟩

/-- The service that is scanned. -/
def ReportState.scannedService (state : ReportState) : Option RemoteServiceInfo :=
  state.central.remoteServiceInfo[state.central.remoteServiceDiscoveryIndex]?

/-! ### What a step leaves of the tables -/

/-- What is registered stays as it is. -/
theorem step_registered (central : CentralRole) (input : CentralInput) :
    registered (central.step input).1.remoteServiceInfo = registered central.remoteServiceInfo := by
  cases noLink : input.isLinkEvent with
  | true =>
    match input, noLink with
    | .event ⟨_, .connected _ _⟩, _ => rfl
    | .event ⟨_, .disconnected _⟩, _ => exact registered_clear _
  | false =>
    cases discovery : input.isDiscovery with
    | false => rw [(step_tables central noLink discovery).remoteServiceInfo]
    | true =>
      match input, discovery with
      | .event ⟨_, .primSrvcDiscRsp _ services last⟩, _ =>
        simp only [CentralRole.step, CentralRole.poll, CentralRole.onServices]
        split_ifs
        · exact registered_storeServices _ _
        · split <;> rfl
        · rfl
      | .event ⟨connHandle, .charDiscRsp gattStatus chars⟩, _ =>
        obtain ⟨_, _, after⟩ := central.onChars_changes connHandle gattStatus chars
        simp only [CentralRole.step, CentralRole.poll, after]

theorem onServices_characteristics (central : CentralRole) (connHandle gattStatus : UInt16)
    (services : List FoundService) (last : FoundService) :
    (central.onServices connHandle gattStatus services last).1.remoteCharacteristicInfo =
      central.remoteCharacteristicInfo := by
  obtain ⟨_, _, after⟩ := central.onServices_changes connHandle gattStatus services last
  rw [after]

theorem onChars_characteristics (central : CentralRole) (connHandle : UInt16) {gattStatus : UInt16}
    (chars : List FoundChar) (failed : gattStatus ≠ statusSuccess) :
    (central.onChars connHandle gattStatus chars).1.remoteCharacteristicInfo =
      central.remoteCharacteristicInfo := by
  unfold CentralRole.onChars
  rw [if_neg failed]
  split_ifs
  · split <;> rfl
  · rfl

/-- A response to the discovery of services that is no success changes nothing, or starts the scan of the
first service with a range. -/
theorem CentralRole.onServices_failed (central : CentralRole) (connHandle : UInt16)
    {gattStatus : UInt16} (services : List FoundService) (last : FoundService)
    (failed : gattStatus ≠ statusSuccess) :
    (∃ outputs, central.onServices connHandle gattStatus services last = (central, outputs) ∧
        scans outputs = []) ∨
      (gattStatus = statusInvalidHandle ∧ ∃ index, nextFound central.remoteServiceInfo 0 = some index ∧
        central.onServices connHandle gattStatus services last =
          ({ central with remoteServiceDiscoveryIndex := index },
            [.call (.gattcCharacteristicsDiscover (central.handleAt (central.slot connHandle))
              ((central.remoteServiceInfo[index]?.map RemoteServiceInfo.handlesRange).getD .zero))])) := by
  unfold CentralRole.onServices
  rw [if_neg failed]
  split_ifs with invalid
  · cases next : nextFound central.remoteServiceInfo 0 with
    | some index => exact .inr ⟨invalid, index, rfl, rfl⟩
    | none => exact .inl ⟨_, rfl, rfl⟩
  · exact .inl ⟨_, rfl, rfl⟩

/-- One to the discovery of characteristics changes nothing, or starts the scan of the next service with a
range. -/
theorem CentralRole.onChars_failed (central : CentralRole) (connHandle : UInt16)
    {gattStatus : UInt16} (chars : List FoundChar) (failed : gattStatus ≠ statusSuccess) :
    (∃ outputs, central.onChars connHandle gattStatus chars = (central, outputs) ∧
        scans outputs = []) ∨
      (gattStatus = statusAttributeNotFound ∧ ∃ index,
        nextFound central.remoteServiceInfo (central.remoteServiceDiscoveryIndex + 1) = some index ∧
        central.onChars connHandle gattStatus chars =
          ({ central with remoteServiceDiscoveryIndex := index },
            [.call (.gattcCharacteristicsDiscover (central.handleAt (central.slot connHandle))
              ((central.remoteServiceInfo[index]?.map RemoteServiceInfo.handlesRange).getD .zero))])) := by
  unfold CentralRole.onChars
  rw [if_neg failed]
  split_ifs with notFound
  · cases next : nextFound central.remoteServiceInfo (central.remoteServiceDiscoveryIndex + 1) with
    | some index => exact .inr ⟨notFound, index, rfl, rfl⟩
    | none => exact .inl ⟨_, rfl, rfl⟩
  · exact .inl ⟨_, rfl, rfl⟩

/-- **What a response stores for a characteristic**: nothing, or the value handle and the properties of
one of the characteristics found, and the flag of the slot. -/
theorem storeChars_cases (service : Option Nat) (slot : Nat) (chars : List FoundChar)
    (info : CentralCharacteristicInfo) :
    ((∀ found ∈ chars, ¬ info.isFound service found) ∧
        chars.foldl (CentralRole.storeChar service slot) info = info) ∨
      ∃ found ∈ chars, info.isFound service found ∧
        chars.foldl (CentralRole.storeChar service slot) info =
          { info with
            properties := found.charProps
            valueHandle := found.handleValue
            connectionIndex := Function.update info.connectionIndex slot true } := by
  induction chars generalizing info with
  | nil => exact .inl ⟨fun _ member => absurd member List.not_mem_nil, rfl⟩
  | cons first rest ih =>
    rw [List.foldl_cons]
    by_cases isFirst : info.isFound service first
    · have stored : CentralRole.storeChar service slot info first = { info with
          properties := first.charProps
          valueHandle := first.handleValue
          connectionIndex := Function.update info.connectionIndex slot true } := if_pos isFirst
      rw [stored]
      rcases ih { info with
          properties := first.charProps
          valueHandle := first.handleValue
          connectionIndex := Function.update info.connectionIndex slot true } with
        ⟨_, same⟩ | ⟨found, member, isFound, result⟩
      · exact .inr ⟨first, List.mem_cons_self .., isFirst, same⟩
      · refine .inr ⟨found, List.mem_cons_of_mem _ member, isFound, ?_⟩
        rw [result, Function.update_idem]
    · rw [show CentralRole.storeChar service slot info first = info from if_neg isFirst]
      rcases ih info with ⟨none, same⟩ | ⟨found, member, isFound, result⟩
      · exact .inl ⟨List.forall_mem_cons.mpr ⟨isFirst, none⟩, same⟩
      · exact .inr ⟨found, List.mem_cons_of_mem _ member, isFound, result⟩

/-- A response does not change what is registered. -/
theorem storeChars_registered (service : Option Nat) (slot : Nat) (chars : List FoundChar)
    (info : CentralCharacteristicInfo) :
    (chars.foldl (CentralRole.storeChar service slot) info).characteristic = info.characteristic ∧
      (chars.foldl (CentralRole.storeChar service slot) info).service = info.service ∧
      (chars.foldl (CentralRole.storeChar service slot) info).uuid = info.uuid := by
  rcases storeChars_cases service slot chars info with ⟨_, same⟩ | ⟨_, _, _, stored⟩
  · rw [same]
    exact ⟨rfl, rfl, rfl⟩
  · rw [stored]
    exact ⟨rfl, rfl, rfl⟩

/-! ### Slots of the links that stay -/

/-- The slot of a link that is up holds its handle. -/
theorem handleAt_slot {state : LinkState} (tracks : Tracks state) {connHandle : UInt16}
    (up : connHandle ∈ state.live) :
    state.central.handleAt (state.central.slot connHandle) = connHandle :=
  tracks.holds.table_find up

/-- Two links that are up have two slots. -/
theorem slot_ne {state : LinkState} (tracks : Tracks state) {connHandle other : UInt16}
    (up : connHandle ∈ state.live) (otherUp : other ∈ state.live) (different : other ≠ connHandle) :
    state.central.slot other ≠ state.central.slot connHandle := by
  intro same
  apply different
  rw [← handleAt_slot tracks otherUp, same, handleAt_slot tracks up]

/-! ### Reports that are kept -/

/-- Reports are kept as long as the connection lasts. -/
theorem reported_kept {state : ReportState} {input : CentralInput} {connHandle handle : UInt16}
    {info : RemoteCharacteristicInfo}
    (goes : ∀ peerAddr count, input ≠ .event ⟨connHandle, .connected peerAddr count⟩)
    (reported : state.Reported connHandle info handle) :
    (state.step input).Reported connHandle info handle := by
  obtain ⟨report, member, service, same⟩ := reported
  refine ⟨report, ?_, ?_, same⟩
  · show report ∈ (state.reportsAfter input connHandle).chars
    unfold ReportState.reportsAfter
    split
    · rename_i other peerAddr count
      have different : connHandle ≠ other := by
        rintro rfl
        exact goes peerAddr count rfl
      rw [Function.update_of_ne different]
      exact member
    · split
      · rename_i other _ _ _ _
        by_cases here : connHandle = other
        · subst here
          rw [Function.update_self]
          exact member
        · rw [Function.update_of_ne here]
          exact member
      · exact member
    · split
      · rename_i other _ _ _
        by_cases here : connHandle = other
        · subst here
          rw [Function.update_self]
          exact List.mem_append_left _ member
        · rw [Function.update_of_ne here]
          exact member
      · exact member
    · exact member
  · show (info.service, report.1) ∈ registered (state.central.step input).1.remoteServiceInfo
    rw [step_registered]
    exact service

/-- So are the services a peripheral has reported. -/
theorem services_kept {state : ReportState} {input : CentralInput} {connHandle : UInt16}
    {service : FoundService}
    (goes : ∀ peerAddr count, input ≠ .event ⟨connHandle, .connected peerAddr count⟩)
    (reported : service ∈ (state.reports connHandle).services) :
    service ∈ ((state.step input).reports connHandle).services := by
  show service ∈ (state.reportsAfter input connHandle).services
  unfold ReportState.reportsAfter
  split
  · rename_i other peerAddr count
    have different : connHandle ≠ other := by
      rintro rfl
      exact goes peerAddr count rfl
    rw [Function.update_of_ne different]
    exact reported
  · split
    · rename_i other _ _ _ _
      by_cases here : connHandle = other
      · subst here
        rw [Function.update_self]
        exact List.mem_append_left _ reported
      · rw [Function.update_of_ne here]
        exact reported
    · exact reported
  · split
    · rename_i other _ _ _
      by_cases here : connHandle = other
      · subst here
        rw [Function.update_self]
        exact reported
      · rw [Function.update_of_ne here]
        exact reported
    · exact reported
  · exact reported

/-- A characteristic in the range of a reported service is reported for it. -/
theorem mem_addChars {reports : LinkReports} {service : FoundService}
    (reported : service ∈ reports.services) {chars : List FoundChar} {found : FoundChar}
    (member : found ∈ chars) (inside : service.handleRange.has found.handleValue) :
    (service.uuid, found) ∈ (reports.addChars chars).chars := by
  apply List.mem_append_right
  rw [List.mem_flatMap]
  refine ⟨found, member, ?_⟩
  rw [LinkReports.inServices, List.mem_map]
  exact ⟨service, List.mem_filter.mpr ⟨reported, inside⟩, rfl⟩

/-! ### What is sent -/

theorem scans_append (first second : List (Output CentralNotice)) :
    scans (first ++ second) = scans first ++ scans second := List.filterMap_append ..

theorem scans_transfers {calls : List StackCall} (all : ∀ call ∈ calls, call.isTransfer) :
    scans (calls.map fun call => (Output.call call : Output CentralNotice)) = [] := by
  rw [scans, List.filterMap_eq_nil_iff]
  intro output member
  obtain ⟨call, inside, rfl⟩ := List.mem_map.mp member
  have transfer := all call inside
  cases call <;> first | rfl | cases transfer

theorem scans_notices (notices : List CentralNotice) :
    scans (notices.map .notice : List (Output CentralNotice)) = [] := by
  rw [scans, List.filterMap_map, List.filterMap_eq_nil_iff]
  exact fun _ _ => rfl

theorem sendValue_scans (central : CentralRole) (subscribed : Bool) (handle : UInt16)
    (type : HvxType) : scans (central.sendValue subscribed handle type).2.1 = [] := by
  unfold CentralRole.sendValue
  split_ifs
  · rw [scans, List.filterMap_eq_nil_iff]
    intro output member
    obtain ⟨slot, _, rfl⟩ := List.mem_map.mp member
    rfl
  · rfl
  · rfl

theorem updateEntries_scans (central : CentralRole) (characteristic : LocalCharacteristic)
    (infos : List LocalCharacteristicInfo) :
    scans (central.updateEntries characteristic infos).2.1 = [] := by
  induction infos generalizing central with
  | nil => rfl
  | cons info rest ih =>
    simp only [CentralRole.updateEntries]
    split_ifs
    · show scans (_ ++ _ ++ _) = []
      rw [scans_append, scans_append, sendValue_scans, sendValue_scans, ih]
      rfl
    · exact ih central

/-- What a request sends: the call, to each target. -/
theorem request_transfers (central : CentralRole) (characteristic : Nat)
    (allowed : CentralCharacteristicInfo → Bool)
    (call : CentralCharacteristicInfo → UInt16 → StackCall) (codes : Nat → UInt32)
    (transfer : ∀ info connHandle, (call info connHandle).isTransfer) :
    scans (central.request characteristic allowed call codes).2.1 = [] ∧
      ∀ made ∈ transfers (central.request characteristic allowed call codes).2.1,
        ∃ info, central.remoteInfo characteristic = some info ∧ info.valueHandle ≠ 0 ∧ allowed info ∧
          ∃ connHandle ∈ central.targets info, made = call info connHandle := by
  by_cases sends : ∃ info, central.remoteInfo characteristic = some info ∧
      (info.valueHandle ≠ 0 ∧ allowed info)
  · obtain ⟨info, found, allows⟩ := sends
    have scanned := scans_transfers (targets_transfer transfer : ∀ made ∈
      (central.targets info).map (call info), made.isTransfer)
    rw [List.map_map] at scanned
    refine ⟨?_, fun made member => ?_⟩
    · rw [request_made codes found allows]
      exact scanned
    · rw [request_sends codes transfer found allows] at member
      obtain ⟨connHandle, target, rfl⟩ := List.mem_map.mp member
      exact ⟨info, found, allows.1, allows.2, connHandle, target, rfl⟩
  · rw [request_idle codes sends]
    exact ⟨rfl, fun _ member => absurd member List.not_mem_nil⟩

/-- **Only discovery scans.** -/
theorem step_scans (central : CentralRole) {input : CentralInput}
    (noDiscovery : input.isDiscovery = false) : scans (central.step input).2 = [] := by
  cases input with
  | event event =>
    obtain ⟨connHandle, params⟩ := event
    cases params with
    | advReport report => rfl
    | txComplete count => rfl
    | connected peerAddr txPacketCount =>
      simp only [CentralRole.step, CentralRole.poll, CentralRole.onConnected]
      split_ifs <;> rfl
    | disconnected reason => rfl
    | gattsWrite handle data =>
      obtain ⟨_, _, notices, after⟩ := central.writeLocal_changes
        (central.nodeAt (central.slot connHandle)) handle data [] central.localCharacteristicInfo
      simp only [CentralRole.step, CentralRole.poll, after]
      exact scans_notices notices
    | sysAttrMissing =>
      simp only [CentralRole.step, CentralRole.poll, CentralRole.onSysAttrMissing]
      rw [scans, List.filterMap_eq_nil_iff]
      intro output member
      obtain ⟨slot, _, rfl⟩ := List.mem_map.mp member
      rfl
    | primSrvcDiscRsp gattStatus services last => cases noDiscovery
    | charDiscRsp gattStatus chars => cases noDiscovery
    | readRsp gattStatus handle data =>
      obtain ⟨_, notices, stored⟩ := CentralRole.storeRemoteValue_changes
        { central with remoteRequestInProgress := false } connHandle handle data
      simp only [CentralRole.step, CentralRole.poll, CentralRole.onReadRsp, CentralRole.authenticate,
        stored]
      split_ifs
      · rfl
      · rfl
      · exact scans_notices notices
      · rfl
    | writeRsp gattStatus =>
      simp only [CentralRole.step, CentralRole.poll, CentralRole.onWriteRsp, CentralRole.authenticate]
      split_ifs <;> rfl
    | hvx type handle data =>
      obtain ⟨_, notices, stored⟩ := central.storeRemoteValue_changes connHandle handle data
      simp only [CentralRole.step, CentralRole.poll, CentralRole.onHvx, stored, scans_append,
        scans_notices]
      split_ifs <;> rfl
  | updateCharacteristicValue characteristic codes => exact updateEntries_scans central _ _
  | readRemoteCharacteristic characteristic codes =>
    exact (request_transfers central _ _ _ _ fun _ _ => rfl).1
  | writeRemoteCharacteristic characteristic value codes =>
    exact (request_transfers central _ _ _ _ fun _ _ => rfl).1
  | subscribeRemoteCharacteristic characteristic codes =>
    exact (request_transfers central _ _ _ _ fun _ _ => rfl).1
  | unsubcribeRemoteCharacteristic characteristic codes =>
    exact (request_transfers central _ _ _ _ fun _ _ => rfl).1

/-- A central role that knows of one remote service and one characteristic of it. -/
def oneRemoteCentral : CentralRole :=
  { emptyCentral with
    remoteServiceInfo := [⟨1, ⟨0x180F, 1⟩, .zero⟩]
    remoteCharacteristicInfo := [⟨⟨1, 1, ⟨0x2A19, 1⟩, .none, 0⟩, fun _ => false⟩] }

/-- A peripheral is discovered: it has the service, and the characteristic at a value handle. -/
def discoveryOf (connHandle value : UInt16) : List CentralInput :=
  [.event ⟨connHandle, .primSrvcDiscRsp statusSuccess [] ⟨⟨0x180F, 1⟩, ⟨1, 0xFFFF⟩⟩⟩,
    .event ⟨connHandle, .primSrvcDiscRsp statusInvalidHandle [] ⟨⟨0x180F, 1⟩, ⟨1, 0xFFFF⟩⟩⟩,
    .event ⟨connHandle, .charDiscRsp statusSuccess
      [⟨⟨0x2A19, 1⟩, ⟨true, false, false, true, false⟩, value - 1, value⟩]⟩,
    .event ⟨connHandle, .charDiscRsp statusAttributeNotFound []⟩]

end PrimoCore.Ble
