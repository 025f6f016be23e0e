/-
**Discovery in the peripheral role.**

From a connection on, the device asks the peer for its services until the peer answers that a start handle
is invalid, then for the characteristics of each registered service it has found, one after the other,
until the peer answers that there are none left. The peer may answer with any part of what there is.

* `Registration` — a device with what is registered, before a connection.
* `Exchange` — one answer of the peer, and what the device asks next.
* `Phase` — **the ranked invariant**: where a discovery stands, and how long it can still take.
* `discovery_terminates` — every discovery ends.
* `discovery_completes_iff` — **it ends with the program told once and every characteristic filled in,
  exactly when** the peer has a registered service and its last service ends at the last handle.
-/

import Mathlib.Data.List.Induction
import Mathlib.Data.List.Nodup
import PrimoCore.Lib.Terminates
import PrimoCore.Ble.Device
import PrimoCore.Ble.PeerDatabase

namespace PrimoCore.Ble

open PrimoCore.Lib

/-- **A device before a connection**: what is registered has distinct UUIDs, and nothing of it has been
discovered. -/
structure Registration where
  device : Nrf51822
  distinctUuids : (device.remoteServiceInfo.map RemoteServiceInfo.uuid).Nodup
  distinctServices : (device.remoteServiceInfo.map RemoteServiceInfo.service).Nodup
  clearServices : ∀ info ∈ device.remoteServiceInfo, info.handlesRange = .zero
  clearChars : ∀ info ∈ device.remoteCharacteristicInfo,
    info.properties = .none ∧ info.valueHandle = 0

/-! ### The exchange with the peer -/

/-- The request among some outputs. -/
def requestOf (outputs : List (Output Notice)) : Option Request :=
  outputs.findSome? fun
    | .call (.gattcPrimaryServicesDiscover _ startHandle) => some (.services startHandle)
    | .call (.gattcCharacteristicsDiscover _ handleRange) => some (.characteristics handleRange)
    | _ => none

/-- How often the program is told that the services have been discovered. -/
def toldDiscovered (outputs : List (Output Notice)) : Nat :=
  outputs.countP (· = .notice .remoteServicesDiscovered)

/-- The device, the request that is outstanding, and how often the program has been told that the
services have been discovered. -/
structure DiscoveryState where
  device : Nrf51822
  request : Option Request
  discovered : Nat

namespace DiscoveryState

/-- The device handles an event. -/
def receive (state : DiscoveryState) (event : StackEvent) : DiscoveryState where
  device := (state.device.poll event).1
  request := requestOf (state.device.poll event).2
  discovered := state.discovered + toldDiscovered (state.device.poll event).2

/-- The state after the connection. -/
def connected (device : Nrf51822) (connHandle : UInt16) (peerAddr : Vector UInt8 6)
    (txPacketCount : UInt8) : DiscoveryState :=
  receive ⟨device, none, 0⟩ ⟨connHandle, .connected peerAddr txPacketCount⟩

end DiscoveryState

/-- **One exchange**: the peer answers the outstanding request, and the device handles the answer. -/
inductive Exchange (db : PeerDatabase) : DiscoveryState → DiscoveryState → Prop
  | answer {state : DiscoveryState} {request : Request} {params : EventParams} (connHandle : UInt16)
      (asked : state.request = some request) (answers : Answers db request params) :
      Exchange db state (state.receive ⟨connHandle, params⟩)

/-! ### What discovery is to find -/

/-- The characteristic of the peer for a registered one: the last one with its UUID in the service with
the UUID of its registered service. -/
def PeerDatabase.charFor (db : PeerDatabase) (services : List RemoteServiceInfo)
    (info : RemoteCharacteristicInfo) : Option FoundChar :=
  (services.find? fun entry => entry.service = info.service).bind fun entry =>
    (db.charsOf entry.uuid).reverse.find? fun found => found.uuid = info.uuid

/-- A registered characteristic, filled in with one of the peer, or clear. -/
def RemoteCharacteristicInfo.filledWith (info : RemoteCharacteristicInfo) :
    Option FoundChar → RemoteCharacteristicInfo
  | some found => { info with properties := found.charProps, valueHandle := found.handleValue }
  | none => info.clear

/-- **A complete discovery**: the program has been told once, and every registered characteristic has the
properties and the value handle of the peer's, or none where the peer has none. -/
structure Complete (registration : Registration) (db : PeerDatabase) (final : DiscoveryState) :
    Prop where
  once : final.discovered = 1
  filled : final.device.remoteCharacteristicInfo =
    registration.device.remoteCharacteristicInfo.map fun info =>
      info.filledWith (db.charFor registration.device.remoteServiceInfo info)

/-- Discovery from a connection on ends, and is complete wherever no request is outstanding. -/
def Completes (registration : Registration) (db : PeerDatabase) (start : DiscoveryState) : Prop :=
  Terminates (Exchange db) start ∧
    ∀ final, Relation.ReflTransGen (Exchange db) start final → final.request = none →
      Complete registration db final

/-- The peer has a registered service, and its last service ends at the last handle. -/
def Discoverable (registration : Registration) (db : PeerDatabase) : Prop :=
  (∃ info ∈ registration.device.remoteServiceInfo, ∃ service ∈ db.services,
    service.uuid = info.uuid) ∧
  ∃ last ∈ db.services.getLast?, last.handleRange.endHandle = 0xFFFF

/-! ### The table of services -/

theorem uuids_storeService (found : FoundService) (infos : List RemoteServiceInfo) :
    (storeService found infos).map RemoteServiceInfo.uuid = infos.map RemoteServiceInfo.uuid := by
  have same := congrArg (List.map Prod.snd) (registered_storeService found infos)
  rw [registered, registered, List.map_map, List.map_map] at same
  exact same

/-- An entry after a service has been stored: it is of that service, or it was there before. -/
theorem mem_storeService {found : FoundService} {infos : List RemoteServiceInfo}
    (distinct : (infos.map RemoteServiceInfo.uuid).Nodup) {entry : RemoteServiceInfo}
    (member : entry ∈ storeService found infos) :
    (found.uuid = entry.uuid ∧ entry.handlesRange = found.handleRange) ∨
      (entry ∈ infos ∧ found.uuid ≠ entry.uuid) := by
  induction infos with
  | nil => cases member
  | cons info rest ih =>
    rw [List.map_cons, List.nodup_cons] at distinct
    simp only [storeService] at member
    split_ifs at member with same
    · rcases List.mem_cons.mp member with rfl | old
      · exact .inl ⟨same, rfl⟩
      · refine .inr ⟨List.mem_cons_of_mem _ old, fun again => distinct.1 ?_⟩
        rw [← same, again]
        exact List.mem_map_of_mem old
    · rcases List.mem_cons.mp member with rfl | old
      · exact .inr ⟨List.mem_cons_self .., same⟩
      · rcases ih distinct.2 old with stored | ⟨before, other⟩
        · exact .inl stored
        · exact .inr ⟨List.mem_cons_of_mem _ before, other⟩

/-- **An entry after a list of services**: it has the range of one with its UUID, or there is none and
it is as before. -/
theorem mem_storeServices {services : List FoundService} {infos : List RemoteServiceInfo}
    (distinct : (infos.map RemoteServiceInfo.uuid).Nodup) {entry : RemoteServiceInfo}
    (member : entry ∈ storeServices services infos) :
    (∃ found ∈ services, found.uuid = entry.uuid ∧ entry.handlesRange = found.handleRange) ∨
      (entry ∈ infos ∧ ∀ found ∈ services, found.uuid ≠ entry.uuid) := by
  induction services generalizing infos with
  | nil => exact .inr ⟨member, fun _ none => absurd none List.not_mem_nil⟩
  | cons found rest ih =>
    have again : ((storeService found infos).map RemoteServiceInfo.uuid).Nodup := by
      rw [uuids_storeService]
      exact distinct
    rcases ih again member with ⟨later, inRest, stored⟩ | ⟨before, none⟩
    · exact .inl ⟨later, List.mem_cons_of_mem _ inRest, stored⟩
    · rcases mem_storeService distinct before with stored | ⟨old, other⟩
      · exact .inl ⟨found, List.mem_cons_self .., stored⟩
      · exact .inr ⟨old, List.forall_mem_cons.mpr ⟨other, none⟩⟩

theorem storeServices_append (first second : List FoundService) (infos : List RemoteServiceInfo) :
    storeServices (first ++ second) infos = storeServices second (storeServices first infos) :=
  List.foldl_append ..

/-- **The next service to scan**: the first one behind whose range has been found. -/
theorem nextFound_cases (infos : List RemoteServiceInfo) (first : Nat) :
    (nextFound infos first = none ∧ ∀ info ∈ infos.drop first, info.found = false) ∨
      ∃ skipped entry after, infos.drop first = skipped ++ entry :: after ∧
        (∀ info ∈ skipped, info.found = false) ∧ entry.found = true ∧
        nextFound infos first = some (skipped.length + first) := by
  rw [nextFound]
  cases located : (infos.drop first).findIdx? RemoteServiceInfo.found with
  | none => exact .inl ⟨rfl, List.findIdx?_eq_none_iff.mp located⟩
  | some offset =>
    obtain ⟨inside, isFound, before⟩ := List.findIdx?_eq_some_iff_getElem.mp located
    refine .inr ⟨(infos.drop first).take offset, (infos.drop first)[offset],
      (infos.drop first).drop (offset + 1), ?_, ?_, isFound, ?_⟩
    · rw [List.getElem_cons_drop, List.take_append_drop]
    · intro info member
      obtain ⟨index, indexInside, rfl⟩ := List.mem_iff_getElem.mp member
      rw [List.length_take] at indexInside
      rw [List.getElem_take]
      simpa using before index (by omega)
    · rw [List.length_take, Nat.min_eq_left (Nat.le_of_lt inside)]
      rfl

section Table

variable (registration : Registration) (db : PeerDatabase)

/-- The table of services when all services of the peer have been reported. -/
def serviceTable : List RemoteServiceInfo :=
  storeServices (db.services.map PeerService.found) registration.device.remoteServiceInfo

/-- **An entry of the table** has the range of the peer's service with its UUID, or the peer has none. -/
theorem serviceTable_cases {entry : RemoteServiceInfo} (member : entry ∈ serviceTable registration db) :
    (entry.found = true ∧ ∃ service ∈ db.services, service.uuid = entry.uuid ∧
        entry.handlesRange = service.handleRange) ∨
      (entry.found = false ∧ ∀ service ∈ db.services, service.uuid ≠ entry.uuid) := by
  rcases mem_storeServices registration.distinctUuids member with
    ⟨found, foundIn, uuid, range⟩ | ⟨old, none⟩
  · obtain ⟨service, inside, rfl⟩ := List.mem_map.mp foundIn
    refine .inl ⟨?_, service, inside, uuid, range⟩
    obtain ⟨positive, valid⟩ := db.valid service inside
    rw [UInt16.lt_iff_toNat_lt] at positive
    rw [UInt16.le_iff_toNat_le] at valid
    rw [RemoteServiceInfo.found, range, decide_eq_true_eq]
    show service.handleRange.startHandle ≠ 0 ∧ service.handleRange.endHandle ≠ 0
    rw [← UInt16.toNat_inj.ne, ← UInt16.toNat_inj.ne]
    replace positive : 0 < service.handleRange.startHandle.toNat := positive
    show service.handleRange.startHandle.toNat ≠ 0 ∧ service.handleRange.endHandle.toNat ≠ 0
    omega
  · refine .inr ⟨?_, fun service inside => none service.found (List.mem_map_of_mem inside)⟩
    rw [RemoteServiceInfo.found, registration.clearServices entry old]
    rfl

/-- The characteristics of the entry's service of the peer. -/
theorem charsOf_eq {service : PeerService} (member : service ∈ db.services) :
    db.charsOf service.uuid = service.chars := by
  have some : (db.services.find? fun other => other.uuid = service.uuid).isSome := by
    rw [List.find?_isSome]
    exact ⟨service, member, decide_eq_true rfl⟩
  obtain ⟨first, found⟩ := Option.isSome_iff_exists.mp some
  have matched : first.uuid = service.uuid := by simpa using List.find?_some found
  have same : first = service :=
    List.inj_on_of_nodup_map db.distinct (List.mem_of_find?_eq_some found) member matched
  rw [PeerDatabase.charsOf, found, same]

theorem charsOf_eq_nil {uuid : Uuid} (none : ∀ service ∈ db.services, service.uuid ≠ uuid) :
    db.charsOf uuid = [] := by
  rw [PeerDatabase.charsOf, List.find?_eq_none.mpr]
  intro service member
  rw [decide_eq_true_eq]
  exact none service member

end Table

/-! ### Filling in characteristics -/

/-- What the responses store in a registered characteristic, when each reports a characteristic of a
registered service. -/
def storeAll (tags : List (Nat × FoundChar)) (info : RemoteCharacteristicInfo) :
    RemoteCharacteristicInfo :=
  tags.foldl (fun info tag => info.store (some tag.1) tag.2) info

/-- The characteristics the peer has in the services of some entries, in the order of discovery. -/
def PeerDatabase.tagged (db : PeerDatabase) (entries : List RemoteServiceInfo) :
    List (Nat × FoundChar) :=
  entries.flatMap fun entry => (db.charsOf entry.uuid).map (entry.service, ·)

theorem storeAll_append (first second : List (Nat × FoundChar)) (info : RemoteCharacteristicInfo) :
    storeAll (first ++ second) info = storeAll second (storeAll first info) :=
  List.foldl_append ..

/-- The loops of the response store the characteristics of the scanned service. -/
theorem map_storeAll (service : Nat) (chars : List FoundChar) (infos : List RemoteCharacteristicInfo) :
    chars.foldl (fun infos found => infos.map fun info => info.store (some service) found) infos =
      infos.map (storeAll (chars.map (service, ·))) := by
  induction chars generalizing infos with
  | nil => exact (List.map_id' infos).symm
  | cons found rest ih =>
    rw [List.foldl_cons, ih, List.map_map]
    rfl

@[simp] theorem store_service (info : RemoteCharacteristicInfo) (service : Option Nat)
    (found : FoundChar) : (info.store service found).service = info.service := by
  rw [RemoteCharacteristicInfo.store]
  split_ifs <;> rfl

@[simp] theorem storeAll_service (tags : List (Nat × FoundChar)) (info : RemoteCharacteristicInfo) :
    (storeAll tags info).service = info.service := by
  induction tags generalizing info with
  | nil => rfl
  | cons tag rest ih => exact (ih _).trans (store_service info _ _)

/-- Characteristics of other services change nothing. -/
theorem storeAll_others {tags : List (Nat × FoundChar)} {info : RemoteCharacteristicInfo}
    (others : ∀ tag ∈ tags, tag.1 ≠ info.service) : storeAll tags info = info := by
  induction tags with
  | nil => rfl
  | cons tag rest ih =>
    have other : ¬ info.isFound (some tag.1) tag.2 := fun found =>
      others tag (List.mem_cons_self ..) (Option.some.inj found.1)
    show storeAll rest (info.store (some tag.1) tag.2) = info
    rw [RemoteCharacteristicInfo.store, if_neg other]
    exact ih fun later member => others later (List.mem_cons_of_mem _ member)

/-- The characteristics of its own service fill it in with the last one that has its UUID. -/
theorem storeAll_own {info : RemoteCharacteristicInfo} (clear : info.clear = info)
    (chars : List FoundChar) : storeAll (chars.map (info.service, ·)) info =
      info.filledWith (chars.reverse.find? fun found => found.uuid = info.uuid) := by
  induction chars using List.reverseRecOn with
  | nil => exact clear.symm
  | append_singleton front last ih =>
    rw [List.map_append, storeAll_append, ih, List.reverse_append, List.reverse_singleton,
      List.singleton_append, List.find?_cons]
    show RemoteCharacteristicInfo.store _ (some info.service) last = _
    have same : ∀ found, (info.filledWith found).service = info.service ∧
        (info.filledWith found).uuid = info.uuid := fun found => by cases found <;> exact ⟨rfl, rfl⟩
    rw [RemoteCharacteristicInfo.store]
    by_cases isLast : last.uuid = info.uuid
    · rw [if_pos ⟨congrArg some (same _).1.symm, isLast.trans (same _).2.symm⟩, decide_eq_true isLast]
      cases front.reverse.find? _ <;> rfl
    · rw [if_neg fun found => isLast (found.2.trans (same _).2), decide_eq_false isLast]

/-- **What discovery stores** in a clear characteristic, when the services of the entries are distinct. -/
theorem storeAll_tagged (db : PeerDatabase) {info : RemoteCharacteristicInfo}
    (clear : info.clear = info) {entries : List RemoteServiceInfo}
    (distinct : (entries.map RemoteServiceInfo.service).Nodup) :
    storeAll (db.tagged entries) info = info.filledWith (db.charFor entries info) := by
  induction entries with
  | nil => exact clear.symm
  | cons entry rest ih =>
    rw [List.map_cons, List.nodup_cons] at distinct
    show storeAll (_ ++ db.tagged rest) info = _
    rw [storeAll_append, PeerDatabase.charFor, List.find?_cons]
    by_cases own : entry.service = info.service
    · have others : ∀ tag ∈ db.tagged rest, tag.1 ≠ info.service := by
        intro tag member
        obtain ⟨other, inRest, member⟩ := List.mem_flatMap.mp member
        obtain ⟨found, _, rfl⟩ := List.mem_map.mp member
        rw [← own]
        exact fun again => distinct.1 (again ▸ List.mem_map_of_mem inRest)
      rw [storeAll_others (by rwa [storeAll_service]), decide_eq_true own]
      show storeAll ((db.charsOf entry.uuid).map (entry.service, ·)) info = _
      rw [own, storeAll_own clear]
      rfl
    · have others : ∀ tag ∈ (db.charsOf entry.uuid).map (entry.service, ·), tag.1 ≠ info.service := by
        intro tag member
        obtain ⟨found, _, rfl⟩ := List.mem_map.mp member
        exact own
      rw [storeAll_others others, ih distinct.2, decide_eq_false own]
      rfl

/-! ### What the device does with an answer -/

section Handled

variable {device : Nrf51822}

theorem receive_eq {event : StackEvent} {handled : Nrf51822} {outputs : List (Output Notice)}
    (polled : device.poll event = (handled, outputs)) (request : Option Request) (told : Nat) :
    DiscoveryState.receive ⟨device, request, told⟩ event =
      ⟨handled, requestOf outputs, told + toldDiscovered outputs⟩ := by
  rw [DiscoveryState.receive, polled]

theorem poll_services_next {index : Nat} (next : nextFound device.remoteServiceInfo 0 = some index)
    (connHandle : UInt16) (services : List FoundService) (last : FoundService) :
    device.poll ⟨connHandle, .primSrvcDiscRsp statusInvalidHandle services last⟩ =
      ({ device with remoteServiceDiscoveryIndex := index },
        [.call (.gattcCharacteristicsDiscover device.connectionHandle
          ((device.remoteServiceInfo[index]?.map RemoteServiceInfo.handlesRange).getD .zero))]) := by
  show device.onServices statusInvalidHandle services last = _
  rw [Nrf51822.onServices, if_neg (by decide), if_pos rfl, next]

theorem poll_services_done (none : nextFound device.remoteServiceInfo 0 = none) (connHandle : UInt16)
    (services : List FoundService) (last : FoundService) :
    device.poll ⟨connHandle, .primSrvcDiscRsp statusInvalidHandle services last⟩ = (device, []) := by
  show device.onServices statusInvalidHandle services last = _
  rw [Nrf51822.onServices, if_neg (by decide), if_pos rfl, none]

theorem poll_chars_next {index : Nat}
    (next : nextFound device.remoteServiceInfo (device.remoteServiceDiscoveryIndex + 1) = some index)
    (connHandle : UInt16) (chars : List FoundChar) :
    device.poll ⟨connHandle, .charDiscRsp statusAttributeNotFound chars⟩ =
      ({ device with remoteServiceDiscoveryIndex := index },
        [.call (.gattcCharacteristicsDiscover device.connectionHandle
          ((device.remoteServiceInfo[index]?.map RemoteServiceInfo.handlesRange).getD .zero))]) := by
  show device.onChars statusAttributeNotFound chars = _
  rw [Nrf51822.onChars, if_neg (by decide), if_pos rfl, next]

theorem poll_chars_done
    (none : nextFound device.remoteServiceInfo (device.remoteServiceDiscoveryIndex + 1) = none)
    (connHandle : UInt16) (chars : List FoundChar) :
    device.poll ⟨connHandle, .charDiscRsp statusAttributeNotFound chars⟩ =
      (device, [.notice .remoteServicesDiscovered]) := by
  show device.onChars statusAttributeNotFound chars = _
  rw [Nrf51822.onChars, if_neg (by decide), if_pos rfl, none]

theorem poll_chars {entry : RemoteServiceInfo}
    (scanned : device.remoteServiceInfo[device.remoteServiceDiscoveryIndex]? = some entry)
    (connHandle : UInt16) (chars : List FoundChar) :
    device.poll ⟨connHandle, .charDiscRsp statusSuccess chars⟩ =
      ({ device with remoteCharacteristicInfo :=
          device.remoteCharacteristicInfo.map (storeAll (chars.map (entry.service, ·))) },
        [.call (.gattcCharacteristicsDiscover device.connectionHandle
          (continueRange entry.handlesRange chars))]) := by
  show device.onChars statusSuccess chars = _
  rw [Nrf51822.onChars, if_pos rfl, scanned, ← map_storeAll]
  rfl

end Handled

/-! ### The ranked invariant -/

/-- What scanning some entries can take: an answer for each characteristic, and one more. -/
def PeerDatabase.budget (db : PeerDatabase) : List RemoteServiceInfo → Nat
  | [] => 0
  | entry :: rest => (db.charsOf entry.uuid).length + 1 + db.budget rest

theorem budget_append (db : PeerDatabase) (first second : List RemoteServiceInfo) :
    db.budget (first ++ second) = db.budget first + db.budget second := by
  induction first with
  | nil => exact (Nat.zero_add _).symm
  | cons entry rest ih =>
    rw [List.cons_append, PeerDatabase.budget, ih, ← Nat.add_assoc]
    rfl

theorem tagged_append (db : PeerDatabase) (first second : List RemoteServiceInfo) :
    db.tagged (first ++ second) = db.tagged first ++ db.tagged second :=
  List.flatMap_append ..

section Discovery

variable (registration : Registration) (db : PeerDatabase)

/-- **The ranked invariant**: how a discovery stands, and how many answers it can still take. -/
inductive Phase : DiscoveryState → Nat → Prop
  /-- Services are listed: those `done` have been stored, the `rest` is left. -/
  | listing {device done rest} (split : db.services = done ++ rest)
      (table : device.remoteServiceInfo =
        storeServices (done.map PeerService.found) registration.device.remoteServiceInfo)
      (untouched : device.remoteCharacteristicInfo = registration.device.remoteCharacteristicInfo) :
      Phase ⟨device, some (.services (nextStart done)), 0⟩
        (rest.length + 1 + db.budget (serviceTable registration db))
  /-- The service of an entry is scanned: its characteristics `done` and those of the entries before
  have been stored. -/
  | scanning {device before entry after service done rest}
      (discoverable : Discoverable registration db)
      (table : device.remoteServiceInfo = serviceTable registration db)
      (whole : serviceTable registration db = before ++ entry :: after)
      (index : device.remoteServiceDiscoveryIndex = before.length)
      (peer : service ∈ db.services) (uuid : service.uuid = entry.uuid)
      (range : entry.handlesRange = service.handleRange) (split : service.chars = done ++ rest)
      (stored : device.remoteCharacteristicInfo = registration.device.remoteCharacteristicInfo.map
        (storeAll (db.tagged before ++ done.map (entry.service, ·)))) :
      Phase ⟨device, some (.characteristics ⟨nextDecl service done, service.handleRange.endHandle⟩), 0⟩
        (rest.length + 1 + db.budget after)
  | finished {device} (discoverable : Discoverable registration db)
      (stored : device.remoteCharacteristicInfo = registration.device.remoteCharacteristicInfo.map
        (storeAll (db.tagged (serviceTable registration db)))) :
      Phase ⟨device, none, 1⟩ 0
  | failed {device} (hidden : ¬ Discoverable registration db) : Phase ⟨device, none, 0⟩ 0

variable {registration db}

theorem uuids_serviceTable (registration : Registration) (db : PeerDatabase) :
    (serviceTable registration db).map RemoteServiceInfo.uuid =
      registration.device.remoteServiceInfo.map RemoteServiceInfo.uuid := by
  have same := congrArg (List.map Prod.snd)
    (registered_storeServices (db.services.map PeerService.found) registration.device.remoteServiceInfo)
  rw [registered, registered, List.map_map, List.map_map] at same
  exact same

/-- A found entry is one of a registered service the peer has. -/
theorem exists_registered {entry : RemoteServiceInfo} (member : entry ∈ serviceTable registration db)
    (found : entry.found = true) : ∃ info ∈ registration.device.remoteServiceInfo,
      ∃ service ∈ db.services, service.uuid = info.uuid := by
  rcases serviceTable_cases registration db member with ⟨_, service, inside, uuid, _⟩ | ⟨unfound, _⟩
  · have listed := List.mem_map_of_mem (f := RemoteServiceInfo.uuid) member
    rw [uuids_serviceTable] at listed
    obtain ⟨info, isRegistered, same⟩ := List.mem_map.mp listed
    exact ⟨info, isRegistered, service, inside, uuid.trans same.symm⟩
  · rw [unfound] at found
    cases found

/-- Where no entry is found, the peer has no registered service. -/
theorem not_registered (unfound : ∀ entry ∈ serviceTable registration db, entry.found = false) :
    ¬ ∃ info ∈ registration.device.remoteServiceInfo,
      ∃ service ∈ db.services, service.uuid = info.uuid := by
  rintro ⟨info, isRegistered, service, inside, uuid⟩
  have listed := List.mem_map_of_mem (f := RemoteServiceInfo.uuid) isRegistered
  rw [← uuids_serviceTable registration db] at listed
  obtain ⟨entry, member, same⟩ := List.mem_map.mp listed
  rcases serviceTable_cases registration db member with ⟨found, _⟩ | ⟨_, none⟩
  · rw [unfound entry member] at found
    cases found
  · exact none service inside (uuid.trans same.symm)

/-- Entries that are not found have no characteristics. -/
theorem tagged_eq_nil {entries : List RemoteServiceInfo}
    (among : ∀ entry ∈ entries, entry ∈ serviceTable registration db)
    (unfound : ∀ entry ∈ entries, entry.found = false) : db.tagged entries = [] := by
  rw [PeerDatabase.tagged, List.flatMap_eq_nil_iff]
  intro entry member
  rcases serviceTable_cases registration db (among entry member) with ⟨found, _⟩ | ⟨_, none⟩
  · rw [unfound entry member] at found
    cases found
  · rw [charsOf_eq_nil db none]
    rfl

/-- **The next scan.** When what the entries before have is stored, either none of the others is found,
or the request for the characteristics of the first found one begins a scan. -/
theorem scan_next {device : Nrf51822} {before after : List RemoteServiceInfo}
    (table : device.remoteServiceInfo = serviceTable registration db)
    (whole : serviceTable registration db = before ++ after)
    (stored : device.remoteCharacteristicInfo = registration.device.remoteCharacteristicInfo.map
      (storeAll (db.tagged before))) :
    (nextFound device.remoteServiceInfo before.length = none ∧ db.tagged after = [] ∧
      ∀ entry ∈ after, entry.found = false) ∨
    ∃ index, nextFound device.remoteServiceInfo before.length = some index ∧
      (∃ entry ∈ serviceTable registration db, entry.found = true) ∧
      (Discoverable registration db → ∃ lower ≤ db.budget after, Phase registration db
        ⟨{ device with remoteServiceDiscoveryIndex := index }, some (.characteristics
          ((device.remoteServiceInfo[index]?.map RemoteServiceInfo.handlesRange).getD .zero)), 0⟩
        lower) := by
  have left : device.remoteServiceInfo.drop before.length = after := by
    rw [table, whole, List.drop_left]
  have among : ∀ entry ∈ after, entry ∈ serviceTable registration db := fun entry member => by
    rw [whole]
    exact List.mem_append_right _ member
  rcases nextFound_cases device.remoteServiceInfo before.length with
    ⟨none, unfound⟩ | ⟨skipped, entry, behind, split, unfound, found, next⟩
  · rw [left] at unfound
    exact .inl ⟨none, tagged_eq_nil among unfound, unfound⟩
  · rw [left] at split
    subst split
    have member := among entry (by simp)
    refine .inr ⟨_, next, ⟨entry, member, found⟩, fun discoverable => ?_⟩
    rcases serviceTable_cases registration db member with ⟨_, service, peer, uuid, range⟩ | ⟨not, _⟩
    · have located : device.remoteServiceInfo[skipped.length + before.length]? = some entry := by
        rw [table, whole, Nat.add_comm, ← List.append_assoc, ← List.length_append]
        simp
      have noneSkipped : db.tagged skipped = [] :=
        tagged_eq_nil (fun info inside => among info (List.mem_append_left _ inside)) unfound
      refine ⟨service.chars.length + 1 + db.budget behind, ?_, ?_⟩
      · rw [budget_append, PeerDatabase.budget, ← uuid, charsOf_eq db peer]
        omega
      · rw [located]
        show Phase registration db ⟨_, some (.characteristics entry.handlesRange), 0⟩ _
        rw [range]
        have split : serviceTable registration db = (before ++ skipped) ++ entry :: behind := by
          rw [whole, List.append_assoc]
        have empty : service.chars = [] ++ service.chars := rfl
        refine Phase.scanning discoverable ?_ split ?_ peer uuid range empty ?_
        · exact table
        · show skipped.length + before.length = (before ++ skipped).length
          rw [List.length_append, Nat.add_comm]
        · show device.remoteCharacteristicInfo = _
          rw [tagged_append, noneSkipped, List.append_nil, List.map_nil, List.append_nil]
          exact stored
    · rw [not] at found
      cases found

/-- **An answer while services are listed.** -/
theorem listing_lowers {device : Nrf51822} {done rest : List PeerService} {connHandle : UInt16}
    {params : EventParams} (split : db.services = done ++ rest)
    (table : device.remoteServiceInfo =
      storeServices (done.map PeerService.found) registration.device.remoteServiceInfo)
    (untouched : device.remoteCharacteristicInfo = registration.device.remoteCharacteristicInfo)
    (answers : Answers db (.services (nextStart done)) params) :
    ∃ lower < rest.length + 1 + db.budget (serviceTable registration db), Phase registration db
      (DiscoveryState.receive ⟨device, some (.services (nextStart done)), 0⟩ ⟨connHandle, params⟩)
      lower := by
  generalize start : nextStart done = startHandle at answers
  cases answers with
  | invalidHandle services last =>
    obtain rfl := rest_of_wrap split start
    rw [List.append_nil] at split
    have whole : device.remoteServiceInfo = serviceTable registration db := by
      rw [table, serviceTable, split]
    have stored : device.remoteCharacteristicInfo =
        registration.device.remoteCharacteristicInfo.map (storeAll (db.tagged [])) := by
      rw [untouched]
      exact (List.map_id' _).symm
    have wraps := nextStart_eq_zero_iff.mp start
    rw [← split] at wraps
    rcases scan_next whole (List.nil_append _).symm stored with
      ⟨none, _, unfound⟩ | ⟨index, next, ⟨entry, member, found⟩, scans⟩
    · refine ⟨0, by omega, ?_⟩
      rw [receive_eq (poll_services_done none connHandle services last)]
      exact .failed fun discoverable => not_registered unfound discoverable.1
    · obtain ⟨lower, below, phase⟩ := scans ⟨exists_registered member found, wraps⟩
      refine ⟨lower, by omega, ?_⟩
      rw [receive_eq (poll_services_next next connHandle services last)]
      exact phase
  | noServices services last positive none =>
    rw [← start] at positive none
    rw [servicesFrom_split split positive, List.map_eq_nil_iff] at none
    subst none
    refine ⟨0, by omega, .failed fun discoverable => positive ?_⟩
    rw [List.append_nil] at split
    rw [nextStart_eq_zero_iff, ← split]
    exact discoverable.2
  | someServices positive first =>
    rename_i batch last
    rw [← start] at positive first
    rw [servicesFrom_split split positive] at first
    obtain ⟨after, cut⟩ := first
    obtain ⟨listed, left, rfl, whole, rfl⟩ := List.map_eq_append_iff.mp cut.symm
    obtain ⟨front, final, rfl, rfl, one⟩ := List.map_eq_append_iff.mp whole
    obtain ⟨service, rfl, rfl⟩ := List.map_eq_singleton_iff.mp one
    have split : db.services = (done ++ (front ++ [service])) ++ left := by
      rw [split, List.append_assoc, List.append_assoc, List.append_assoc]
    refine ⟨left.length + 1 + db.budget (serviceTable registration db), ?_, ?_⟩
    · rw [List.length_append, List.length_append, List.length_singleton]
      omega
    · have next : service.found.handleRange.endHandle + 1 = nextStart (done ++ (front ++ [service])) := by
        rw [← List.append_assoc, nextStart_concat]
        rfl
      show Phase registration db
        ⟨{ device with remoteServiceInfo := storeServices _ device.remoteServiceInfo },
          some (.services (service.found.handleRange.endHandle + 1)), 0⟩ _
      rw [next]
      refine .listing split ?_ untouched
      show storeServices (front.map _ ++ [service.found]) device.remoteServiceInfo = _
      rw [table, ← storeServices_append, List.map_append, List.map_append]
      rfl

/-- **An answer while a service is scanned.** -/
theorem scanning_lowers {device : Nrf51822} {before after : List RemoteServiceInfo}
    {entry : RemoteServiceInfo} {service : PeerService} {done rest : List FoundChar}
    {connHandle : UInt16} {params : EventParams} (discoverable : Discoverable registration db)
    (table : device.remoteServiceInfo = serviceTable registration db)
    (whole : serviceTable registration db = before ++ entry :: after)
    (index : device.remoteServiceDiscoveryIndex = before.length)
    (peer : service ∈ db.services) (uuid : service.uuid = entry.uuid)
    (range : entry.handlesRange = service.handleRange) (split : service.chars = done ++ rest)
    (stored : device.remoteCharacteristicInfo = registration.device.remoteCharacteristicInfo.map
      (storeAll (db.tagged before ++ done.map (entry.service, ·))))
    (answers : Answers db
      (.characteristics ⟨nextDecl service done, service.handleRange.endHandle⟩) params) :
    ∃ lower < rest.length + 1 + db.budget after, Phase registration db
      (DiscoveryState.receive ⟨device, some (.characteristics
        ⟨nextDecl service done, service.handleRange.endHandle⟩), 0⟩ ⟨connHandle, params⟩) lower := by
  obtain ⟨low, high, _⟩ := nextDecl_bounds peer split
  have start := (db.valid service peer).1
  rw [UInt16.lt_iff_toNat_lt] at start
  replace start : 0 < service.handleRange.startHandle.toNat := start
  cases answers with
  | invalidRange chars invalid =>
    exfalso
    rcases invalid with zero | wrong
    · replace zero : nextDecl service done = 0 := zero
      rw [← UInt16.toNat_inj] at zero
      replace zero : (nextDecl service done).toNat = 0 := zero
      omega
    · rw [UInt16.lt_iff_toNat_lt] at wrong
      replace wrong : service.handleRange.endHandle.toNat < (nextDecl service done).toNat := wrong
      omega
  | noChars chars _ _ none =>
    rw [charsIn_split peer split] at none
    subst none
    rw [List.append_nil] at split
    have all : db.tagged (before ++ [entry]) =
        db.tagged before ++ done.map (entry.service, ·) := by
      rw [tagged_append, ← split, ← charsOf_eq db peer, uuid]
      exact congrArg _ (List.append_nil _)
    have whole : serviceTable registration db = (before ++ [entry]) ++ after := by
      rw [whole, List.append_assoc]
      rfl
    have length : device.remoteServiceDiscoveryIndex + 1 = (before ++ [entry]).length := by
      rw [index, List.length_append]
      rfl
    rw [← all] at stored
    rcases scan_next table whole stored with ⟨none, nothing, _⟩ | ⟨next, found, _, scans⟩
    · refine ⟨0, by omega, ?_⟩
      rw [← length] at none
      rw [receive_eq (poll_chars_done none connHandle chars)]
      refine .finished discoverable ?_
      rw [whole, tagged_append, nothing, List.append_nil]
      exact stored
    · obtain ⟨lower, below, phase⟩ := scans discoverable
      refine ⟨lower, by omega, ?_⟩
      rw [← length] at found
      rw [receive_eq (poll_chars_next found connHandle chars)]
      exact phase
  | someChars positive valid some first =>
    rename_i chars
    rw [charsIn_split peer split] at first
    obtain ⟨left, rfl⟩ := first
    have scanned : device.remoteServiceInfo[device.remoteServiceDiscoveryIndex]? = .some entry := by
      rw [table, whole, index]
      simp
    have next : continueRange entry.handlesRange chars =
        ⟨nextDecl service (done ++ chars), service.handleRange.endHandle⟩ := by
      obtain rfl | ⟨front, last, rfl⟩ := List.eq_nil_or_concat chars
      · exact absurd rfl some
      · rw [List.concat_eq_append, ← List.append_assoc, nextDecl_concat, continueRange_concat, range]
    refine ⟨left.length + 1 + db.budget after, ?_, ?_⟩
    · have stores := List.length_pos_iff.mpr some
      rw [List.length_append]
      omega
    · rw [receive_eq (poll_chars scanned connHandle chars)]
      show Phase registration db ⟨_, .some (.characteristics (continueRange entry.handlesRange chars)),
        0⟩ _
      rw [next]
      refine Phase.scanning discoverable ?_ whole ?_ peer uuid range
        (split.trans (List.append_assoc ..).symm) ?_
      · exact table
      · exact index
      · show device.remoteCharacteristicInfo.map _ = _
        rw [stored, List.map_map, List.map_append, ← List.append_assoc]
        exact List.map_congr_left fun info _ => (storeAll_append _ _ info).symm

/-- **Every answer lowers the rank.** -/
theorem exchange_lowers (registration : Registration) (db : PeerDatabase) :
    Lowers (Exchange db) (Phase registration db) := by
  intro before after bound phase exchange
  obtain ⟨connHandle, asked, answers⟩ := exchange
  cases phase with
  | listing split table untouched =>
    obtain rfl := Option.some.inj asked
    exact listing_lowers split table untouched answers
  | scanning discoverable table whole index peer uuid range split stored =>
    obtain rfl := Option.some.inj asked
    exact scanning_lowers discoverable table whole index peer uuid range split stored answers
  | finished => cases asked
  | failed => cases asked

/-- A connection begins the listing of services, where one is registered. -/
theorem connected_phase (registration : Registration) (db : PeerDatabase) (connHandle : UInt16)
    (peerAddr : Vector UInt8 6) (txPacketCount : UInt8) : ∃ bound, Phase registration db
      (.connected registration.device connHandle peerAddr txPacketCount) bound := by
  have polled : registration.device.poll ⟨connHandle, .connected peerAddr txPacketCount⟩ =
      registration.device.onConnected connHandle peerAddr txPacketCount := rfl
  rw [Nrf51822.onConnected] at polled
  rw [DiscoveryState.connected, receive_eq polled]
  by_cases none : registration.device.remoteServiceInfo = []
  · refine ⟨0, ?_⟩
    rw [if_neg (not_not.mpr none), List.append_nil]
    have hidden : ¬ Discoverable registration db := by
      rintro ⟨⟨info, member, _⟩, _⟩
      rw [none] at member
      cases member
    split_ifs <;> exact .failed hidden
  · refine ⟨db.services.length + 1 + db.budget (serviceTable registration db), ?_⟩
    rw [if_pos none]
    split_ifs
    · exact Phase.listing (List.nil_append _).symm rfl rfl
    · exact Phase.listing (List.nil_append _).symm rfl rfl

/-- **Every discovery ends.** -/
theorem discovery_terminates (registration : Registration) (db : PeerDatabase) (connHandle : UInt16)
    (peerAddr : Vector UInt8 6) (txPacketCount : UInt8) : Terminates (Exchange db)
      (.connected registration.device connHandle peerAddr txPacketCount) := by
  obtain ⟨bound, phase⟩ := connected_phase registration db connHandle peerAddr txPacketCount
  exact (exchange_lowers registration db).terminates phase

/-- The table of services keeps the registered services in order. -/
theorem services_serviceTable (registration : Registration) (db : PeerDatabase) (service : Nat) :
    ((serviceTable registration db).find? fun entry => entry.service = service).map
        RemoteServiceInfo.uuid =
      (registration.device.remoteServiceInfo.find? fun entry => entry.service = service).map
        RemoteServiceInfo.uuid := by
  have same := congrArg (fun pairs : List (Nat × Uuid) =>
      (pairs.find? fun pair => pair.1 = service).map Prod.snd)
    (registered_storeServices (db.services.map PeerService.found) registration.device.remoteServiceInfo)
  simp only [registered, List.find?_map, Option.map_map] at same
  exact same

/-- What is stored when everything has been scanned. -/
theorem stored_eq (registration : Registration) (db : PeerDatabase) :
    registration.device.remoteCharacteristicInfo.map
        (storeAll (db.tagged (serviceTable registration db))) =
      registration.device.remoteCharacteristicInfo.map fun info =>
        info.filledWith (db.charFor registration.device.remoteServiceInfo info) := by
  have distinct : ((serviceTable registration db).map RemoteServiceInfo.service).Nodup := by
    have same := congrArg (List.map Prod.fst)
      (registered_storeServices (db.services.map PeerService.found) registration.device.remoteServiceInfo)
    rw [registered, registered, List.map_map, List.map_map] at same
    exact (congrArg List.Nodup same).mpr registration.distinctServices
  apply List.map_congr_left
  intro info member
  obtain ⟨properties, valueHandle⟩ := registration.clearChars info member
  have clear : info.clear = info := by
    rw [RemoteCharacteristicInfo.clear, ← properties, ← valueHandle]
  have same := congrArg (fun uuid : Option Uuid => uuid.bind fun uuid =>
    (db.charsOf uuid).reverse.find? fun found => found.uuid = info.uuid)
    (services_serviceTable registration db info.service)
  simp only [Option.bind_map] at same
  exact (storeAll_tagged db clear distinct).trans (congrArg info.filledWith same)

/-- **Discovery completes exactly when** the peer has a registered service and its last service ends at
the last handle. -/
theorem discovery_completes_iff (registration : Registration) (db : PeerDatabase)
    (connHandle : UInt16) (peerAddr : Vector UInt8 6) (txPacketCount : UInt8) :
    Completes registration db (.connected registration.device connHandle peerAddr txPacketCount) ↔
      Discoverable registration db := by
  have lowers := exchange_lowers registration db
  obtain ⟨bound, phase⟩ := connected_phase registration db connHandle peerAddr txPacketCount
  constructor
  · rintro ⟨terminates, completes⟩
    obtain ⟨final, reached, stuck⟩ := terminates.exists_final
    have idle : final.request = none := by
      cases asked : final.request with
      | none => rfl
      | some request =>
        obtain ⟨params, answers⟩ := exists_answer db request
        exact absurd (.answer 0 asked answers) (stuck _)
    have told := (completes final reached idle).once
    obtain ⟨lower, finalPhase⟩ := lowers.reaches phase reached
    cases finalPhase with
    | listing | scanning => cases idle
    | finished discoverable => exact discoverable
    | failed => cases told
  · intro discoverable
    refine ⟨lowers.terminates phase, fun final reached idle => ?_⟩
    obtain ⟨lower, finalPhase⟩ := lowers.reaches phase reached
    cases finalPhase with
    | listing | scanning => cases idle
    | finished _ stored => exact ⟨rfl, stored.trans (stored_eq registration db)⟩
    | failed hidden => exact absurd discoverable hidden

end Discovery

/-- A device that looks for the battery level of a peer. -/
def batteryRegistration : Registration where
  device :=
    { advData := fun _ => 0
      advDataLen := 0
      broadcastCharacteristic := none
      connectionHandle := connHandleInvalid
      txBufferCount := 0
      minimumConnectionInterval := 0
      maximumConnectionInterval := 0
      bondStore := false
      localCharacteristicInfo := []
      subscribed := fun _ => false
      remoteServiceInfo := [⟨1, ⟨0x180F, 1⟩, .zero⟩]
      remoteServiceDiscoveryIndex := 0
      remoteCharacteristicInfo := [⟨1, 1, ⟨0x2A19, 1⟩, .none, 0⟩]
      remoteRequestInProgress := false }
  distinctUuids := List.nodup_singleton _
  distinctServices := List.nodup_singleton _
  clearServices := by decide
  clearChars := by decide

/-- A peer with a battery level, whose only service ends at `0x0020`. -/
def batteryPeer : PeerDatabase where
  services := [⟨⟨0x180F, 1⟩, ⟨0x0010, 0x0020⟩,
    [⟨⟨0x2A19, 1⟩, ⟨true, false, false, true, false⟩, 0x0011, 0x0012⟩]⟩]
  valid := by simp
  increasing := List.pairwise_singleton ..
  distinct := List.nodup_singleton _
  inside := by simp
  charsIncreasing := by simp

/-- **A discovery that ends without a word**: the peer reports its only service, and then that there is
none behind it. -/
theorem discovery_never_told : ¬ Completes batteryRegistration batteryPeer
    (.connected batteryRegistration.device 0 (.replicate 6 1) 6) := by
  rintro ⟨_, completes⟩
  let start := DiscoveryState.connected batteryRegistration.device 0 (.replicate 6 1) 6
  let found := FoundService.mk ⟨0x180F, 1⟩ ⟨0x0010, 0x0020⟩
  have reported : Answers batteryPeer (.services 1) (.primSrvcDiscRsp statusSuccess [] found) :=
    .someServices (by decide) ⟨[], rfl⟩
  have nothing : Answers batteryPeer (.services 0x0021)
      (.primSrvcDiscRsp statusAttributeNotFound [] found) :=
    .noServices [] found (by decide) rfl
  have listed : Exchange batteryPeer start
      (start.receive ⟨0, .primSrvcDiscRsp statusSuccess [] found⟩) :=
    .answer 0 rfl reported
  have ended : Exchange batteryPeer (start.receive ⟨0, .primSrvcDiscRsp statusSuccess [] found⟩) _ :=
    .answer 0 rfl nothing
  have complete := completes _ (.tail (.single listed) ended) rfl
  exact absurd complete.once (by decide)

end PrimoCore.Ble
