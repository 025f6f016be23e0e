/-
**The tables that `begin` fills.**

`begin` counts the characteristics of the program, takes three for the generic ones, allocates as many entries,
and then fills one for each characteristic whose UUID is not one of the three. The counters are bytes that only
`end` clears, and `BLECentralRole` has no `end`.

* `Tables.peripheralBegin`, `Tables.centralBegin` — the code, on the lists of attributes.
* `Tables.Describe` — every counter is the number of entries filled, and the entries are those of the lists.
* `fillLocal_foldl`, `fillRemote_foldl` — the loops fill the tables that the lists ask for, whatever the counters.
* `begin_tables_iff` — **the tables describe the lists after each `begin` of a run exactly when** it finds the
  remote counters at zero, and the local one lacks as many as are passed over to make three.
-/

import PrimoCore.Lib.Headings
import PrimoCore.Lib.Run
import PrimoCore.Ble.Device

namespace PrimoCore.Ble

open PrimoCore.Lib

/-! ### The attributes -/

/-- `BLEAttributeType`. -/
inductive BLEAttributeType where
  | service
  | characteristic
  | descriptor
  deriving DecidableEq

/-- `BLEAttribute`; a number stands for the object. -/
structure BLEAttribute where
  id : Nat
  uuid : CString
  type : BLEAttributeType
  deriving DecidableEq

namespace BLEAttribute

/-- `strcmp` of the UUID gives zero. -/
def named (entry : BLEAttribute) (text : String) : Bool :=
  entry.uuid.chars == text.toList.map fun char => char.toNat.toUInt8

/-- A service that is passed over. -/
def genericService (entry : BLEAttribute) : Bool := entry.named "1800" || entry.named "1801"

/-- A characteristic that is passed over. -/
def genericCharacteristic (entry : BLEAttribute) : Bool :=
  entry.named "2a00" || entry.named "2a01" || entry.named "2a05"

end BLEAttribute

/-- The two generic remote attributes, which are members of the object. -/
def genericRemote : List BLEAttribute :=
  [⟨0, ⟨0, [49, 56, 48, 49], by decide⟩, .service⟩, ⟨1, ⟨0, [50, 97, 48, 53], by decide⟩, .characteristic⟩]

/-- **The attributes of an object** when `begin` is called: the local ones, and the remote ones that the
program has added. They are counted in bytes, the two generic remote ones with them. -/
structure Registered where
  localAttributes : List BLEAttribute
  remoteAttributes : List BLEAttribute
  localFits : localAttributes.length ≤ 255
  remoteFits : remoteAttributes.length + 2 ≤ 255

/-! ### The tables -/

/-- An entry of `_localCharacteristicInfo`, less the handles that the stack hands out. -/
structure LocalInfo where
  characteristic : BLEAttribute
  service : Option BLEAttribute
  notifySubscribed : Bool
  indicateSubscribed : Bool
  deriving DecidableEq

/-- An entry of `_remoteServiceInfo`, less the number that the stack gives to the UUID. -/
structure RemoteService where
  service : BLEAttribute
  handlesRange : HandleRange
  deriving DecidableEq

/-- An entry of `_remoteCharacteristicInfo`, less that number. -/
structure RemoteCharacteristic where
  characteristic : BLEAttribute
  service : Option BLEAttribute
  properties : CharProps
  valueHandle : UInt16
  deriving DecidableEq

/-- The counters and tables of `nRF51822`, and of `BLECentralRole`. What has not been filled since the
allocation is nothing. -/
structure Tables where
  numLocalCharacteristics : UInt8
  localCharacteristicInfo : Memory (Option LocalInfo)
  numRemoteServices : UInt8
  remoteServiceInfo : Memory (Option RemoteService)
  numRemoteCharacteristics : UInt8
  remoteCharacteristicInfo : Memory (Option RemoteCharacteristic)

/-- The variables of the loop that fills `_localCharacteristicInfo`. -/
structure LocalFill where
  lastService : Option BLEAttribute
  localCharacteristicIndex : UInt8
  localCharacteristicInfo : Memory (Option LocalInfo)

/-- The variables of the loop that fills the two remote tables. -/
structure RemoteFill where
  lastRemoteService : Option BLEAttribute
  remoteServiceIndex : UInt8
  remoteServiceInfo : Memory (Option RemoteService)
  remoteCharacteristicIndex : UInt8
  remoteCharacteristicInfo : Memory (Option RemoteCharacteristic)

def LocalInfo.new (characteristic : BLEAttribute) (service : Option BLEAttribute) : LocalInfo :=
  ⟨characteristic, service, false, false⟩

def RemoteService.new (service : BLEAttribute) : RemoteService := ⟨service, HandleRange.zero⟩

def RemoteCharacteristic.new (characteristic : BLEAttribute) (service : Option BLEAttribute) :
    RemoteCharacteristic :=
  ⟨characteristic, service, CharProps.none, 0⟩

/-- One attribute in the loop that fills the local table. -/
def fillLocal (filled : LocalFill) (localAttribute : BLEAttribute) : LocalFill :=
  match localAttribute.type with
  | .service =>
      if localAttribute.genericService then filled else { filled with lastService := some localAttribute }
  | .characteristic =>
      if localAttribute.genericCharacteristic then filled
      else { filled with
        localCharacteristicIndex := filled.localCharacteristicIndex + 1
        localCharacteristicInfo := Function.update filled.localCharacteristicInfo
          filled.localCharacteristicIndex.toNat (some (.new localAttribute filled.lastService)) }
  | .descriptor => filled

/-- One attribute in the loop that fills the remote tables. -/
def fillRemote (filled : RemoteFill) (remoteAttribute : BLEAttribute) : RemoteFill :=
  match remoteAttribute.type with
  | .service =>
      { filled with
        lastRemoteService := some remoteAttribute
        remoteServiceIndex := filled.remoteServiceIndex + 1
        remoteServiceInfo := Function.update filled.remoteServiceInfo
          filled.remoteServiceIndex.toNat (some (.new remoteAttribute)) }
  | .characteristic =>
      { filled with
        remoteCharacteristicIndex := filled.remoteCharacteristicIndex + 1
        remoteCharacteristicInfo := Function.update filled.remoteCharacteristicInfo
          filled.remoteCharacteristicIndex.toNat (some (.new remoteAttribute filled.lastRemoteService)) }
  | .descriptor => filled

namespace Tables

/-- The constructors. -/
def initial : Tables := ⟨0, fun _ => none, 0, fun _ => none, 0, fun _ => none⟩

/-- One attribute in the loop that counts the local characteristics. -/
def countLocal (tables : Tables) (localAttribute : BLEAttribute) : Tables :=
  if localAttribute.type = .characteristic then
    { tables with numLocalCharacteristics := tables.numLocalCharacteristics + 1 }
  else tables

/-- One attribute in the loop that counts the remote attributes. -/
def countRemote (tables : Tables) (remoteAttribute : BLEAttribute) : Tables :=
  match remoteAttribute.type with
  | .service => { tables with numRemoteServices := tables.numRemoteServices + 1 }
  | .characteristic => { tables with numRemoteCharacteristics := tables.numRemoteCharacteristics + 1 }
  | .descriptor => tables

/-- The local half of `begin`. -/
def beginLocal (tables : Tables) (localAttributes : List BLEAttribute) : Tables :=
  let counted := localAttributes.foldl countLocal tables
  let filled := localAttributes.foldl fillLocal ⟨none, 0, fun _ => none⟩
  { counted with
    numLocalCharacteristics := counted.numLocalCharacteristics - 3
    localCharacteristicInfo := filled.localCharacteristicInfo }

/-- The remote half of `begin`, on the first attributes of the list. -/
def beginRemote (tables : Tables) (remoteAttributes : List BLEAttribute) (numRemoteAttributes : UInt8) : Tables :=
  let seen := remoteAttributes.take numRemoteAttributes.toNat
  let counted := seen.foldl countRemote tables
  let filled := seen.foldl fillRemote ⟨none, 0, fun _ => none, 0, fun _ => none⟩
  { counted with
    remoteServiceInfo := filled.remoteServiceInfo
    remoteCharacteristicInfo := filled.remoteCharacteristicInfo }

/-- The generic attributes are taken off the end. -/
def dropGeneric (numRemoteAttributes : UInt8) : UInt8 :=
  if 0 < numRemoteAttributes then numRemoteAttributes - 2 else numRemoteAttributes

/-- `nRF51822::begin`. -/
def nrf51822Begin (tables : Tables) (localAttributes remoteAttributes : List BLEAttribute)
    (numRemoteAttributes : UInt8) : Tables :=
  (tables.beginLocal localAttributes).beginRemote remoteAttributes (dropGeneric numRemoteAttributes)

/-- `BLEPeripheral::begin`, which adds the generic attributes where there are remote ones. -/
def peripheralBegin (tables : Tables) (registered : Registered) : Tables :=
  let numRemoteAttributes := UInt8.ofNat registered.remoteAttributes.length
  if numRemoteAttributes ≠ 0 then
    tables.nrf51822Begin registered.localAttributes (registered.remoteAttributes ++ genericRemote)
      (numRemoteAttributes + 2)
  else tables.nrf51822Begin registered.localAttributes registered.remoteAttributes numRemoteAttributes

/-- `nRF51822::end`. -/
def nrf51822End (tables : Tables) : Tables :=
  { tables with numLocalCharacteristics := 0, numRemoteServices := 0, numRemoteCharacteristics := 0 }

/-- `BLECentralRole::begin`, which adds them and takes them off itself. -/
def centralBegin (tables : Tables) (registered : Registered) : Tables :=
  let begun := tables.beginLocal registered.localAttributes
  let numRemoteAttributes := UInt8.ofNat registered.remoteAttributes.length
  if numRemoteAttributes ≠ 0 then
    begun.beginRemote (registered.remoteAttributes ++ genericRemote) (dropGeneric (numRemoteAttributes + 2))
  else begun.beginRemote registered.remoteAttributes (dropGeneric numRemoteAttributes)

end Tables

/-- The calls of a peripheral. -/
inductive PeripheralCall where
  | begins (registered : Registered)
  | ends

/-- One call of a peripheral. -/
def Tables.peripheralStep (tables : Tables) : PeripheralCall → Tables
  | .begins registered => tables.peripheralBegin registered
  | .ends => tables.nrf51822End

/-! ### What the tables are to be -/

/-- A service that is neither of the two. -/
def BLEAttribute.ownService (entry : BLEAttribute) : Bool := entry.type = .service && !entry.genericService

/-- A characteristic that is none of the three. -/
def BLEAttribute.ownCharacteristic (entry : BLEAttribute) : Bool :=
  entry.type = .characteristic && !entry.genericCharacteristic

/-- The characteristics that are none of the three, each with the nearest service before it that is neither of
the two. -/
def localEntries (attributes : List BLEAttribute) : List LocalInfo :=
  underHeadings BLEAttribute.ownService BLEAttribute.ownCharacteristic LocalInfo.new attributes

/-- The services. -/
def remoteServices (attributes : List BLEAttribute) : List RemoteService :=
  (attributes.filter fun entry => entry.type = .service).map .new

/-- The characteristics, each with the nearest service before it. -/
def remoteCharacteristics (attributes : List BLEAttribute) : List RemoteCharacteristic :=
  underHeadings (fun entry => entry.type = .service)
    (fun entry => entry.type = .characteristic) RemoteCharacteristic.new attributes

/-- The counter is the number of entries filled, which are these in their order, and none is used that has not
been filled. -/
def Filled {Entry : Type*} (num : UInt8) (table : Memory (Option Entry)) (entries : List Entry) : Prop :=
  num.toNat = entries.length ∧ (∀ index, table index = entries[index]?) ∧ ∀ index < num.toNat, table index ≠ none

/-- **The tables describe the attributes.** -/
def Tables.Describe (tables : Tables) (registered : Registered) : Prop :=
  Filled tables.numLocalCharacteristics tables.localCharacteristicInfo (localEntries registered.localAttributes) ∧
  Filled tables.numRemoteServices tables.remoteServiceInfo (remoteServices registered.remoteAttributes) ∧
  Filled tables.numRemoteCharacteristics tables.remoteCharacteristicInfo
    (remoteCharacteristics registered.remoteAttributes)

/-- The characteristics of a list that are passed over. -/
def passedOver (attributes : List BLEAttribute) : Nat :=
  attributes.countP fun entry => entry.type = .characteristic && entry.genericCharacteristic

/-- What `begin` is to find: remote counters at zero, and a local counter that lacks as many as are passed over
to make three. -/
def Tables.Ready (tables : Tables) (registered : Registered) : Prop :=
  (tables.numLocalCharacteristics.toNat + passedOver registered.localAttributes) % 256 = 3 ∧
    tables.numRemoteServices = 0 ∧ tables.numRemoteCharacteristics = 0

/-- What is to hold of a call: after `begin`, the tables describe the attributes. -/
def Tables.Right (tables : Tables) : PeripheralCall → Prop
  | .begins registered => (tables.peripheralBegin registered).Describe registered
  | .ends => True

/-- When it does. -/
def Tables.Meets (tables : Tables) : PeripheralCall → Prop
  | .begins registered => tables.Ready registered
  | .ends => True

/-! ### What the loops fill -/

/-- Entries stored one behind the other, and one more. -/
theorem update_concat {Entry : Type*} {entries : List Entry} (few : entries.length ≤ 255) (entry : Entry) :
    Function.update (fun index => entries[index]?) (UInt8.ofNat entries.length).toNat (some entry) =
      fun index => (entries ++ [entry])[index]? := by
  have position : (UInt8.ofNat entries.length).toNat = entries.length :=
    UInt8.toNat_ofNat_of_lt' (Nat.lt_succ_of_le few)
  funext index
  rw [position]
  by_cases last : index = entries.length
  · rw [last, Function.update_self, List.getElem?_concat_length]
  · rw [Function.update_of_ne last]
    rcases Nat.lt_or_gt_of_ne last with before | after
    · rw [List.getElem?_append_left before]
    · rw [List.getElem?_eq_none (Nat.le_of_lt after), List.getElem?_eq_none (by rw [List.length_append]; exact after)]

theorem length_localEntries_le (attributes : List BLEAttribute) :
    (localEntries attributes).length ≤ attributes.length := by
  rw [localEntries, length_underHeadings]
  exact List.countP_le_length

theorem localEntries_concat (attributes : List BLEAttribute) (entry : BLEAttribute) :
    localEntries (attributes ++ [entry]) = localEntries attributes ++
      if entry.ownCharacteristic then [.new entry (lastHeading BLEAttribute.ownService attributes)] else [] :=
  underHeadings_concat

/-- **The loop fills the local table.** -/
theorem fillLocal_foldl {attributes : List BLEAttribute} (few : attributes.length ≤ 255) :
    attributes.foldl fillLocal ⟨none, 0, fun _ => none⟩ =
      ⟨lastHeading BLEAttribute.ownService attributes, UInt8.ofNat (localEntries attributes).length,
        fun index => (localEntries attributes)[index]?⟩ := by
  induction attributes using List.reverseRecOn with
  | nil => rfl
  | append_singleton attributes entry ih =>
    have fewer : attributes.length ≤ 255 := by
      rw [List.length_append] at few
      omega
    have room := Nat.le_trans (length_localEntries_le attributes) fewer
    rw [List.foldl_append, ih fewer, List.foldl_cons, List.foldl_nil, lastHeading_concat, localEntries_concat]
    have heading : entry.ownService = (decide (entry.type = .service) && !entry.genericService) := rfl
    have item : entry.ownCharacteristic = (decide (entry.type = .characteristic) && !entry.genericCharacteristic) :=
      rfl
    rw [heading, item, fillLocal]
    cases entry.type with
    | service => by_cases generic : entry.genericService = true <;> simp [generic]
    | characteristic =>
      by_cases generic : entry.genericCharacteristic = true
      · simp [generic]
      · rw [if_neg generic, update_concat room]
        simp [generic]
    | descriptor => simp

theorem remoteServices_concat (attributes : List BLEAttribute) (entry : BLEAttribute) :
    remoteServices (attributes ++ [entry]) =
      remoteServices attributes ++ if entry.type = .service then [.new entry] else [] := by
  unfold remoteServices
  rw [List.filter_append, List.map_append]
  by_cases service : entry.type = .service <;> simp [service]

theorem remoteCharacteristics_concat (attributes : List BLEAttribute) (entry : BLEAttribute) :
    remoteCharacteristics (attributes ++ [entry]) = remoteCharacteristics attributes ++
      if entry.type = .characteristic then
        [.new entry (lastHeading (fun entry => entry.type = .service) attributes)]
      else [] := by
  unfold remoteCharacteristics
  rw [underHeadings_concat]
  simp only [decide_eq_true_eq]

theorem length_remote_le (attributes : List BLEAttribute) :
    (remoteServices attributes).length ≤ attributes.length ∧
      (remoteCharacteristics attributes).length ≤ attributes.length := by
  unfold remoteServices remoteCharacteristics
  rw [List.length_map, length_underHeadings]
  exact ⟨List.length_filter_le _ _, List.countP_le_length⟩

/-- **The loop fills the remote tables.** -/
theorem fillRemote_foldl {attributes : List BLEAttribute} (few : attributes.length ≤ 255) :
    attributes.foldl fillRemote ⟨none, 0, fun _ => none, 0, fun _ => none⟩ =
      ⟨lastHeading (fun entry => entry.type = .service) attributes,
        UInt8.ofNat (remoteServices attributes).length, fun index => (remoteServices attributes)[index]?,
        UInt8.ofNat (remoteCharacteristics attributes).length,
        fun index => (remoteCharacteristics attributes)[index]?⟩ := by
  induction attributes using List.reverseRecOn with
  | nil => rfl
  | append_singleton attributes entry ih =>
    have fewer : attributes.length ≤ 255 := by
      rw [List.length_append] at few
      omega
    obtain ⟨services, characteristics⟩ := length_remote_le attributes
    rw [List.foldl_append, ih fewer, List.foldl_cons, List.foldl_nil, lastHeading_concat,
      remoteServices_concat, remoteCharacteristics_concat, fillRemote]
    cases entry.type with
    | service =>
      rw [update_concat (Nat.le_trans services fewer)]
      simp
    | characteristic =>
      rw [update_concat (Nat.le_trans characteristics fewer)]
      simp
    | descriptor => simp

/-! ### What the loops count -/

namespace Tables

/-- The local characteristics are those that are filled and those that are passed over. -/
theorem countLocal_foldl (tables : Tables) (attributes : List BLEAttribute) :
    attributes.foldl countLocal tables =
      { tables with
        numLocalCharacteristics := tables.numLocalCharacteristics +
          UInt8.ofNat ((localEntries attributes).length + passedOver attributes) } := by
  induction attributes using List.reverseRecOn with
  | nil => simp [localEntries, passedOver]
  | append_singleton attributes entry ih =>
    have item : entry.ownCharacteristic = (decide (entry.type = .characteristic) && !entry.genericCharacteristic) :=
      rfl
    rw [List.foldl_append, ih, List.foldl_cons, List.foldl_nil, localEntries_concat, countLocal, passedOver,
      passedOver, List.countP_append, item]
    by_cases characteristic : entry.type = .characteristic
    · by_cases generic : entry.genericCharacteristic = true <;>
        simp [characteristic, generic, UInt8.ofNat_add] <;> grind
    · simp [characteristic]

theorem countRemote_foldl (tables : Tables) (attributes : List BLEAttribute) :
    attributes.foldl countRemote tables =
      { tables with
        numRemoteServices := tables.numRemoteServices + UInt8.ofNat (remoteServices attributes).length
        numRemoteCharacteristics := tables.numRemoteCharacteristics +
          UInt8.ofNat (remoteCharacteristics attributes).length } := by
  induction attributes using List.reverseRecOn with
  | nil => simp [remoteServices, remoteCharacteristics]
  | append_singleton attributes entry ih =>
    rw [List.foldl_append, ih, List.foldl_cons, List.foldl_nil, remoteServices_concat, remoteCharacteristics_concat,
      countRemote]
    cases entry.type <;> simp [UInt8.ofNat_add, UInt8.add_assoc]

/-- The number that is left is that of the attributes of the program. -/
theorem dropGeneric_toNat {number : Nat} (fits : number + 2 ≤ 255) :
    (if UInt8.ofNat number ≠ 0 then dropGeneric (UInt8.ofNat number + 2)
      else dropGeneric (UInt8.ofNat number)).toNat = number := by
  have value : (UInt8.ofNat number).toNat = number := UInt8.toNat_ofNat_of_lt' (by change number < 256; omega)
  have more : (UInt8.ofNat number + 2).toNat = number + 2 := by
    rw [UInt8.toNat_add, value]
    exact Nat.mod_eq_of_lt (Nat.lt_succ_of_le fits)
  unfold dropGeneric
  split_ifs with given first second
  · rw [UInt8.toNat_sub_of_le _ _ (by rw [UInt8.le_iff_toNat_le, more]; exact Nat.le_add_left 2 number), more]
    rfl
  · exact absurd (UInt8.lt_iff_toNat_lt.mpr (by rw [more]; exact Nat.succ_pos _)) first
  · exact absurd second (by rw [not_ne_iff.mp given]; decide)
  · exact value

/-- **What `begin` does**: the tables are the entries of the lists, and the counters go on from where they are. -/
theorem centralBegin_eq (tables : Tables) (registered : Registered) :
    tables.centralBegin registered =
      ⟨tables.numLocalCharacteristics + UInt8.ofNat ((localEntries registered.localAttributes).length +
          passedOver registered.localAttributes) - 3,
        fun index => (localEntries registered.localAttributes)[index]?,
        tables.numRemoteServices + UInt8.ofNat (remoteServices registered.remoteAttributes).length,
        fun index => (remoteServices registered.remoteAttributes)[index]?,
        tables.numRemoteCharacteristics + UInt8.ofNat (remoteCharacteristics registered.remoteAttributes).length,
        fun index => (remoteCharacteristics registered.remoteAttributes)[index]?⟩ := by
  have few : registered.remoteAttributes.length ≤ 255 := Nat.le_trans (Nat.le_add_right _ 2) registered.remoteFits
  have left := dropGeneric_toNat registered.remoteFits
  unfold centralBegin beginLocal beginRemote
  by_cases given : UInt8.ofNat registered.remoteAttributes.length ≠ 0
  · rw [if_pos given] at left
    simp only [if_pos given, left, List.take_left, countLocal_foldl, countRemote_foldl,
      fillLocal_foldl registered.localFits, fillRemote_foldl few]
  · rw [if_neg given] at left
    simp only [if_neg given, left, List.take_length, countLocal_foldl, countRemote_foldl,
      fillLocal_foldl registered.localFits, fillRemote_foldl few]

/-- The two classes fill the same tables. -/
theorem peripheralBegin_eq (tables : Tables) (registered : Registered) :
    tables.peripheralBegin registered = tables.centralBegin registered := rfl

end Tables

/-- Of a table that holds the entries, only the counter is in question. -/
theorem filled_iff {Entry : Type*} (num : UInt8) (entries : List Entry) :
    Filled num (fun index => entries[index]?) entries ↔ num.toNat = entries.length := by
  refine ⟨fun filled => filled.1, fun same => ⟨same, fun _ => rfl, fun index below => ?_⟩⟩
  rw [same] at below
  simp [below]

/-- A counter that goes on is right exactly when it comes from zero. -/
theorem add_ofNat_iff {number : Nat} (few : number ≤ 255) (num : UInt8) :
    (num + UInt8.ofNat number).toNat = number ↔ num = 0 := by
  have value : (UInt8.ofNat number).toNat = number := UInt8.toNat_ofNat_of_lt' (Nat.lt_succ_of_le few)
  have bound := num.toNat_lt
  rw [UInt8.toNat_add, value, ← UInt8.toNat_inj]
  change _ ↔ num.toNat = 0
  omega

/-- **A `begin` is right exactly when** the tables are ready for it. -/
theorem Tables.centralBegin_describe_iff (tables : Tables) (registered : Registered) :
    (tables.centralBegin registered).Describe registered ↔ tables.Ready registered := by
  have few : registered.remoteAttributes.length ≤ 255 := Nat.le_trans (Nat.le_add_right _ 2) registered.remoteFits
  obtain ⟨services, characteristics⟩ := length_remote_le registered.remoteAttributes
  unfold Describe Ready
  rw [centralBegin_eq, filled_iff, filled_iff, filled_iff, add_ofNat_iff (Nat.le_trans services few),
    add_ofNat_iff (Nat.le_trans characteristics few)]
  refine and_congr_left' ?_
  have bound := tables.numLocalCharacteristics.toNat_lt
  have entries := Nat.le_trans (length_localEntries_le registered.localAttributes) registered.localFits
  rw [UInt8.toNat_sub, UInt8.toNat_add, UInt8.toNat_ofNat', show (3 : UInt8).toNat = 3 from rfl]
  omega

/-- **The tables describe the attributes after each `begin` exactly when** each finds them ready: for a peripheral,
which may be ended between, and for a central. -/
theorem begin_tables_iff (calls : List PeripheralCall) (begins : List Registered) :
    (EachStep Tables.peripheralStep Tables.Right .initial calls ↔
      EachStep Tables.peripheralStep Tables.Meets .initial calls) ∧
    (EachStep Tables.centralBegin (fun tables registered => (tables.centralBegin registered).Describe registered)
        .initial begins ↔
      EachStep Tables.centralBegin Tables.Ready .initial begins) := by
  have right : Tables.Right = Tables.Meets := by
    funext tables call
    cases call with
    | begins registered => exact propext (tables.centralBegin_describe_iff registered)
    | ends => rfl
  have described : (fun (tables : Tables) registered => (tables.centralBegin registered).Describe registered) =
      Tables.Ready := by
    funext tables registered
    exact propext (tables.centralBegin_describe_iff registered)
  rw [right, described]
  exact ⟨Iff.rfl, Iff.rfl⟩

/-- The generic local attributes, which `initLocalAttributes` puts first: `BLEPeripheral::begin` calls it where
the program has added none, `BLECentralRole::begin` does not. -/
def initLocalAttributes : List BLEAttribute :=
  [⟨2, ⟨0, [49, 56, 48, 48], by decide⟩, .service⟩, ⟨3, ⟨0, [50, 97, 48, 48], by decide⟩, .characteristic⟩,
    ⟨4, ⟨0, [50, 97, 48, 49], by decide⟩, .characteristic⟩, ⟨5, ⟨0, [49, 56, 48, 49], by decide⟩, .service⟩,
    ⟨6, ⟨0, [50, 97, 48, 53], by decide⟩, .characteristic⟩]

/-- **The first `begin`** is right where the program adds attributes of its own to the generic ones. -/
theorem first_begin_describe (registered : Registered) {added : List BLEAttribute}
    (first : registered.localAttributes = initLocalAttributes ++ added)
    (own : ∀ entry ∈ added, entry.genericCharacteristic = false) :
    (Tables.initial.centralBegin registered).Describe registered := by
  refine (Tables.centralBegin_describe_iff _ _).mpr ⟨?_, rfl, rfl⟩
  have kept : passedOver added = 0 := List.countP_eq_zero.mpr fun entry member => by simp [own entry member]
  rw [first, passedOver, List.countP_append]
  change (0 + (passedOver initLocalAttributes + passedOver added)) % 256 = 3
  rw [kept]
  rfl

/-- No attribute at all, as for a central that only reads. -/
def noAttributes : Registered := ⟨[], [], by decide, by decide⟩

def batteryLevel : BLEAttribute := ⟨7, ⟨0, [50, 97, 49, 57], by decide⟩, .characteristic⟩

/-- The generic attributes and one characteristic. -/
def withBatteryLevel : Registered := ⟨initLocalAttributes ++ [batteryLevel], [], by decide, by decide⟩

/-- A central without local attributes counts 253 entries, of which none is filled, and a peripheral that begins a
second time counts two where there is one. -/
theorem begin_counts_unfilled :
    ¬ EachStep Tables.centralBegin (fun tables registered => (tables.centralBegin registered).Describe registered)
      .initial [noAttributes] ∧
    ¬ EachStep Tables.peripheralStep Tables.Right .initial [.begins withBatteryLevel, .begins withBatteryLevel] := by
  constructor
  · rintro ⟨⟨⟨counted, -⟩, -⟩, -⟩
    exact absurd counted (by decide)
  · rintro ⟨-, ⟨⟨counted, -⟩, -⟩, -⟩
    exact absurd counted (by decide)

end PrimoCore.Ble
