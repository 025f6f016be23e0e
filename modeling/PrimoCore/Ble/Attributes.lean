/-
**The attribute tables of `BLEPeripheral` and `BLECentralRole`.**

Every constructor of an attribute counts in a static byte. An object allocates its tables at the first
add, with as many slots as there are attributes at that time; the five generic local attributes go first,
and every `begin` of an object with remote attributes appends the two generic remote ones.

* `Table`, `BleObject.addLocalAttribute`, `BleObject.addRemoteAttribute`, `BleObject.begin` — the code,
  with every write to a table.
* `Account` — what the calls alone determine: the attributes there are, and those given to each object.
* `Attributes.InBounds` — no write is beyond its table, and every counter is the number it stands for.
* `tables_in_bounds_iff` — **a run is in bounds exactly when** at most 255 attributes of a kind are
  constructed, and no object is given more than there were at its first add.
-/

import PrimoCore.Lib.Run
import Mathlib.Logic.Function.Basic
import Mathlib.Tactic.SplitIfs

namespace PrimoCore.Ble

open PrimoCore.Lib

/-- `_localAttributes` or `_remoteAttributes`: the slots allocated, or nothing where it is `NULL`, the
counter, and the indices written so far. -/
structure Table where
  slots : Option UInt8
  num : UInt8
  writes : List Nat
  deriving DecidableEq

/-- What the calls have asked of a table: the attributes there were at the first add, and those given. -/
structure Account where
  available : Option Nat
  given : Nat
  deriving DecidableEq

/-- A table with its account. -/
structure Tracked where
  table : Table
  account : Account
  deriving DecidableEq

/-- The two classes. -/
inductive RoleKind where
  | peripheral
  | central
  deriving DecidableEq

structure BleObject where
  kind : RoleKind
  localAttributes : Tracked
  remoteAttributes : Tracked
  deriving DecidableEq

/-- The static counters, with the true numbers, and the objects. -/
structure Attributes where
  numLocal : UInt8
  numRemote : UInt8
  locals : Nat
  remotes : Nat
  objects : Nat → Option BleObject

namespace Tracked

/-- `_attributes[_num] = &attribute; _num++`. -/
def append (tracked : Tracked) : Tracked where
  table := { tracked.table with
    num := tracked.table.num + 1, writes := tracked.table.num.toNat :: tracked.table.writes }
  account := { tracked.account with given := tracked.account.given + 1 }

/-- `initLocalAttributes`, if the table is `NULL`: `numAttributes()` slots, and the generic attributes. -/
def initLocal (tracked : Tracked) (numAttributes : UInt8) (locals : Nat) : Tracked :=
  match tracked.table.slots with
  | none =>
      { table := ⟨some numAttributes, 5, [4, 3, 2, 1, 0] ++ tracked.table.writes⟩
        account := ⟨some locals, 5⟩ }
  | some _ => tracked

/-- The allocation in `addRemoteAttribute`. -/
def initRemote (tracked : Tracked) (numAttributes : UInt8) (remotes : Nat) : Tracked :=
  match tracked.table.slots with
  | none =>
      { table := { tracked.table with slots := some numAttributes }
        account := { tracked.account with available := some remotes } }
  | some _ => tracked

end Tracked

namespace BleObject

/-- The constructors: no table yet. -/
def new (kind : RoleKind) : BleObject := ⟨kind, ⟨⟨none, 0, []⟩, ⟨none, 0⟩⟩, ⟨⟨none, 0, []⟩, ⟨none, 0⟩⟩⟩

/-- `addLocalAttribute`. -/
def addLocalAttribute (object : BleObject) (numAttributes : UInt8) (locals : Nat) : BleObject :=
  { object with localAttributes := (object.localAttributes.initLocal numAttributes locals).append }

/-- `addRemoteAttribute`. -/
def addRemoteAttribute (object : BleObject) (numAttributes : UInt8) (remotes : Nat) : BleObject :=
  { object with remoteAttributes := (object.remoteAttributes.initRemote numAttributes remotes).append }

/-- The generic remote attributes, which `begin` adds. -/
def addGenericRemote (object : BleObject) (numAttributes : UInt8) (remotes : Nat) : BleObject :=
  if object.remoteAttributes.table.num ≠ 0 then
    (object.addRemoteAttribute numAttributes remotes).addRemoteAttribute numAttributes remotes
  else object

/-- `_numRemoteAttributes -= 2` in `BLECentralRole::begin`, which takes the two out of the account. -/
def dropGenericRemote (object : BleObject) : BleObject :=
  let tracked := object.remoteAttributes
  if 0 < tracked.table.num then
    { object with
      remoteAttributes :=
        { table := { tracked.table with num := tracked.table.num - 2 }
          account := { tracked.account with given := tracked.account.given - 2 } } }
  else object

/-- `begin`, as far as it writes to the tables. -/
def begin (object : BleObject) (numLocal numRemote : UInt8) (locals remotes : Nat) : BleObject :=
  match object.kind with
  | .peripheral =>
      let object := { object with localAttributes := object.localAttributes.initLocal numLocal locals }
      object.addGenericRemote numRemote remotes
  | .central => (object.addGenericRemote numRemote remotes).dropGenericRemote

end BleObject

/-- What can happen: an attribute or an object is constructed, or an object is called. Attributes and
objects are named by numbers. -/
inductive AttributeInput where
  | newLocal (added : Nat)
  | newRemote (added : Nat)
  | construct (object : Nat) (kind : RoleKind)
  | addLocal (object added : Nat)
  | addRemote (object added : Nat)
  | begin (object : Nat)
  deriving DecidableEq

namespace Attributes

/-- A call on an object, if it has been constructed. -/
def onObject (state : Attributes) (object : Nat) (call : BleObject → BleObject) : Attributes :=
  { state with
    objects := fun name => if name = object then (state.objects name).map call else state.objects name }

def step (state : Attributes) : AttributeInput → Attributes
  | .newLocal _ => { state with numLocal := state.numLocal + 1, locals := state.locals + 1 }
  | .newRemote _ => { state with numRemote := state.numRemote + 1, remotes := state.remotes + 1 }
  | .construct object kind =>
      match state.objects object with
      | some _ => state
      | none =>
          -- an object has five local and two remote attributes of its own
          { numLocal := state.numLocal + 5
            numRemote := state.numRemote + 2
            locals := state.locals + 5
            remotes := state.remotes + 2
            objects := Function.update state.objects object (some (.new kind)) }
  | .addLocal object _ =>
      state.onObject object fun found => found.addLocalAttribute state.numLocal state.locals
  | .addRemote object _ =>
      state.onObject object fun found => found.addRemoteAttribute state.numRemote state.remotes
  | .begin object =>
      state.onObject object fun found =>
        found.begin state.numLocal state.numRemote state.locals state.remotes

/-- Nothing has been constructed. -/
def initial : Attributes := ⟨0, 0, 0, 0, fun _ => none⟩

end Attributes

/-- A table in bounds: every write is at an index below the number of slots, and the counter is the number
of attributes given. -/
structure Tracked.InBounds (tracked : Tracked) : Prop where
  num : tracked.table.num.toNat = tracked.account.given
  writes : ∀ index ∈ tracked.table.writes, ∃ slots ∈ tracked.table.slots, index < slots.toNat

/-- **No table overflows and no counter wraps.** -/
structure Attributes.InBounds (state : Attributes) : Prop where
  locals : state.numLocal.toNat = state.locals
  remotes : state.numRemote.toNat = state.remotes
  objects : ∀ name object, state.objects name = some object →
    object.localAttributes.InBounds ∧ object.remoteAttributes.InBounds

/-- Some more attributes may be given to an object. -/
def Account.Room (account : Account) (there more : Nat) : Prop :=
  account.given + more ≤ account.available.getD there

/-- **The condition on a step**, in terms of what is constructed and given: at most 255 attributes of a
kind, and none given beyond those that there were at the first add. The first local add gives the five
generic attributes as well, and `begin` gives two remote ones to an object that has some. -/
def Attributes.Allows (state : Attributes) : AttributeInput → Prop
  | .newLocal _ => state.locals < 255
  | .newRemote _ => state.remotes < 255
  | .construct object _ => state.objects object = none → state.locals + 5 ≤ 255 ∧ state.remotes + 2 ≤ 255
  | .addLocal object _ => ∀ found, state.objects object = some found →
      found.localAttributes.account.Room state.locals
        (if found.localAttributes.account.available = none then 6 else 1)
  | .addRemote object _ => ∀ found, state.objects object = some found →
      found.remoteAttributes.account.Room state.remotes 1
  | .begin object => ∀ found, state.objects object = some found →
      found.remoteAttributes.account.given ≠ 0 → found.remoteAttributes.account.Room state.remotes 2

/-! ### Tables -/

namespace Tracked

variable {tracked : Tracked} {slots : UInt8}

/-- A table in bounds whose allocation is the number of attributes there were. -/
structure Sound (tracked : Tracked) : Prop where
  inBounds : tracked.InBounds
  agree : tracked.table.slots.map UInt8.toNat = tracked.account.available
  within : ∀ available ∈ tracked.account.available, tracked.account.given ≤ available
  fresh : tracked.account.available = none → tracked.account.given = 0

theorem sound_new : (Tracked.mk ⟨none, 0, []⟩ ⟨none, 0⟩).Sound :=
  ⟨⟨rfl, fun _ none => absurd none List.not_mem_nil⟩, rfl,
    fun _ none => absurd none (Option.not_mem_none _), fun _ => rfl⟩

theorem num_ne_zero_iff (num : tracked.table.num.toNat = tracked.account.given) :
    tracked.table.num ≠ 0 ↔ tracked.account.given ≠ 0 := by
  rw [← num, ne_eq, ne_eq, ← UInt8.toNat_inj]
  rfl

theorem num_succ (num : tracked.table.num.toNat = tracked.account.given)
    (below : tracked.account.given < 255) :
    (tracked.table.num + 1).toNat = tracked.account.given + 1 := by
  rw [UInt8.toNat_add, UInt8.toNat_one, num]
  omega

/-- **One more attribute** fits exactly when there is a slot left. -/
theorem append_iff (sound : tracked.Sound) (allocated : tracked.table.slots = some slots) :
    tracked.append.InBounds ↔ tracked.account.given + 1 ≤ slots.toNat := by
  have num := sound.inBounds.num
  have bound := slots.toNat_lt
  constructor
  · intro next
    obtain ⟨other, same, below⟩ := next.writes _ (List.mem_cons_self ..)
    obtain rfl := Option.some.inj (allocated.symm.trans same)
    rw [num] at below
    exact below
  · intro room
    refine ⟨num_succ num (by omega), fun index member => ?_⟩
    rcases List.mem_cons.mp member with rfl | before
    · exact ⟨slots, allocated, by rw [num]; exact room⟩
    · exact sound.inBounds.writes index before

theorem append_sound (sound : tracked.Sound) (allocated : tracked.table.slots = some slots)
    (room : tracked.account.given + 1 ≤ slots.toNat) : tracked.append.Sound := by
  have available : tracked.account.available = some slots.toNat := by
    rw [← sound.agree, allocated]
    rfl
  refine ⟨(append_iff sound allocated).mpr room, sound.agree, fun there same => ?_, fun none => ?_⟩
  · obtain rfl := Option.some.inj (available.symm.trans same)
    exact room
  · exact absurd (available.symm.trans none) (by simp)

/-- Both writes of a pair of attributes are in bounds only if there are two slots left. -/
theorem append_append_room (sound : tracked.Sound) (allocated : tracked.table.slots = some slots)
    (writes : ∀ index ∈ tracked.append.append.table.writes,
      ∃ slots ∈ tracked.append.append.table.slots, index < slots.toNat) :
    tracked.account.given + 2 ≤ slots.toNat := by
  have num := sound.inBounds.num
  have bound := slots.toNat_lt
  obtain ⟨first, same, firstBelow⟩ := writes _ (List.mem_cons_of_mem _ (List.mem_cons_self ..))
  obtain rfl := Option.some.inj (allocated.symm.trans same)
  obtain ⟨second, same, secondBelow⟩ := writes _ (List.mem_cons_self ..)
  obtain rfl := Option.some.inj (allocated.symm.trans same)
  rw [num] at firstBelow
  have next : tracked.append.table.num.toNat = _ := num_succ num (by omega)
  rw [next] at secondBelow
  exact secondBelow

theorem append_append_sound (sound : tracked.Sound) (allocated : tracked.table.slots = some slots)
    (room : tracked.account.given + 2 ≤ slots.toNat) : tracked.append.append.Sound :=
  append_sound (append_sound sound allocated (by omega)) allocated room

/-- What the allocation of a local table leaves. -/
theorem initLocal_spec (sound : tracked.Sound) {counter : UInt8} {locals : Nat}
    (count : counter.toNat = locals) (five : 5 ≤ locals) :
    ∃ slots, (tracked.initLocal counter locals).table.slots = some slots ∧
      slots.toNat = tracked.account.available.getD locals ∧
      (tracked.initLocal counter locals).account.given =
        (if tracked.account.available = none then 5 else tracked.account.given) ∧
      (tracked.initLocal counter locals).Sound := by
  have agree := sound.agree
  unfold initLocal
  cases allocated : tracked.table.slots with
  | none =>
    rw [allocated] at agree
    have available : tracked.account.available = none := agree.symm
    rw [available]
    have noWrites : tracked.table.writes = [] := by
      apply List.eq_nil_iff_forall_not_mem.mpr
      intro index member
      obtain ⟨slots, same, _⟩ := sound.inBounds.writes index member
      rw [allocated] at same
      cases same
    refine ⟨counter, rfl, count, rfl, ⟨rfl, fun index member => ⟨counter, rfl, ?_⟩⟩, ?_, ?_, ?_⟩
    · rw [noWrites, List.append_nil] at member
      have small : index < 5 := by
        simp only [List.mem_cons, List.not_mem_nil, or_false] at member
        omega
      rw [count]
      exact Nat.lt_of_lt_of_le small five
    · exact congrArg some count
    · intro available same
      obtain rfl := Option.some.inj same
      exact five
    · exact fun none => by cases none
  | some slots =>
    rw [allocated] at agree
    have available : tracked.account.available = some slots.toNat := agree.symm
    rw [available]
    exact ⟨slots, allocated, rfl, rfl, sound⟩

/-- What the allocation of a remote table leaves. -/
theorem initRemote_spec (sound : tracked.Sound) {counter : UInt8} {remotes : Nat}
    (count : counter.toNat = remotes) :
    ∃ slots, (tracked.initRemote counter remotes).table.slots = some slots ∧
      slots.toNat = tracked.account.available.getD remotes ∧
      (tracked.initRemote counter remotes).account.given = tracked.account.given ∧
      (tracked.initRemote counter remotes).Sound := by
  have agree := sound.agree
  unfold initRemote
  cases allocated : tracked.table.slots with
  | none =>
    rw [allocated] at agree
    have available : tracked.account.available = none := agree.symm
    have zero := sound.fresh available
    rw [available]
    refine ⟨counter, rfl, count, rfl, ⟨sound.inBounds.num, fun index member => ?_⟩, ?_, ?_, ?_⟩
    · obtain ⟨slots, same, _⟩ := sound.inBounds.writes index member
      rw [allocated] at same
      cases same
    · exact congrArg some count
    · intro available same
      rw [zero]
      exact Nat.zero_le _
    · exact fun none => by cases none
  | some slots =>
    rw [allocated] at agree
    have available : tracked.account.available = some slots.toNat := agree.symm
    rw [available]
    exact ⟨slots, allocated, rfl, rfl, sound⟩

end Tracked

/-! ### Objects -/

namespace BleObject

variable {object : BleObject} {counter : UInt8} {there : Nat}

structure Sound (object : BleObject) : Prop where
  localAttributes : object.localAttributes.Sound
  remoteAttributes : object.remoteAttributes.Sound

structure InBounds (object : BleObject) : Prop where
  localAttributes : object.localAttributes.InBounds
  remoteAttributes : object.remoteAttributes.InBounds

theorem Sound.inBounds (sound : object.Sound) : object.InBounds :=
  ⟨sound.localAttributes.inBounds, sound.remoteAttributes.inBounds⟩

theorem addLocal_iff (sound : object.Sound) (count : counter.toNat = there) (five : 5 ≤ there) :
    ((object.addLocalAttribute counter there).InBounds ↔ object.localAttributes.account.Room there
        (if object.localAttributes.account.available = none then 6 else 1)) ∧
      ((object.addLocalAttribute counter there).InBounds →
        (object.addLocalAttribute counter there).Sound) := by
  obtain ⟨slots, allocated, size, given, allocatedSound⟩ :=
    Tracked.initLocal_spec sound.localAttributes count five
  have exactly := Tracked.append_iff allocatedSound allocated
  have room : object.localAttributes.account.Room there
      (if object.localAttributes.account.available = none then 6 else 1) ↔
      (object.localAttributes.initLocal counter there).account.given + 1 ≤ slots.toNat := by
    rw [given, size]
    unfold Account.Room
    split_ifs with none
    · rw [sound.localAttributes.fresh none]
    · rfl
  refine ⟨⟨fun next => room.mpr (exactly.mp next.localAttributes), fun fits => ?_⟩, fun next => ?_⟩
  · exact ⟨exactly.mpr (room.mp fits), sound.remoteAttributes.inBounds⟩
  · exact ⟨Tracked.append_sound allocatedSound allocated (exactly.mp next.localAttributes),
      sound.remoteAttributes⟩

theorem addRemote_iff (sound : object.Sound) (count : counter.toNat = there) :
    ((object.addRemoteAttribute counter there).InBounds ↔
        object.remoteAttributes.account.Room there 1) ∧
      ((object.addRemoteAttribute counter there).InBounds →
        (object.addRemoteAttribute counter there).Sound) := by
  obtain ⟨slots, allocated, size, given, allocatedSound⟩ :=
    Tracked.initRemote_spec sound.remoteAttributes count
  have exactly := Tracked.append_iff allocatedSound allocated
  rw [given, size] at exactly
  refine ⟨⟨fun next => exactly.mp next.remoteAttributes, fun fits => ?_⟩, fun next => ?_⟩
  · exact ⟨sound.localAttributes.inBounds, exactly.mpr fits⟩
  · refine ⟨sound.localAttributes, Tracked.append_sound allocatedSound allocated ?_⟩
    rw [given, size]
    exact exactly.mp next.remoteAttributes

/-- A remote table with attributes has been allocated. -/
theorem allocated_of_given (sound : object.Sound) (given : object.remoteAttributes.account.given ≠ 0)
    (there : Nat) : ∃ slots, object.remoteAttributes.table.slots = some slots ∧
      slots.toNat = object.remoteAttributes.account.available.getD there := by
  have agree := sound.remoteAttributes.agree
  cases allocated : object.remoteAttributes.table.slots with
  | none =>
    rw [allocated] at agree
    exact absurd (sound.remoteAttributes.fresh agree.symm) given
  | some slots =>
    rw [allocated] at agree
    refine ⟨slots, rfl, ?_⟩
    rw [← agree]
    rfl

theorem addGenericRemote_of_some (sound : object.Sound)
    (given : object.remoteAttributes.account.given ≠ 0) (counter : UInt8) (there : Nat) :
    object.addGenericRemote counter there =
      { object with remoteAttributes := object.remoteAttributes.append.append } := by
  obtain ⟨slots, allocated, _⟩ := allocated_of_given sound given there
  have nonzero := (Tracked.num_ne_zero_iff sound.remoteAttributes.inBounds.num).mpr given
  unfold addGenericRemote
  rw [if_pos nonzero]
  unfold addRemoteAttribute Tracked.initRemote
  rw [allocated]
  show BleObject.mk _ _ (Tracked.append (match object.remoteAttributes.table.slots with
    | none => _ | some _ => _)) = _
  rw [allocated]

theorem addGenericRemote_of_none (sound : object.Sound)
    (none : object.remoteAttributes.account.given = 0) (counter : UInt8) (there : Nat) :
    object.addGenericRemote counter there = object := by
  have zero : ¬ object.remoteAttributes.table.num ≠ 0 := fun nonzero =>
    (Tracked.num_ne_zero_iff sound.remoteAttributes.inBounds.num).mp nonzero none
  unfold addGenericRemote
  rw [if_neg zero]

/-- Taking the two generic remote attributes out again leaves the table as it was, but for the writes. -/
theorem dropGenericRemote_sound (sound : object.Sound) {slots : UInt8}
    (allocated : object.remoteAttributes.table.slots = some slots)
    (room : object.remoteAttributes.account.given + 2 ≤ slots.toNat) :
    (dropGenericRemote
      { object with remoteAttributes := object.remoteAttributes.append.append }).Sound := by
  have appended := Tracked.append_append_sound sound.remoteAttributes allocated room
  have bound := slots.toNat_lt
  have last : object.remoteAttributes.append.append.table.num.toNat = _ := appended.inBounds.num
  have positive : 0 < object.remoteAttributes.append.append.table.num := by
    rw [UInt8.lt_iff_toNat_lt, last]
    exact Nat.succ_pos _
  have num : object.remoteAttributes.append.append.table.num - 2 = object.remoteAttributes.table.num := by
    show object.remoteAttributes.table.num + 1 + 1 - 2 = _
    rw [UInt8.add_assoc]
    exact UInt8.add_sub_cancel _ 2
  unfold dropGenericRemote
  dsimp only
  rw [if_pos positive, num]
  refine ⟨sound.localAttributes, ⟨sound.remoteAttributes.inBounds.num, appended.inBounds.writes⟩,
    sound.remoteAttributes.agree, sound.remoteAttributes.within, sound.remoteAttributes.fresh⟩

theorem dropGenericRemote_writes (object : BleObject) :
    object.dropGenericRemote.remoteAttributes.table.writes = object.remoteAttributes.table.writes ∧
      object.dropGenericRemote.remoteAttributes.table.slots = object.remoteAttributes.table.slots := by
  unfold dropGenericRemote
  dsimp only
  split_ifs <;> exact ⟨rfl, rfl⟩

theorem dropGenericRemote_of_none (sound : object.Sound)
    (none : object.remoteAttributes.account.given = 0) : object.dropGenericRemote = object := by
  have zero : object.remoteAttributes.table.num = 0 := by
    rw [← UInt8.toNat_inj, sound.remoteAttributes.inBounds.num, none]
    rfl
  unfold dropGenericRemote
  dsimp only
  rw [zero, if_neg (by decide)]

/-- The generic remote attributes fit exactly when there are two slots left. -/
theorem addGenericRemote_iff (sound : object.Sound) (counter : UInt8) (there : Nat) :
    ((object.addGenericRemote counter there).InBounds ↔
        (object.remoteAttributes.account.given ≠ 0 → object.remoteAttributes.account.Room there 2)) ∧
      ((object.addGenericRemote counter there).InBounds →
        (object.addGenericRemote counter there).Sound) := by
  by_cases given : object.remoteAttributes.account.given = 0
  · rw [addGenericRemote_of_none sound given]
    exact ⟨iff_of_true sound.inBounds fun nonzero => absurd given nonzero, fun _ => sound⟩
  · obtain ⟨slots, allocated, size⟩ := allocated_of_given sound given there
    rw [addGenericRemote_of_some sound given]
    have room : object.remoteAttributes.append.append.InBounds →
        object.remoteAttributes.account.given + 2 ≤ slots.toNat := fun next =>
      Tracked.append_append_room sound.remoteAttributes allocated next.writes
    have fits := fun room => Tracked.append_append_sound sound.remoteAttributes allocated room
    unfold Account.Room
    rw [← size]
    refine ⟨⟨fun next _ => room next.remoteAttributes, fun may => ?_⟩, fun next => ?_⟩
    · exact ⟨sound.localAttributes.inBounds, (fits (may given)).inBounds⟩
    · exact ⟨sound.localAttributes, fits (room next.remoteAttributes)⟩

/-- `begin` is in bounds exactly when the generic remote attributes fit. -/
theorem begin_iff (sound : object.Sound) {numLocal : UInt8} {locals : Nat}
    (count : numLocal.toNat = locals) (five : 5 ≤ locals) (numRemote : UInt8) (remotes : Nat) :
    ((object.begin numLocal numRemote locals remotes).InBounds ↔
        (object.remoteAttributes.account.given ≠ 0 → object.remoteAttributes.account.Room remotes 2)) ∧
      ((object.begin numLocal numRemote locals remotes).InBounds →
        (object.begin numLocal numRemote locals remotes).Sound) := by
  cases kind : object.kind with
  | peripheral =>
    obtain ⟨_, _, _, _, opened⟩ := Tracked.initLocal_spec sound.localAttributes count five
    have openedSound : BleObject.Sound
        { object with localAttributes := object.localAttributes.initLocal numLocal locals } :=
      ⟨opened, sound.remoteAttributes⟩
    have after : object.begin numLocal numRemote locals remotes = addGenericRemote
        { object with localAttributes := object.localAttributes.initLocal numLocal locals }
        numRemote remotes := by
      unfold begin
      rw [kind]
    rw [after]
    exact addGenericRemote_iff openedSound numRemote remotes
  | central =>
    have after : object.begin numLocal numRemote locals remotes =
        (object.addGenericRemote numRemote remotes).dropGenericRemote := by
      unfold begin
      rw [kind]
    rw [after]
    by_cases given : object.remoteAttributes.account.given = 0
    · rw [addGenericRemote_of_none sound given, dropGenericRemote_of_none sound given]
      exact ⟨iff_of_true sound.inBounds fun nonzero => absurd given nonzero, fun _ => sound⟩
    · obtain ⟨slots, allocated, size⟩ := allocated_of_given sound given remotes
      rw [addGenericRemote_of_some sound given]
      have writes := dropGenericRemote_writes
        { object with remoteAttributes := object.remoteAttributes.append.append }
      have room : (dropGenericRemote
          { object with remoteAttributes := object.remoteAttributes.append.append }).InBounds →
          object.remoteAttributes.account.given + 2 ≤ slots.toNat := by
        intro next
        have inside := next.remoteAttributes.writes
        rw [writes.1, writes.2] at inside
        exact Tracked.append_append_room sound.remoteAttributes allocated inside
      have fits := dropGenericRemote_sound sound allocated
      unfold Account.Room
      rw [← size]
      exact ⟨⟨fun next _ => room next, fun may => (fits (may given)).inBounds⟩,
        fun next => fits (room next)⟩

end BleObject

/-! ### Runs -/

namespace Attributes

variable {state : Attributes}

/-- What else holds in a run that is in bounds: every object is sound, and has five local attributes of
its own. -/
structure Sound (state : Attributes) : Prop where
  objects : ∀ name object, state.objects name = some object → object.Sound
  own : ∀ name object, state.objects name = some object → 5 ≤ state.locals

/-- A call is in bounds exactly when it leaves its object so. -/
theorem onObject_iff (inBounds : state.InBounds) (sound : state.Sound) (name : Nat)
    (call : BleObject → BleObject) (allowed : BleObject → Prop)
    (exactly : ∀ found, state.objects name = some found →
      ((call found).InBounds ↔ allowed found) ∧ ((call found).InBounds → (call found).Sound)) :
    ((state.onObject name call).InBounds ↔
        ∀ found, state.objects name = some found → allowed found) ∧
      ((state.onObject name call).InBounds → (state.onObject name call).Sound) := by
  have here : (state.onObject name call).objects name = (state.objects name).map call := if_pos rfl
  have elsewhere : ∀ other, other ≠ name →
      (state.onObject name call).objects other = state.objects other := fun other there => if_neg there
  have called : (state.onObject name call).InBounds → ∀ found, state.objects name = some found →
      (call found).InBounds := by
    intro next found same
    have both := next.objects name (call found) (by rw [here, same]; rfl)
    exact ⟨both.1, both.2⟩
  refine ⟨⟨fun next found same => (exactly found same).1.mp (called next found same), fun may => ?_⟩,
    fun next => ⟨?_, ?_⟩⟩
  · refine ⟨inBounds.locals, inBounds.remotes, fun other object same => ?_⟩
    by_cases there : other = name
    · rw [there, here] at same
      obtain ⟨found, before, rfl⟩ := Option.map_eq_some_iff.mp same
      have next := (exactly found before).1.mpr (may found before)
      exact ⟨next.localAttributes, next.remoteAttributes⟩
    · rw [elsewhere other there] at same
      exact inBounds.objects other object same
  · intro other object same
    by_cases there : other = name
    · rw [there, here] at same
      obtain ⟨found, before, rfl⟩ := Option.map_eq_some_iff.mp same
      exact (exactly found before).2 (called next found before)
    · rw [elsewhere other there] at same
      exact sound.objects other object same
  · intro other object same
    by_cases there : other = name
    · rw [there, here] at same
      obtain ⟨found, before, _⟩ := Option.map_eq_some_iff.mp same
      exact sound.own name found before
    · rw [elsewhere other there] at same
      exact sound.own other object same

/-- A counter of one byte keeps its number exactly when it does not wrap. -/
theorem counter_iff {counter : UInt8} {number : Nat} (count : counter.toNat = number) (more : UInt8) :
    (counter + more).toNat = number + more.toNat ↔ number + more.toNat ≤ 255 := by
  have bound := (counter + more).toNat_lt
  constructor
  · intro same
    omega
  · intro small
    rw [UInt8.toNat_add, count]
    omega

theorem construct_iff (name : Nat) (kind : RoleKind) (inBounds : state.InBounds) (sound : state.Sound) :
    ((state.step (.construct name kind)).InBounds ↔ state.Allows (.construct name kind)) ∧
      ((state.step (.construct name kind)).InBounds → (state.step (.construct name kind)).Sound) := by
  cases there : state.objects name with
  | some object =>
    have after : state.step (.construct name kind) = state := by
      unfold step
      dsimp only
      rw [there]
    rw [after]
    refine ⟨iff_of_true inBounds fun none => ?_, fun _ => sound⟩
    rw [there] at none
    cases none
  | none =>
    have after : state.step (.construct name kind) =
        ⟨state.numLocal + 5, state.numRemote + 2, state.locals + 5, state.remotes + 2,
          Function.update state.objects name (some (.new kind))⟩ := by
      unfold step
      dsimp only
      rw [there]
    have locals := counter_iff inBounds.locals 5
    have remotes := counter_iff inBounds.remotes 2
    have found : ∀ other object, Function.update state.objects name (some (.new kind)) other = some object →
        object.Sound := by
      intro other object same
      by_cases here : other = name
      · rw [here, Function.update_self] at same
        obtain rfl := Option.some.inj same
        exact ⟨Tracked.sound_new, Tracked.sound_new⟩
      · rw [Function.update_of_ne here] at same
        exact sound.objects other object same
    rw [after]
    refine ⟨⟨fun next _ => ⟨locals.mp next.locals, remotes.mp next.remotes⟩, fun may => ?_⟩, fun _ => ?_⟩
    · obtain ⟨few, fewRemote⟩ := may there
      exact ⟨locals.mpr few, remotes.mpr fewRemote, fun other object same =>
        ⟨(found other object same).localAttributes.inBounds,
          (found other object same).remoteAttributes.inBounds⟩⟩
    · exact ⟨found, fun _ _ _ => Nat.le_add_left 5 state.locals⟩

/-- **One step** is in bounds exactly when it is allowed, and leaves every object sound. -/
theorem step_iff (input : AttributeInput) (inBounds : state.InBounds) (sound : state.Sound) :
    ((state.step input).InBounds ↔ state.Allows input) ∧
      ((state.step input).InBounds → (state.step input).Sound) := by
  cases input with
  | newLocal added =>
    have exactly := counter_iff inBounds.locals 1
    refine ⟨⟨fun next => exactly.mp next.locals, fun small => ?_⟩, fun _ => ?_⟩
    · exact ⟨exactly.mpr small, inBounds.remotes, inBounds.objects⟩
    · exact ⟨sound.objects, fun name object same => Nat.le_succ_of_le (sound.own name object same)⟩
  | newRemote added =>
    have exactly := counter_iff inBounds.remotes 1
    refine ⟨⟨fun next => exactly.mp next.remotes, fun small => ?_⟩, fun _ => ⟨sound.objects, sound.own⟩⟩
    exact ⟨inBounds.locals, exactly.mpr small, inBounds.objects⟩
  | construct name kind => exact construct_iff name kind inBounds sound
  | addLocal name added =>
    exact onObject_iff inBounds sound name _ _ fun found same =>
      BleObject.addLocal_iff (sound.objects name found same) inBounds.locals (sound.own name found same)
  | addRemote name added =>
    exact onObject_iff inBounds sound name _ _ fun found same =>
      BleObject.addRemote_iff (sound.objects name found same) inBounds.remotes
  | begin name =>
    exact onObject_iff inBounds sound name _ _ fun found same =>
      BleObject.begin_iff (sound.objects name found same) inBounds.locals (sound.own name found same) _ _

theorem initial_right : initial.InBounds ∧ initial.Sound := by
  have none : ∀ name object, initial.objects name ≠ some object := fun _ _ same => by cases same
  exact ⟨⟨rfl, rfl, fun name object same => absurd same (none name object)⟩,
    fun name object same => absurd same (none name object),
    fun name object same => absurd same (none name object)⟩

end Attributes

/-- **Exactly when the tables of a run are in bounds**: no more than 255 attributes of a kind are
constructed, and no object is given more than there were at its first add. -/
theorem tables_in_bounds_iff (inputs : List AttributeInput) :
    Always Attributes.step Attributes.InBounds .initial inputs ↔
      EachStep Attributes.step Attributes.Allows .initial inputs := by
  have keep : ∀ (state : Attributes) (input : AttributeInput), state.InBounds ∧ state.Sound → True →
      (state.step input).InBounds → (state.step input).InBounds ∧ (state.step input).Sound :=
    fun state input right _ next => ⟨next, (state.step_iff input right.1 right.2).2 next⟩
  exact always_iff_of_invariant keep (fun state input right _ => (state.step_iff input right.1 right.2).1)
    Attributes.initial_right.1 Attributes.initial_right (eachStep_of_forall (fun _ _ => trivial) _ _)

/-- The attributes added, with the object and the kind of the table. -/
def added : AttributeInput → Option (Nat × Nat × Bool)
  | .addLocal object added => some (object, added, true)
  | .addRemote object added => some (object, added, false)
  | _ => none

/-- **A second `begin` overflows**: the table of a peripheral with one remote attribute has three slots,
and each `begin` appends two. -/
theorem tables_overflow :
    ¬ ∀ inputs : List AttributeInput, (inputs.filterMap added).Nodup →
      Always Attributes.step Attributes.InBounds .initial inputs := by
  intro always
  have inBounds := (always [.construct 0 .peripheral, .newRemote 0, .addRemote 0 0, .begin 0, .begin 0]
    (by decide)).last
  obtain ⟨slots, same, below⟩ := (inBounds.objects 0 _ rfl).2.writes 4 (by decide)
  obtain rfl := Option.some.inj same
  exact absurd below (by decide)

end PrimoCore.Ble
