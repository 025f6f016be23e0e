/-
**Tables of slots.**

A table of fixed size holds keys, one a slot; a reserved value marks an empty slot. A slot is found by a
loop that stops at the first match, and past the end of the table when there is none.

* `findSlot` — the loop; `findSlot_lt_iff` says when it finds a slot.
* `Holds` — **the table holds exactly some keys**, each in one slot.
* `Holds.insert`, `Holds.remove` — a fresh key in the first empty slot, and emptying the slot of a key.
* `Holds.occupied_length`, `Holds.full_iff` — the occupied slots are as many as the keys, and the loop
  finds no empty slot exactly when there are as many keys as slots.
-/

import Mathlib.Data.List.Nodup
import Mathlib.Data.List.Perm.Basic
import Mathlib.Logic.Function.Basic
import PrimoCore.Lib.Buffer

namespace PrimoCore.Lib

variable {Key : Type*}

section Find

variable [DecidableEq Key]

/-- The search loop: the first slot with a key, or the size of the table. -/
def findSlot (table : Memory Key) (key : Key) (size : Nat) : Nat :=
  (List.range size).findIdx fun slot => table slot = key

/-- The occupied slots, in order. -/
def occupied (table : Memory Key) (empty : Key) (size : Nat) : List Nat :=
  (List.range size).filter fun slot => table slot ≠ empty

variable {table : Memory Key} {key : Key} {size : Nat}

theorem findSlot_le : findSlot table key size ≤ size := by
  have bound : findSlot table key size ≤ (List.range size).length := List.findIdx_le_length
  rwa [List.length_range] at bound

/-- The loop finds a slot exactly when there is one. -/
theorem findSlot_lt_iff : findSlot table key size < size ↔ ∃ slot < size, table slot = key := by
  have exists_iff : findSlot table key size < (List.range size).length ↔
      ∃ slot ∈ List.range size, decide (table slot = key) = true := List.findIdx_lt_length
  rw [List.length_range] at exists_iff
  rw [exists_iff]
  simp

/-- The slot that is found has the key. -/
theorem findSlot_holds (found : findSlot table key size < size) :
    table (findSlot table key size) = key := by
  have inside : findSlot table key size < (List.range size).length := by rwa [List.length_range]
  have matched : decide (table ((List.range size)[findSlot table key size]) = key) = true :=
    List.findIdx_getElem (w := inside)
  rwa [List.getElem_range, decide_eq_true_eq] at matched

/-- No slot before the one that is found has the key. -/
theorem findSlot_first {slot : Nat} (before : slot < findSlot table key size) : table slot ≠ key := by
  intro here
  have passed := List.not_of_lt_findIdx (p := fun slot => decide (table slot = key)) before
  rw [List.getElem_range, here] at passed
  simp at passed

/-- A slot with a key that none before has is the one that is found. -/
theorem findSlot_eq {slot : Nat} (inside : slot < size) (here : table slot = key)
    (first : ∀ before < slot, table before ≠ key) : findSlot table key size = slot := by
  have found : findSlot table key size < size := findSlot_lt_iff.mpr ⟨slot, inside, here⟩
  rcases Nat.lt_trichotomy (findSlot table key size) slot with before | same | after
  · exact absurd (findSlot_holds found) (first _ before)
  · exact same
  · exact absurd here (findSlot_first after)

theorem findSlot_eq_size (none : ∀ slot < size, table slot ≠ key) : findSlot table key size = size := by
  have notFound : ¬ findSlot table key size < size := by
    rw [findSlot_lt_iff]
    rintro ⟨slot, inside, here⟩
    exact none slot inside here
  have bound : findSlot table key size ≤ size := findSlot_le
  omega

/-- A search finds the same slot where the key is in the same slots. -/
theorem findSlot_congr {table' : Memory Key}
    (same : ∀ slot < size, table' slot = key ↔ table slot = key) :
    findSlot table' key size = findSlot table key size := by
  by_cases found : findSlot table key size < size
  · refine findSlot_eq found ((same _ found).mpr (findSlot_holds found)) fun before first here => ?_
    exact findSlot_first first ((same before (Nat.lt_trans first found)).mp here)
  · have missing : ∀ slot < size, table slot ≠ key := fun slot inside here =>
      found (findSlot_lt_iff.mpr ⟨slot, inside, here⟩)
    rw [findSlot_eq_size missing,
      findSlot_eq_size fun slot inside here => missing slot inside ((same slot inside).mp here)]

theorem mem_occupied {empty : Key} {slot : Nat} :
    slot ∈ occupied table empty size ↔ slot < size ∧ table slot ≠ empty := by
  simp [occupied]

end Find

/-- **The table holds exactly the keys**, each in one slot. -/
structure Holds (table : Memory Key) (empty : Key) (size : Nat) (keys : List Key) : Prop where
  nodup : keys.Nodup
  proper : empty ∉ keys
  placed : ∀ key ∈ keys, ∃ slot < size, table slot = key
  owned : ∀ slot < size, table slot ≠ empty → table slot ∈ keys
  once : ∀ slot < size, ∀ other < size, table slot ≠ empty → table slot = table other → slot = other

theorem holds_nil {table : Memory Key} {empty : Key} {size : Nat}
    (clear : ∀ slot < size, table slot = empty) : Holds table empty size [] where
  nodup := List.nodup_nil
  proper := List.not_mem_nil
  placed := fun _ member => absurd member List.not_mem_nil
  owned := fun slot inside used => absurd (clear slot inside) used
  once := fun slot inside _ _ used _ => absurd (clear slot inside) used

namespace Holds

variable {table : Memory Key} {empty : Key} {size : Nat} {keys : List Key}
  (holds : Holds table empty size keys)

include holds

theorem ne_empty {key : Key} (member : key ∈ keys) : key ≠ empty :=
  fun same => holds.proper (same ▸ member)

/-- Empty slots may be added to a table. -/
theorem widen {wider : Nat} (more : size ≤ wider)
    (clear : ∀ slot, size ≤ slot → slot < wider → table slot = empty) :
    Holds table empty wider keys where
  nodup := holds.nodup
  proper := holds.proper
  placed := fun key member =>
    have ⟨slot, inside, here⟩ := holds.placed key member
    ⟨slot, Nat.lt_of_lt_of_le inside more, here⟩
  owned := by
    intro slot inside used
    by_cases old : slot < size
    · exact holds.owned slot old used
    · exact absurd (clear slot (Nat.le_of_not_lt old) inside) used
  once := by
    intro slot inside other otherInside used same
    have old : slot < size := Nat.lt_of_not_le fun behind => used (clear slot behind inside)
    have otherOld : other < size := Nat.lt_of_not_le fun behind =>
      used (same.trans (clear other behind otherInside))
    exact holds.once slot old other otherOld used same

variable [DecidableEq Key]

/-- The loop finds the slot of a key that is held. -/
theorem find_lt {key : Key} (member : key ∈ keys) : findSlot table key size < size :=
  findSlot_lt_iff.mpr (holds.placed key member)

theorem table_find {key : Key} (member : key ∈ keys) : table (findSlot table key size) = key :=
  findSlot_holds (holds.find_lt member)

/-- The slot of a key is the only one with it. -/
theorem eq_find {key : Key} (member : key ∈ keys) {slot : Nat} (inside : slot < size)
    (here : table slot = key) : slot = findSlot table key size := by
  have found := holds.table_find member
  exact holds.once slot inside _ (holds.find_lt member) (by rw [here]; exact holds.ne_empty member)
    (here.trans found.symm)

/-- **The occupied slots hold the keys**, in some order. -/
theorem occupied_perm : ((occupied table empty size).map table).Perm keys := by
  have distinct : ((occupied table empty size).map table).Nodup := by
    apply List.Nodup.map_on
    · intro slot here other there same
      rw [mem_occupied] at here there
      exact holds.once slot here.1 other there.1 here.2 same
    · exact List.Nodup.filter _ List.nodup_range
  rw [List.perm_ext_iff_of_nodup distinct holds.nodup]
  intro key
  rw [List.mem_map]
  constructor
  · rintro ⟨slot, here, rfl⟩
    rw [mem_occupied] at here
    exact holds.owned slot here.1 here.2
  · intro member
    exact ⟨findSlot table key size, mem_occupied.mpr
      ⟨holds.find_lt member, by rw [holds.table_find member]; exact holds.ne_empty member⟩,
      holds.table_find member⟩

theorem occupied_length : (occupied table empty size).length = keys.length := by
  have counted := holds.occupied_perm.length_eq
  rwa [List.length_map] at counted

/-- There is an empty slot exactly when there are fewer keys than slots. -/
theorem find_empty_lt_iff : findSlot table empty size < size ↔ keys.length < size := by
  have exists_iff := List.length_filter_lt_length_iff_exists (p := fun slot => table slot ≠ empty)
    (l := List.range size)
  rw [List.length_range] at exists_iff
  rw [findSlot_lt_iff, ← holds.occupied_length]
  constructor
  · rintro ⟨slot, inside, clear⟩
    exact exists_iff.mpr ⟨slot, List.mem_range.mpr inside, by simpa using clear⟩
  · intro fewer
    obtain ⟨slot, member, clear⟩ := exists_iff.mp fewer
    exact ⟨slot, List.mem_range.mp member, by simpa using clear⟩

theorem length_le : keys.length ≤ size := by
  have fewer := List.length_filter_le (fun slot => decide (table slot ≠ empty)) (List.range size)
  rw [List.length_range] at fewer
  rw [← holds.occupied_length]
  exact fewer

/-- **A fresh key goes into the first empty slot.** -/
theorem insert {key : Key} (room : findSlot table empty size < size) (fresh : key ∉ keys)
    (notEmpty : key ≠ empty) :
    Holds (Function.update table (findSlot table empty size) key) empty size (key :: keys) where
  nodup := List.nodup_cons.mpr ⟨fresh, holds.nodup⟩
  proper := by
    rw [List.mem_cons, not_or]
    exact ⟨Ne.symm notEmpty, holds.proper⟩
  placed := by
    intro other member
    rcases List.mem_cons.mp member with rfl | old
    · exact ⟨_, room, Function.update_self ..⟩
    · have elsewhere : findSlot table other size ≠ findSlot table empty size := by
        intro same
        have there := holds.table_find old
        rw [same, findSlot_holds room] at there
        exact holds.ne_empty old there.symm
      exact ⟨_, holds.find_lt old, by rw [Function.update_of_ne elsewhere, holds.table_find old]⟩
  owned := by
    intro slot inside used
    by_cases here : slot = findSlot table empty size
    · rw [here, Function.update_self]
      exact List.mem_cons_self ..
    · rw [Function.update_of_ne here] at used ⊢
      exact List.mem_cons_of_mem _ (holds.owned slot inside used)
  once := by
    intro slot inside other otherInside used same
    by_cases here : slot = findSlot table empty size
    · by_cases there : other = findSlot table empty size
      · rw [here, there]
      · rw [here, Function.update_self] at same used
        rw [Function.update_of_ne there] at same
        exact absurd (holds.owned other otherInside (same ▸ used)) (same ▸ fresh)
    · rw [Function.update_of_ne here] at same used
      by_cases there : other = findSlot table empty size
      · rw [there, Function.update_self] at same
        exact absurd (holds.owned slot inside used) (same ▸ fresh)
      · rw [Function.update_of_ne there] at same
        exact holds.once slot inside other otherInside used same

/-- **Emptying the slot of a key** removes it, and only it. -/
theorem remove {key : Key} (member : key ∈ keys) :
    Holds (Function.update table (findSlot table key size) empty) empty size
      (keys.filter (· ≠ key)) where
  nodup := holds.nodup.filter _
  proper := fun inside => holds.proper (List.mem_filter.mp inside).1
  placed := by
    intro other remains
    rw [List.mem_filter, decide_eq_true_eq] at remains
    have elsewhere : findSlot table other size ≠ findSlot table key size := by
      intro same
      have there := holds.table_find remains.1
      rw [same, holds.table_find member] at there
      exact remains.2 there.symm
    exact ⟨_, holds.find_lt remains.1,
      by rw [Function.update_of_ne elsewhere, holds.table_find remains.1]⟩
  owned := by
    intro slot inside used
    by_cases here : slot = findSlot table key size
    · rw [here, Function.update_self] at used
      exact absurd rfl used
    · rw [Function.update_of_ne here] at used ⊢
      rw [List.mem_filter, decide_eq_true_eq]
      exact ⟨holds.owned slot inside used, fun same => here (holds.eq_find member inside same)⟩
  once := by
    intro slot inside other otherInside used same
    by_cases here : slot = findSlot table key size
    · rw [here, Function.update_self] at used
      exact absurd rfl used
    · rw [Function.update_of_ne here] at used same
      by_cases there : other = findSlot table key size
      · rw [there, Function.update_self] at same
        exact absurd same used
      · rw [Function.update_of_ne there] at same
        exact holds.once slot inside other otherInside used same

/-- Where no slot is empty, there are as many keys as slots. -/
theorem full_iff : findSlot table empty size = size ↔ keys.length = size := by
  have exists_iff := holds.find_empty_lt_iff
  have bound : findSlot table empty size ≤ size := findSlot_le
  have fewer := holds.length_le
  omega

end Holds

end PrimoCore.Lib
