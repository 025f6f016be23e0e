/-
**Entries under headings.**

A list in which some entries are headings, and the items between them. Each item belongs to the last heading
before it.

* `underHeadings` — the items in order, each put together with its heading.
* `underHeadings_concat` — **one more entry**, as a scan that remembers the last heading meets it.
* `length_underHeadings` — the items are counted by the list alone.
-/

import Mathlib.Data.List.Basic
import Mathlib.Data.List.Induction
import Mathlib.Tactic.SplitIfs

namespace PrimoCore.Lib

variable {α β : Type*} (heading item : α → Bool) (make : α → Option α → β)

/-- The last heading of a list. -/
def lastHeading (entries : List α) : Option α := (entries.filter heading).getLast?

/-- The items in order, each made with the last heading before it. -/
def underHeadings (entries : List α) : List β :=
  entries.zipIdx.filterMap fun (entry, index) =>
    if item entry then some (make entry (lastHeading heading (entries.take index))) else none

@[simp] theorem lastHeading_nil : lastHeading heading [] = none := rfl

@[simp] theorem underHeadings_nil : underHeadings heading item make [] = [] := rfl

variable {heading item make} {entries : List α} {entry : α}

theorem lastHeading_concat : lastHeading heading (entries ++ [entry]) =
    if heading entry then some entry else lastHeading heading entries := by
  unfold lastHeading
  rw [List.filter_append]
  split_ifs with is_heading
  · rw [List.filter_cons_of_pos is_heading]
    simp
  · rw [List.filter_cons_of_neg is_heading]
    simp

/-- **One more entry.** -/
theorem underHeadings_concat : underHeadings heading item make (entries ++ [entry]) =
    underHeadings heading item make entries ++
      if item entry then [make entry (lastHeading heading entries)] else [] := by
  unfold underHeadings
  rw [List.zipIdx_append, List.filterMap_append]
  congr 1
  · refine List.filterMap_congr fun ⟨other, index⟩ member => ?_
    have inside : index ≤ entries.length := by
      have below := List.snd_lt_of_mem_zipIdx member
      omega
    simp only [List.take_append_of_le_length inside]
  · split_ifs with is_item <;> simp [is_item]

/-- As many as there are items. -/
theorem length_underHeadings (entries : List α) :
    (underHeadings heading item make entries).length = entries.countP item := by
  induction entries using List.reverseRecOn with
  | nil => rfl
  | append_singleton entries entry ih =>
    rw [underHeadings_concat, List.length_append, ih, List.countP_append]
    split_ifs with is_item <;> simp [is_item]

end PrimoCore.Lib
