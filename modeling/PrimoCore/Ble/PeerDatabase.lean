/-
**A peer that answers discovery.**

The attributes of a peer, as the attribute protocol lets a client discover them: services in increasing
disjoint ranges, each with its characteristics in increasing handles.

* `PeerDatabase` — services and characteristics, with the order of their handles.
* `Request`, `Answers` — the requests of a discovery, and every answer a conforming peer may give: any
  non-empty first part of what there is from the start handle on, or an error.
* `servicesFrom_split`, `charsIn_split` — what is left after the first answers is what is asked for next.
-/

import PrimoCore.Ble.Stack

namespace PrimoCore.Ble

/-- A primary service of a peer. -/
structure PeerService where
  uuid : Uuid
  handleRange : HandleRange
  chars : List FoundChar

/-- What a peer reports of a service. -/
def PeerService.found (service : PeerService) : FoundService := ⟨service.uuid, service.handleRange⟩

/-- **The attributes of a peer.** Ranges are valid, increasing and disjoint, UUIDs of services are
distinct, and each characteristic has its declaration and then its value in the range of its service,
behind those of the one before. -/
structure PeerDatabase where
  services : List PeerService
  valid : ∀ service ∈ services, 0 < service.handleRange.startHandle ∧
    service.handleRange.startHandle ≤ service.handleRange.endHandle
  increasing : services.Pairwise fun first second =>
    first.handleRange.endHandle < second.handleRange.startHandle
  distinct : (services.map PeerService.uuid).Nodup
  inside : ∀ service ∈ services, ∀ found ∈ service.chars,
    service.handleRange.startHandle ≤ found.handleDecl ∧ found.handleDecl < found.handleValue ∧
      found.handleValue ≤ service.handleRange.endHandle
  charsIncreasing : ∀ service ∈ services, service.chars.Pairwise fun first second =>
    first.handleValue < second.handleDecl

/-- A request of a discovery. -/
inductive Request where
  | services (startHandle : UInt16)
  | characteristics (handleRange : HandleRange)

namespace PeerDatabase

/-- The services at or after a handle. -/
def servicesFrom (db : PeerDatabase) (startHandle : UInt16) : List FoundService :=
  (db.services.filter fun service => startHandle ≤ service.handleRange.startHandle).map
    PeerService.found

/-- The characteristics declared in a range. -/
def charsIn (db : PeerDatabase) (range : HandleRange) : List FoundChar :=
  (db.services.flatMap PeerService.chars).filter fun found => range.has found.handleDecl

/-- The characteristics of the service with a UUID. -/
def charsOf (db : PeerDatabase) (uuid : Uuid) : List FoundChar :=
  match db.services.find? (fun service => service.uuid = uuid) with
  | some service => service.chars
  | none => []

end PeerDatabase

/-- **The answers of a conforming peer.** An error event carries no services and no characteristics that
matter. -/
inductive Answers (db : PeerDatabase) : Request → EventParams → Prop
  | invalidHandle (services last) :
      Answers db (.services 0) (.primSrvcDiscRsp statusInvalidHandle services last)
  | noServices {startHandle} (services last) (positive : startHandle ≠ 0)
      (none : db.servicesFrom startHandle = []) :
      Answers db (.services startHandle) (.primSrvcDiscRsp statusAttributeNotFound services last)
  | someServices {startHandle} {batch last} (positive : startHandle ≠ 0)
      (first : batch ++ [last] <+: db.servicesFrom startHandle) :
      Answers db (.services startHandle) (.primSrvcDiscRsp statusSuccess batch last)
  | invalidRange {range} (chars) (invalid : range.startHandle = 0 ∨ range.endHandle < range.startHandle) :
      Answers db (.characteristics range) (.charDiscRsp statusInvalidHandle chars)
  | noChars {range} (chars) (positive : range.startHandle ≠ 0)
      (valid : range.startHandle ≤ range.endHandle) (none : db.charsIn range = []) :
      Answers db (.characteristics range) (.charDiscRsp statusAttributeNotFound chars)
  | someChars {range} {chars} (positive : range.startHandle ≠ 0)
      (valid : range.startHandle ≤ range.endHandle) (some : chars ≠ [])
      (first : chars <+: db.charsIn range) :
      Answers db (.characteristics range) (.charDiscRsp statusSuccess chars)

/-- A conforming peer answers every request. -/
theorem exists_answer (db : PeerDatabase) (request : Request) : ∃ params, Answers db request params := by
  cases request with
  | services startHandle =>
    by_cases zero : startHandle = 0
    · subst zero
      exact ⟨_, .invalidHandle [] ⟨⟨0, 0⟩, .zero⟩⟩
    · cases left : db.servicesFrom startHandle with
      | nil => exact ⟨_, .noServices [] ⟨⟨0, 0⟩, .zero⟩ zero left⟩
      | cons first rest =>
        exact ⟨.primSrvcDiscRsp statusSuccess [] first, .someServices zero (left ▸ ⟨rest, rfl⟩)⟩
  | characteristics range =>
    by_cases invalid : range.startHandle = 0 ∨ range.endHandle < range.startHandle
    · exact ⟨_, .invalidRange [] invalid⟩
    · rw [not_or, UInt16.not_lt] at invalid
      by_cases none : db.charsIn range = []
      · exact ⟨_, .noChars [] invalid.1 invalid.2 none⟩
      · exact ⟨_, .someChars invalid.1 invalid.2 none List.prefix_rfl⟩

/-! ### What is left to discover -/

/-- The handle the next request for services starts at. -/
def nextStart (done : List PeerService) : UInt16 :=
  match done.getLast? with
  | some last => last.handleRange.endHandle + 1
  | none => 1

/-- The handle the next request for characteristics starts at. -/
def nextDecl (service : PeerService) (done : List FoundChar) : UInt16 :=
  match done.getLast? with
  | some last => last.handleValue
  | none => service.handleRange.startHandle

theorem nextStart_concat (front : List PeerService) (last : PeerService) :
    nextStart (front ++ [last]) = last.handleRange.endHandle + 1 := by
  rw [nextStart, List.getLast?_concat]

theorem nextDecl_concat (service : PeerService) (front : List FoundChar) (last : FoundChar) :
    nextDecl service (front ++ [last]) = last.handleValue := by
  rw [nextDecl, List.getLast?_concat]

theorem has_iff {start last handle : UInt16} : HandleRange.has ⟨start, last⟩ handle = true ↔
    start.toNat ≤ handle.toNat ∧ handle.toNat ≤ last.toNat := by
  simp [HandleRange.has, UInt16.le_iff_toNat_le]

/-- A filter that drops the first part of a list and keeps the second. -/
theorem filter_split {α : Type*} {keep : α → Bool} {done rest : List α}
    (drops : ∀ element ∈ done, keep element = false) (keeps : ∀ element ∈ rest, keep element = true) :
    (done ++ rest).filter keep = rest := by
  rw [List.filter_append, List.filter_eq_self.mpr keeps, List.filter_eq_nil_iff.mpr, List.nil_append]
  intro element member
  rw [drops element member]
  exact Bool.false_ne_true

theorem succ_toNat {handle : UInt16} (positive : handle + 1 ≠ 0) :
    (handle + 1).toNat = handle.toNat + 1 := by
  have bound := handle.toNat_lt
  have nonzero : (handle + 1).toNat ≠ 0 := fun zero => positive (UInt16.toNat_inj.mp zero)
  rw [UInt16.toNat_add, UInt16.toNat_one] at nonzero ⊢
  omega

section Left

variable {db : PeerDatabase}

/-- **Services that are left**: where the end handle does not wrap, they are those at or after the next
start handle. -/
theorem servicesFrom_split {done rest : List PeerService} (split : db.services = done ++ rest)
    (positive : nextStart done ≠ 0) :
    db.servicesFrom (nextStart done) = rest.map PeerService.found := by
  rw [PeerDatabase.servicesFrom, split]
  congr 1
  have valid := db.valid
  have increasing := db.increasing
  rw [split] at valid increasing
  rw [List.pairwise_append] at increasing
  obtain ⟨ordered, _, across⟩ := increasing
  rcases List.eq_nil_or_concat done with rfl | ⟨front, last, rfl⟩
  · apply filter_split (fun _ member => absurd member List.not_mem_nil)
    intro service member
    have first := (valid service (List.mem_append_right _ member)).1
    rw [UInt16.lt_iff_toNat_lt] at first
    rw [decide_eq_true_eq, UInt16.le_iff_toNat_le]
    exact first
  · rw [List.concat_eq_append, nextStart_concat] at *
    have start := succ_toNat positive
    apply filter_split
    · intro service member
      have range := (valid service (List.mem_append_left _ member)).2
      have lastRange := (valid last (by simp)).2
      have before : service.handleRange.endHandle.toNat ≤ last.handleRange.endHandle.toNat := by
        rcases List.mem_append.mp member with inFront | isLast
        · have less := (List.pairwise_append.mp ordered).2.2 service inFront last (by simp)
          rw [UInt16.lt_iff_toNat_lt] at less
          rw [UInt16.le_iff_toNat_le] at lastRange
          omega
        · obtain rfl := List.mem_singleton.mp isLast
          exact Nat.le_refl _
      rw [UInt16.le_iff_toNat_le] at range
      rw [decide_eq_false_iff_not, UInt16.le_iff_toNat_le, start]
      omega
    · intro service member
      have less := across last (by simp) service member
      rw [UInt16.lt_iff_toNat_lt] at less
      rw [decide_eq_true_eq, UInt16.le_iff_toNat_le, start]
      omega

/-- The start handle wraps exactly where the services end at the last handle. -/
theorem nextStart_eq_zero_iff {done : List PeerService} :
    nextStart done = 0 ↔ ∃ last ∈ done.getLast?, last.handleRange.endHandle = 0xFFFF := by
  rcases List.eq_nil_or_concat done with rfl | ⟨front, last, rfl⟩
  · simp [nextStart]
  · rw [List.concat_eq_append, nextStart_concat, List.getLast?_concat]
    simp only [Option.mem_some_iff, exists_eq_left']
    rw [← UInt16.toNat_inj, ← UInt16.toNat_inj, UInt16.toNat_add, UInt16.toNat_one]
    have bound := last.handleRange.endHandle.toNat_lt
    show (_ + 1) % 65536 = 0 ↔ _ = 65535
    omega

/-- Where it wraps, no services are left. -/
theorem rest_of_wrap {done rest : List PeerService} (split : db.services = done ++ rest)
    (wraps : nextStart done = 0) : rest = [] := by
  obtain ⟨last, isLast, wrapped⟩ := nextStart_eq_zero_iff.mp wraps
  have increasing := db.increasing
  rw [split, List.pairwise_append] at increasing
  rw [List.eq_nil_iff_forall_not_mem]
  intro service member
  have less := increasing.2.2 last (List.mem_of_getLast? isLast) service member
  have bound := service.handleRange.startHandle.toNat_lt
  rw [wrapped, UInt16.lt_iff_toNat_lt] at less
  replace less : 65535 < service.handleRange.startHandle.toNat := less
  omega

/-- The next start handle is in the range of the service, behind the declarations that are done and
before those that are left. -/
theorem nextDecl_bounds {service : PeerService} (member : service ∈ db.services)
    {done rest : List FoundChar} (split : service.chars = done ++ rest) :
    service.handleRange.startHandle.toNat ≤ (nextDecl service done).toNat ∧
      (nextDecl service done).toNat ≤ service.handleRange.endHandle.toNat ∧
      (∀ found ∈ done, found.handleDecl.toNat < (nextDecl service done).toNat) ∧
      ∀ found ∈ rest, (nextDecl service done).toNat ≤ found.handleDecl.toNat ∧
        found.handleDecl.toNat ≤ service.handleRange.endHandle.toNat := by
  have valid := (db.valid service member).2
  have inside := db.inside service member
  have increasing := db.charsIncreasing service member
  rw [split] at inside increasing
  rw [List.pairwise_append] at increasing
  obtain ⟨ordered, _, across⟩ := increasing
  simp only [UInt16.le_iff_toNat_le, UInt16.lt_iff_toNat_lt] at valid inside ordered across
  have fits : ∀ found ∈ rest, service.handleRange.startHandle.toNat ≤ found.handleDecl.toNat ∧
      found.handleDecl.toNat ≤ service.handleRange.endHandle.toNat := by
    intro found foundIn
    have bounds := inside found (List.mem_append_right _ foundIn)
    omega
  rcases List.eq_nil_or_concat done with rfl | ⟨front, last, rfl⟩
  · exact ⟨Nat.le_refl _, valid, fun _ foundIn => absurd foundIn List.not_mem_nil, fits⟩
  · rw [List.concat_eq_append] at *
    rw [nextDecl_concat]
    have lastBounds := inside last (by simp)
    refine ⟨by omega, lastBounds.2.2, fun found foundIn => ?_, fun found foundIn => ?_⟩
    · rcases List.mem_append.mp foundIn with inFront | isLast
      · have less := (List.pairwise_append.mp ordered).2.2 found inFront last (by simp)
        have bounds := inside found (List.mem_append_left _ foundIn)
        omega
      · obtain rfl := List.mem_singleton.mp isLast
        exact lastBounds.2.1
    · have less := across last (by simp) found foundIn
      exact ⟨Nat.le_of_lt less, (fits found foundIn).2⟩

/-- **Characteristics that are left**: they are those declared from the next start handle on, in the
range of the service. -/
theorem charsIn_split {service : PeerService} (member : service ∈ db.services)
    {done rest : List FoundChar} (split : service.chars = done ++ rest) :
    db.charsIn ⟨nextDecl service done, service.handleRange.endHandle⟩ = rest := by
  obtain ⟨before, after, around⟩ := List.append_of_mem member
  have increasing := db.increasing
  have inside := db.inside
  rw [around] at increasing inside
  rw [List.pairwise_append, List.pairwise_cons] at increasing
  obtain ⟨_, ⟨behind, _⟩, across⟩ := increasing
  have start := nextDecl_bounds member split
  -- The characteristics of the services before lie before the range, those of the services after it
  -- behind.
  have early : ∀ found ∈ before.flatMap PeerService.chars,
      found.handleDecl.toNat < service.handleRange.startHandle.toNat := by
    intro found foundIn
    obtain ⟨other, otherIn, foundIn⟩ := List.mem_flatMap.mp foundIn
    obtain ⟨_, decl, value⟩ := inside other (List.mem_append_left _ otherIn) found foundIn
    have less := across other otherIn service (List.mem_cons_self ..)
    rw [UInt16.lt_iff_toNat_lt] at decl less
    rw [UInt16.le_iff_toNat_le] at value
    omega
  have late : ∀ found ∈ after.flatMap PeerService.chars,
      service.handleRange.endHandle.toNat < found.handleDecl.toNat := by
    intro found foundIn
    obtain ⟨other, otherIn, foundIn⟩ := List.mem_flatMap.mp foundIn
    obtain ⟨decl, _, _⟩ := inside other
      (List.mem_append_right _ (List.mem_cons_of_mem _ otherIn)) found foundIn
    have less := behind other otherIn
    rw [UInt16.lt_iff_toNat_lt] at less
    rw [UInt16.le_iff_toNat_le] at decl
    omega
  have noneEarly : (before.flatMap PeerService.chars).filter (fun found =>
      HandleRange.has ⟨nextDecl service done, service.handleRange.endHandle⟩ found.handleDecl) = [] := by
    rw [List.filter_eq_nil_iff]
    intro found foundIn
    have less := early found foundIn
    rw [has_iff]
    omega
  have noneLate : (after.flatMap PeerService.chars).filter (fun found =>
      HandleRange.has ⟨nextDecl service done, service.handleRange.endHandle⟩ found.handleDecl) = [] := by
    rw [List.filter_eq_nil_iff]
    intro found foundIn
    have less := late found foundIn
    rw [has_iff]
    omega
  have left : (done ++ rest).filter (fun found =>
      HandleRange.has ⟨nextDecl service done, service.handleRange.endHandle⟩ found.handleDecl) = rest := by
    apply filter_split
    · intro found foundIn
      have less := start.2.2.1 found foundIn
      rw [Bool.eq_false_iff, ne_eq, has_iff]
      omega
    · intro found foundIn
      rw [has_iff]
      exact start.2.2.2 found foundIn
  rw [PeerDatabase.charsIn, around, List.flatMap_append, List.flatMap_cons, split, List.filter_append,
    List.filter_append, noneEarly, noneLate, left, List.nil_append, List.append_nil]

end Left

end PrimoCore.Ble
