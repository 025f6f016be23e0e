/-
**Replacing a pattern in a text.**

Occurrences are replaced from the left: the first one, and then the first one behind it. A text may also
be worked through from the right: at each position, the last one first, the pattern is replaced if what
stands there by now starts with it.

* `replaceAll`, `replaceBack` — the two ways, and `hits`, `backHits` — how often each of them replaces.
* `occurrences` — where the pattern occurs, overlapping occurrences included.
* `firstAt` — the first occurrence; `replaceAll_firstAt` replaces it, `foldr_last` the last one.
* `Alone` — no occurrence but those replaced from the left starts in the text, when each of these is
  followed by the replacement.
* `replaceBack_eq_iff` — **both ways lead to the same text exactly when** the occurrences are alone, for a
  replacement that is longer than the pattern.
-/

import Mathlib.Data.List.Infix
import Mathlib.Order.Bounds.Defs
import Mathlib.Order.Interval.Set.Basic
import Mathlib.Tactic.SplitIfs

namespace PrimoCore.Lib

variable {α : Type*} [DecidableEq α] {find rep : List α}

/-! ### From the left -/

/-- The replacement from the left, when some characters of an occurrence are still to be passed over. -/
def replaceFrom (find rep : List α) : Nat → List α → List α
  | _, [] => []
  | skip + 1, _ :: rest => replaceFrom find rep skip rest
  | 0, char :: rest =>
      if find <+: char :: rest then rep ++ replaceFrom find rep (find.length - 1) rest
      else char :: replaceFrom find rep 0 rest

/-- **The replacement of all occurrences**, from the left and without overlap. -/
def replaceAll (find rep text : List α) : List α := replaceFrom find rep 0 text

/-- The number of occurrences that are replaced from the left. -/
def hits (find : List α) : Nat → List α → Nat
  | _, [] => 0
  | skip + 1, _ :: rest => hits find skip rest
  | 0, char :: rest =>
      if find <+: char :: rest then hits find (find.length - 1) rest + 1 else hits find 0 rest

/-- The first occurrence. -/
def firstAt (find : List α) : List α → Option Nat
  | [] => if find = [] then some 0 else none
  | char :: rest => if find <+: char :: rest then some 0 else (firstAt find rest).map (· + 1)

/-! ### From the right -/

/-- One position: the pattern is replaced if it stands there. -/
def backStep (find rep : List α) (char : α) (done : List α) : List α :=
  if find <+: char :: done then rep ++ (char :: done).drop find.length else char :: done

/-- **The replacement from the right.** -/
def replaceBack (find rep text : List α) : List α := text.foldr (backStep find rep) []

/-- The number of times it replaces. -/
def backHits (find rep : List α) : List α → Nat
  | [] => 0
  | char :: rest =>
      (if find <+: char :: replaceBack find rep rest then 1 else 0) + backHits find rep rest

/-! ### Where both agree -/

/-- What stands in the text up to the next occurrence, followed by the replacement. -/
def stretch (find rep : List α) : Nat → List α → List α
  | _, [] => []
  | skip + 1, char :: rest => char :: stretch find rep skip rest
  | 0, char :: rest => if find <+: char :: rest then rep else char :: stretch find rep 0 rest

/-- **The occurrences are alone**: at no position but theirs does the pattern start, when the next one of
them is followed by the replacement. -/
def Alone (find rep : List α) : Nat → List α → Prop
  | _, [] => True
  | skip + 1, char :: rest =>
      ¬ find <+: stretch find rep (skip + 1) (char :: rest) ∧ Alone find rep skip rest
  | 0, char :: rest =>
      if find <+: char :: rest then Alone find rep (find.length - 1) rest
      else ¬ find <+: stretch find rep 0 (char :: rest) ∧ Alone find rep 0 rest

instance decidableAlone (find rep : List α) : ∀ (skip : Nat) (text : List α),
    Decidable (Alone find rep skip text)
  | _, [] => isTrue trivial
  | skip + 1, _ :: rest =>
      have := decidableAlone find rep skip rest
      inferInstanceAs (Decidable (_ ∧ _))
  | 0, char :: rest =>
      have := decidableAlone find rep (find.length - 1) rest
      have := decidableAlone find rep 0 rest
      inferInstanceAs (Decidable (if find <+: char :: rest then Alone find rep (find.length - 1) rest
        else ¬ find <+: stretch find rep 0 (char :: rest) ∧ Alone find rep 0 rest))

/-! ### Lengths -/

theorem hits_drop (skip : Nat) (front rest : List α) (short : front.length ≤ skip) :
    hits find skip (front ++ rest) = hits find (skip - front.length) rest := by
  induction front generalizing skip with
  | nil => rfl
  | cons char front ih =>
    obtain ⟨skip, rfl⟩ := Nat.exists_eq_succ_of_ne_zero (Nat.ne_zero_of_lt short)
    rw [List.cons_append, hits, ih skip (Nat.le_of_succ_le_succ short), List.length_cons,
      Nat.succ_sub_succ]

theorem length_replaceFrom {extra : Nat} (longer : rep.length = find.length + extra)
    (nonempty : find ≠ []) (skip : Nat) (text : List α) :
    (replaceFrom find rep skip text).length =
      text.length - skip + hits find skip text * extra := by
  have positive := List.length_pos_iff.mpr nonempty
  induction text generalizing skip with
  | nil => cases skip <;> simp [replaceFrom, hits]
  | cons char rest ih =>
    cases skip with
    | succ skip => rw [replaceFrom, hits, ih, List.length_cons, Nat.succ_sub_succ]
    | zero =>
      rw [replaceFrom, hits]
      split_ifs with here
      · have room := here.length_le
        rw [List.length_cons] at room
        rw [List.length_append, ih, longer, List.length_cons, Nat.add_mul, Nat.one_mul]
        omega
      · rw [List.length_cons, ih, List.length_cons]
        omega

/-- A replacement that is not longer does not make the text longer. -/
theorem length_replaceFrom_le (short : rep.length ≤ find.length) (nonempty : find ≠ []) (skip : Nat)
    (text : List α) : (replaceFrom find rep skip text).length ≤ text.length - skip := by
  have positive := List.length_pos_iff.mpr nonempty
  induction text generalizing skip with
  | nil => cases skip <;> simp [replaceFrom]
  | cons char rest ih =>
    cases skip with
    | succ skip =>
      rw [replaceFrom, List.length_cons, Nat.succ_sub_succ]
      exact ih skip
    | zero =>
      rw [replaceFrom, List.length_cons]
      split_ifs with here
      · have room := here.length_le
        have later := ih (find.length - 1)
        rw [List.length_cons] at room
        rw [List.length_append]
        omega
      · exact Nat.succ_le_succ (ih 0)

theorem length_replaceBack {extra : Nat} (longer : rep.length = find.length + extra)
    (text : List α) :
    (replaceBack find rep text).length = text.length + backHits find rep text * extra := by
  induction text with
  | nil => simp [replaceBack, backHits]
  | cons char rest ih =>
    rw [replaceBack, List.foldr_cons, backHits]
    change (backStep find rep char (replaceBack find rep rest)).length = _
    unfold backStep
    split_ifs with here
    · have room := here.length_le
      rw [List.length_cons, ih] at room
      rw [List.length_append, List.length_drop, List.length_cons, ih, longer, List.length_cons,
        Nat.add_mul, Nat.one_mul]
      omega
    · rw [List.length_cons, ih, List.length_cons, Nat.zero_add]
      omega

/-! ### One occurrence at a time -/

theorem firstAt_eq_none (nonempty : find ≠ []) {text : List α} (none : firstAt find text = none)
    (offset : Nat) : ¬ find <+: text.drop offset := by
  induction text generalizing offset with
  | nil =>
    rw [List.drop_nil, List.prefix_nil]
    exact nonempty
  | cons char rest ih =>
    rw [firstAt] at none
    split_ifs at none with here
    cases offset with
    | zero => exact here
    | succ offset => exact ih (Option.map_eq_none_iff.mp none) offset

theorem firstAt_eq_some {text : List α} {offset : Nat} (found : firstAt find text = some offset) :
    find <+: text.drop offset ∧ ∀ earlier < offset, ¬ find <+: text.drop earlier := by
  induction text generalizing offset with
  | nil =>
    rw [firstAt] at found
    split_ifs at found with empty
    obtain rfl := Option.some.inj found
    rw [empty]
    exact ⟨List.nil_prefix, fun _ less => absurd less (Nat.not_lt_zero _)⟩
  | cons char rest ih =>
    rw [firstAt] at found
    split_ifs at found with here
    · obtain rfl := Option.some.inj found
      exact ⟨here, fun _ less => absurd less (Nat.not_lt_zero _)⟩
    · obtain ⟨later, next, rfl⟩ := Option.map_eq_some_iff.mp found
      obtain ⟨starts, before⟩ := ih next
      refine ⟨starts, fun earlier less => ?_⟩
      cases earlier with
      | zero => exact here
      | succ earlier => exact before earlier (Nat.lt_of_succ_lt_succ less)

/-- An occurrence lies inside the text. -/
theorem firstAt_inside {text : List α} {offset : Nat} (nonempty : find ≠ [])
    (found : firstAt find text = some offset) : offset + find.length ≤ text.length := by
  have positive := List.length_pos_iff.mpr nonempty
  have room := (firstAt_eq_some found).1.length_le
  rw [List.length_drop] at room
  omega

omit [DecidableEq α] in
/-- **The occurrences of a pattern**: the positions where the text goes on with it. -/
def occurrences (find text : List α) : Set Nat := {index | find <+: text.drop index}

theorem occurrences_behind_eq_empty (nonempty : find ≠ []) {text : List α} {start : Nat}
    (none : firstAt find (text.drop start) = none) :
    occurrences find text ∩ Set.Ici start = ∅ := by
  refine Set.eq_empty_of_forall_notMem fun index ⟨starts, behind⟩ => ?_
  have absent := firstAt_eq_none nonempty none (index - start)
  rw [List.drop_drop, Nat.add_sub_cancel' behind] at absent
  exact absent starts

theorem isLeast_occurrences_behind {text : List α} {start offset : Nat}
    (found : firstAt find (text.drop start) = some offset) :
    IsLeast (occurrences find text ∩ Set.Ici start) (start + offset) := by
  obtain ⟨starts, before⟩ := firstAt_eq_some found
  rw [List.drop_drop] at starts
  refine ⟨⟨starts, Nat.le_add_right ..⟩, fun index ⟨there, behind⟩ => ?_⟩
  by_contra less
  refine before (index - start) (by rw [Set.mem_Ici] at behind; omega) ?_
  rwa [List.drop_drop, Nat.add_sub_cancel' behind]

theorem replaceFrom_eq (skip : Nat) (text : List α) :
    replaceFrom find rep skip text = replaceAll find rep (text.drop skip) := by
  induction text generalizing skip with
  | nil => cases skip <;> rfl
  | cons char rest ih =>
    cases skip with
    | zero => rfl
    | succ skip => rw [replaceFrom, ih, List.drop_succ_cons]

theorem hits_eq (skip : Nat) (text : List α) :
    hits find skip text = hits find 0 (text.drop skip) := by
  induction text generalizing skip with
  | nil => cases skip <;> rfl
  | cons char rest ih =>
    cases skip with
    | zero => rfl
    | succ skip => rw [hits, ih, List.drop_succ_cons]

/-- **The first occurrence** is replaced, and what is behind it. -/
theorem replaceAll_firstAt (nonempty : find ≠ []) (text : List α) :
    (firstAt find text = none → replaceAll find rep text = text ∧ hits find 0 text = 0) ∧
      ∀ offset, firstAt find text = some offset →
        replaceAll find rep text = text.take offset ++
          (rep ++ replaceAll find rep (text.drop (offset + find.length))) ∧
        hits find 0 text = hits find 0 (text.drop (offset + find.length)) + 1 := by
  have positive := List.length_pos_iff.mpr nonempty
  induction text with
  | nil =>
    refine ⟨fun _ => ⟨rfl, rfl⟩, fun offset found => ?_⟩
    rw [firstAt, if_neg nonempty] at found
    cases found
  | cons char rest ih =>
    rw [firstAt, replaceAll, replaceFrom, hits]
    split_ifs with here
    · refine ⟨(nomatch ·), fun offset found => ?_⟩
      obtain rfl := Option.some.inj found
      obtain ⟨left, is_left⟩ : ∃ left, find.length = left + 1 := ⟨find.length - 1, by omega⟩
      rw [is_left, Nat.add_sub_cancel, Nat.zero_add, List.drop_succ_cons, replaceFrom_eq, hits_eq]
      exact ⟨rfl, rfl⟩
    · obtain ⟨absent, present⟩ := ih
      constructor
      · intro none
        obtain ⟨same, zero⟩ := absent (Option.map_eq_none_iff.mp none)
        exact ⟨by rw [← replaceAll, same], zero⟩
      · intro offset found
        obtain ⟨later, next, rfl⟩ := Option.map_eq_some_iff.mp found
        obtain ⟨same, count⟩ := present later next
        rw [← replaceAll, same, count, List.take_succ_cons, Nat.succ_add, List.drop_succ_cons]
        exact ⟨rfl, rfl⟩

/-- Where nothing is replaced from the left there is no occurrence. -/
theorem firstAt_of_hits (nonempty : find ≠ []) {text : List α} (zero : hits find 0 text = 0) :
    firstAt find text = none := by
  cases found : firstAt find text with
  | none => rfl
  | some offset =>
    have count := ((@replaceAll_firstAt _ _ _ [] nonempty text).2 offset found).2
    rw [zero] at count
    exact absurd count.symm (Nat.succ_ne_zero _)

/-- Without an occurrence nothing is replaced from the right. -/
theorem foldr_absent (front done : List α)
    (absent : ∀ offset < front.length, ¬ find <+: (front ++ done).drop offset) :
    front.foldr (backStep find rep) done = front ++ done := by
  induction front with
  | nil => rfl
  | cons char rest ih =>
    rw [List.foldr_cons, ih fun offset less => absent (offset + 1) (Nat.succ_lt_succ less)]
    exact if_neg (absent 0 (Nat.succ_pos _))

/-- **The last occurrence** is replaced, and what is in front of it. -/
theorem foldr_last {front done : List α} {offset : Nat} (inside : offset < front.length)
    (starts : find <+: (front ++ done).drop offset)
    (last : ∀ later, offset < later → later < front.length → ¬ find <+: (front ++ done).drop later) :
    front.foldr (backStep find rep) done = (front.take offset).foldr (backStep find rep)
      (rep ++ (front ++ done).drop (offset + find.length)) := by
  have parts : front = front.take offset ++ front[offset] :: front.drop (offset + 1) := by
    rw [← List.drop_eq_getElem_cons inside, List.take_append_drop]
  have behind : (front.drop (offset + 1)).foldr (backStep find rep) done =
      front.drop (offset + 1) ++ done := by
    refine foldr_absent _ _ fun later less => ?_
    rw [List.length_drop] at less
    have absent := last (offset + 1 + later) (by omega) (by omega)
    rwa [← List.drop_drop, List.drop_append_of_le_length inside] at absent
  have here : front[offset] :: (front.drop (offset + 1) ++ done) = (front ++ done).drop offset := by
    rw [List.drop_append_of_le_length (Nat.le_of_lt inside), List.drop_eq_getElem_cons inside]
    rfl
  conv_lhs => rw [parts, List.foldr_append, List.foldr_cons, behind]
  unfold backStep
  rw [here, if_pos starts, List.drop_drop]

/-- A text does not get shorter from the right. -/
theorem length_le_foldr (longer : find.length ≤ rep.length) (front done : List α) :
    front.length + done.length ≤ (front.foldr (backStep find rep) done).length := by
  induction front with
  | nil => rw [List.length_nil, Nat.zero_add, List.foldr_nil]
  | cons char rest ih =>
    rw [List.foldr_cons, List.length_cons, backStep]
    split_ifs with here
    · have room := here.length_le
      rw [List.length_append, List.length_drop]
      rw [List.length_cons] at room ⊢
      omega
    · rw [List.length_cons]
      omega

/-! ### Which one replaces more -/

omit [DecidableEq α] in
/-- What starts with a list still does when something behind it changes. -/
theorem prefix_of_same_front {front rest other : List α} (starts : find <+: front ++ rest)
    (long : find.length ≤ front.length) : find <+: front ++ other :=
  (List.prefix_of_prefix_length_le starts (List.prefix_append front rest) long).trans
    (List.prefix_append front other)

theorem replaceBack_cons (char : α) (rest : List α) :
    replaceBack find rep (char :: rest) = backStep find rep char (replaceBack find rep rest) := rfl

/-- **The last replacement from the right**, which is the first in the text. -/
theorem replaceBack_cases (text : List α) :
    (replaceBack find rep text = text ∧ backHits find rep text = 0) ∨
      ∃ front char rest, text = front ++ char :: rest ∧
        find <+: char :: replaceBack find rep rest ∧
        replaceBack find rep text =
          front ++ (rep ++ (char :: replaceBack find rep rest).drop find.length) ∧
        backHits find rep text = backHits find rep rest + 1 := by
  induction text with
  | nil => exact .inl ⟨rfl, rfl⟩
  | cons char rest ih =>
    rw [replaceBack_cons, backHits]
    unfold backStep
    split_ifs with here
    · exact .inr ⟨[], char, rest, rfl, here, rfl, Nat.add_comm ..⟩
    · rcases ih with ⟨same, none⟩ | ⟨front, first, later, rfl, starts, back, count⟩
      · exact .inl ⟨by rw [same], by rw [none]⟩
      · exact .inr ⟨char :: front, first, later, rfl, starts, by rw [back]; rfl,
          by rw [count, Nat.zero_add]⟩

/-- **From the right at least as many are replaced** as from the left, wherever that starts. -/
theorem hits_le_backHits (skip : Nat) (text : List α) :
    hits find skip text ≤ backHits find rep text := by
  induction length : text.length using Nat.strong_induction_on generalizing text skip with
  | _ length ih =>
    cases text with
    | nil => cases skip <;> exact Nat.le_refl 0
    | cons char rest =>
      subst length
      have shorter := fun skip => ih rest.length (Nat.lt_succ_self _) skip rest rfl
      rw [backHits]
      cases skip with
      | succ skip => exact Nat.le_add_left_of_le (shorter skip)
      | zero =>
        rw [hits]
        split_ifs with here back back
        · rw [Nat.add_comm]
          exact Nat.add_le_add_left (shorter _) 1
        · -- The occurrence was destroyed by a replacement inside of it.
          rcases @replaceBack_cases _ _ find rep rest with
            ⟨same, -⟩ | ⟨front, first, later, rfl, starts, replaced, count⟩
          · rw [same] at back
            exact absurd here back
          · have inside : front.length + 1 < find.length := by
              by_contra long
              rw [replaced] at back
              refine back (@prefix_of_same_front _ _ (char :: front) _ _ here ?_)
              rw [List.length_cons]
              omega
            have fewer := ih later.length (by simp; omega) (find.length - 1 - front.length - 1) later rfl
            rw [count, hits_drop _ _ _ (by omega), Nat.zero_add]
            obtain ⟨left, is_left⟩ : ∃ left, find.length - 1 - front.length = left + 1 :=
              ⟨find.length - 1 - front.length - 1, by omega⟩
            rw [is_left] at fewer ⊢
            rw [hits]
            exact Nat.succ_le_succ fewer
        · exact Nat.le_add_left_of_le (shorter 0)
        · exact Nat.le_add_left_of_le (shorter 0)

/-- The first characters are not touched from the right, or more is replaced than from the left behind
them. -/
theorem replaceBack_take (count : Nat) (text : List α) :
    (replaceBack find rep text).take count = text.take count ∨
      hits find count text < backHits find rep text := by
  rcases @replaceBack_cases _ _ find rep text with
    ⟨same, -⟩ | ⟨front, char, rest, rfl, starts, replaced, more⟩
  · exact .inl (by rw [same])
  · by_cases inside : front.length < count
    · refine .inr ?_
      obtain ⟨left, is_left⟩ : ∃ left, count - front.length = left + 1 :=
        ⟨count - front.length - 1, by omega⟩
      rw [more, hits_drop _ _ _ (Nat.le_of_lt inside), is_left, hits]
      exact Nat.lt_succ_of_le (hits_le_backHits ..)
    · refine .inl ?_
      rw [replaced, List.take_append_of_le_length (Nat.le_of_not_lt inside),
        List.take_append_of_le_length (Nat.le_of_not_lt inside)]

/-! ### When both agree -/

/-- The text as it is up to the next occurrence, and then replaced. -/
def keepFrom (find rep : List α) (skip : Nat) (text : List α) : List α :=
  text.take skip ++ replaceFrom find rep skip text

theorem keepFrom_zero (text : List α) : keepFrom find rep 0 text = replaceAll find rep text := rfl

theorem keepFrom_succ (skip : Nat) (char : α) (rest : List α) :
    keepFrom find rep (skip + 1) (char :: rest) = char :: keepFrom find rep skip rest := rfl

/-- A stretch is where the replaced text begins; behind it, the replacement has gone by. -/
theorem stretch_keepFrom (skip : Nat) (text : List α) :
    stretch find rep skip text = keepFrom find rep skip text ∨
      ∃ before after, stretch find rep skip text = before ++ rep ∧
        keepFrom find rep skip text = before ++ rep ++ after := by
  induction text generalizing skip with
  | nil => exact .inl (by cases skip <;> rfl)
  | cons char rest ih =>
    have next : ∀ kept, stretch find rep skip (char :: rest) = char :: stretch find rep kept rest →
        keepFrom find rep skip (char :: rest) = char :: keepFrom find rep kept rest →
        stretch find rep skip (char :: rest) = keepFrom find rep skip (char :: rest) ∨
          ∃ before after, stretch find rep skip (char :: rest) = before ++ rep ∧
            keepFrom find rep skip (char :: rest) = before ++ rep ++ after := by
      intro kept stretched keeps
      rw [stretched, keeps]
      rcases ih kept with same | ⟨before, after, short, whole⟩
      · exact .inl (by rw [same])
      · exact .inr ⟨char :: before, after, by rw [short]; rfl, by rw [whole]; rfl⟩
    cases skip with
    | succ skip => exact next skip rfl rfl
    | zero =>
      by_cases here : find <+: char :: rest
      · refine .inr ⟨[], replaceFrom find rep (find.length - 1) rest, ?_, ?_⟩
        · rw [stretch, if_pos here, List.nil_append]
        · rw [keepFrom_zero, replaceAll, replaceFrom, if_pos here, List.nil_append]
      · refine next 0 ?_ ?_
        · rw [stretch, if_neg here]
        · rw [keepFrom_zero, replaceAll, replaceFrom, if_neg here]
          rfl

/-- The pattern starts in a stretch where it starts in the replaced text. -/
theorem prefix_stretch_iff (longer : find.length ≤ rep.length) (skip : Nat) (text : List α) :
    find <+: stretch find rep skip text ↔ find <+: keepFrom find rep skip text := by
  rcases @stretch_keepFrom _ _ find rep skip text with same | ⟨before, after, short, whole⟩
  · rw [same]
  · rw [short, whole]
    refine ⟨fun starts => starts.trans (List.prefix_append ..), fun starts => ?_⟩
    exact List.prefix_of_prefix_length_le starts (List.prefix_append ..)
      (by rw [List.length_append]; omega)

/-- A position where the pattern does not start is left alone. -/
theorem backStep_of_not {char : α} {done : List α} (absent : ¬ find <+: char :: done) :
    backStep find rep char done = char :: done := if_neg absent

/-- **Where the occurrences are alone**, both ways lead to the same text. -/
theorem replaceBack_of_alone (longer : find.length ≤ rep.length) (nonempty : find ≠ [])
    {skip : Nat} {text : List α} (inside : skip ≤ text.length) (alone : Alone find rep skip text) :
    replaceBack find rep text = keepFrom find rep skip text := by
  have positive := List.length_pos_iff.mpr nonempty
  induction text generalizing skip with
  | nil =>
    cases skip <;> rfl
  | cons char rest ih =>
    rw [replaceBack_cons]
    cases skip with
    | succ skip =>
      obtain ⟨absent, later⟩ := alone
      rw [prefix_stretch_iff longer, keepFrom_succ] at absent
      rw [ih (Nat.le_of_succ_le_succ inside) later, backStep_of_not absent, keepFrom_succ]
    | zero =>
      rw [Alone] at alone
      split_ifs at alone with here
      · have room := here.length_le
        rw [List.length_cons] at room
        obtain ⟨left, is_left⟩ : ∃ left, find.length = left + 1 := ⟨find.length - 1, by omega⟩
        have whole : find = (char :: rest).take find.length := List.prefix_iff_eq_take.mp here
        rw [ih (by omega) alone, keepFrom_zero, replaceAll, replaceFrom, if_pos here]
        rw [is_left, Nat.add_sub_cancel]
        have kept : char :: keepFrom find rep left rest =
            find ++ replaceFrom find rep left rest := by
          rw [← keepFrom_succ, keepFrom, ← is_left, ← whole, is_left]
          rfl
        unfold backStep
        rw [kept, if_pos (List.prefix_append ..), List.drop_left]
      · obtain ⟨absent, later⟩ := alone
        rw [prefix_stretch_iff longer, keepFrom_zero, replaceAll, replaceFrom, if_neg here] at absent
        rw [ih (Nat.zero_le _) later, keepFrom_zero, keepFrom_zero, replaceAll, replaceAll,
          backStep_of_not absent, replaceFrom, if_neg here]

omit [DecidableEq α] in
/-- **Two lists with one period**: what repeats the same front starts the same way. -/
theorem prefix_of_period {front short long : List α} (nonempty : front ≠ [])
    (shortRepeats : short <+: front ++ short) (longRepeats : long <+: front ++ long)
    (order : short.length ≤ long.length) : short <+: long := by
  have positive := List.length_pos_iff.mpr nonempty
  have same : ∀ count ≤ short.length, short.take count = long.take count := by
    intro count
    induction count using Nat.strong_induction_on with
    | _ count ih =>
      intro few
      rcases Nat.eq_zero_or_pos count with rfl | some_count
      · rfl
      have shortTake : short.take count = (front ++ short).take count := by
        conv_lhs => rw [List.prefix_iff_eq_take.mp shortRepeats, List.take_take, Nat.min_eq_left few]
      have longTake : long.take count = (front ++ long).take count := by
        conv_lhs => rw [List.prefix_iff_eq_take.mp longRepeats, List.take_take,
          Nat.min_eq_left (Nat.le_trans few order)]
      rw [shortTake, longTake, List.take_append, List.take_append,
        ih (count - front.length) (by omega) (by omega)]
  rw [List.prefix_iff_eq_take, ← same _ (Nat.le_refl _), List.take_length]

theorem length_keepFrom {extra : Nat} (longer : rep.length = find.length + extra)
    (nonempty : find ≠ []) {skip : Nat} {text : List α} (inside : skip ≤ text.length) :
    (keepFrom find rep skip text).length = text.length + hits find skip text * extra := by
  rw [keepFrom, List.length_append, List.length_take, length_replaceFrom longer nonempty]
  omega

/-- An occurrence that the way from the right destroys makes a difference. -/
theorem replaceBack_ne_of_destroyed {extra : Nat} (longer : rep.length = find.length + extra)
    (grows : 0 < extra) (nonempty : find ≠ []) {char : α} {rest : List α}
    (here : find <+: char :: rest) (destroyed : ¬ find <+: char :: replaceBack find rep rest) :
    replaceBack find rep (char :: rest) ≠ replaceAll find rep (char :: rest) := by
  intro same
  have positive := List.length_pos_iff.mpr nonempty
  obtain ⟨left, is_left⟩ : ∃ left, find.length = left + 1 := ⟨find.length - 1, by omega⟩
  -- Both replace the same number of times.
  have count : backHits find rep rest = hits find left rest + 1 := by
    have lengths := congrArg List.length same
    rw [length_replaceBack longer, replaceAll, length_replaceFrom longer nonempty, backHits, hits,
      if_neg destroyed, if_pos here, is_left, Nat.add_sub_cancel, Nat.zero_add, Nat.sub_zero] at lengths
    exact Nat.eq_of_mul_eq_mul_right grows (Nat.add_left_cancel lengths)
  rw [replaceBack_cons, backStep_of_not destroyed, replaceAll, replaceFrom, if_pos here] at same
  rcases @replaceBack_cases _ _ find rep rest with
    ⟨-, none⟩ | ⟨front, first, later, rfl, starts, replaced, more⟩
  · rw [none] at count
    exact absurd count.symm (Nat.succ_ne_zero _)
  have inside : front.length < left := by
    by_contra long
    rw [replaced] at destroyed
    refine destroyed (@prefix_of_same_front _ _ (char :: front) _ _ here ?_)
    rw [List.length_cons]
    omega
  obtain ⟨few, is_few⟩ : ∃ few, left - front.length = few + 1 := ⟨left - front.length - 1, by omega⟩
  -- So the occurrence that was replaced inside of it stands in the text as it was.
  have untouched : (replaceBack find rep later).take few = later.take few := by
    refine (replaceBack_take few later).resolve_right ?_
    rw [more, hits_drop _ _ _ (Nat.le_of_lt inside), is_few, hits] at count
    omega
  have pattern : find = char :: front ++ (first :: later).take (few + 1) := by
    conv_lhs => rw [List.prefix_iff_eq_take.mp here, ← List.cons_append, List.take_append]
    rw [List.take_of_length_le (by rw [List.length_cons]; omega), List.length_cons, is_left]
    congr 2
    omega
  have border : find.take (few + 1) = (first :: later).take (few + 1) := by
    conv_lhs => rw [List.prefix_iff_eq_take.mp starts, List.take_take, Nat.min_eq_left (by omega)]
    rw [List.take_succ_cons, List.take_succ_cons, untouched]
  -- The pattern and the replacement repeat the same characters, so the pattern stands there again.
  have patternRepeats : find <+: char :: front ++ find := by
    conv_lhs => rw [pattern, ← border]
    exact (List.prefix_append_right_inj _).mpr (List.take_prefix ..)
  have repRepeats : rep <+: char :: front ++ rep := by
    rw [replaced] at same
    have whole : rep <+: (char :: front ++ rep) ++ (first :: replaceBack find rep later).drop find.length := by
      rw [List.append_assoc]
      exact ⟨_, same.symm⟩
    exact List.prefix_of_prefix_length_le whole (List.prefix_append ..)
      (by rw [List.length_append]; omega)
  have period := prefix_of_period (List.cons_ne_nil char front) patternRepeats repRepeats (by omega)
  refine destroyed ?_
  rw [replaced, ← List.cons_append, ← List.append_assoc]
  refine List.IsPrefix.trans ?_ (List.prefix_append ..)
  conv_lhs => rw [pattern, ← border]
  exact (List.prefix_append_right_inj _).mpr ((List.take_prefix ..).trans period)

/-- **Where both ways lead to the same text**, the occurrences are alone. -/
theorem alone_of_replaceBack {extra : Nat} (longer : rep.length = find.length + extra)
    (grows : 0 < extra) (nonempty : find ≠ []) {skip : Nat} {text : List α}
    (inside : skip ≤ text.length) (same : replaceBack find rep text = keepFrom find rep skip text) :
    Alone find rep skip text := by
  have positive := List.length_pos_iff.mpr nonempty
  have short : find.length ≤ rep.length := by omega
  induction text generalizing skip with
  | nil => cases skip <;> trivial
  | cons char rest ih =>
    -- A character that is kept is where the pattern does not start.
    have kept : ∀ kept ≤ rest.length,
        replaceBack find rep (char :: rest) = char :: keepFrom find rep kept rest →
        ¬ find <+: char :: keepFrom find rep kept rest ∧ Alone find rep kept rest := by
      intro kept few same
      have absent : ¬ find <+: char :: replaceBack find rep rest := by
        intro starts
        have lengths := congrArg List.length same
        rw [length_replaceBack longer, List.length_cons, List.length_cons,
          length_keepFrom longer nonempty few, backHits, if_pos starts] at lengths
        have fewer := Nat.mul_le_mul_right extra (@hits_le_backHits _ _ find rep kept rest)
        rw [Nat.add_mul, Nat.one_mul] at lengths
        omega
      rw [replaceBack_cons, backStep_of_not absent] at same
      obtain ⟨-, rest_same⟩ := List.cons.inj same
      exact ⟨rest_same ▸ absent, ih few rest_same⟩
    cases skip with
    | succ skip =>
      obtain ⟨absent, later⟩ := kept skip (Nat.le_of_succ_le_succ inside) same
      exact ⟨by rwa [prefix_stretch_iff short], later⟩
    | zero =>
      rw [Alone]
      split_ifs with here
      · have room := here.length_le
        rw [List.length_cons] at room
        by_cases back : find <+: char :: replaceBack find rep rest
        · refine ih (by omega) ?_
          obtain ⟨left, is_left⟩ : ∃ left, find.length = left + 1 := ⟨find.length - 1, by omega⟩
          rw [replaceBack_cons, keepFrom_zero, replaceAll, replaceFrom, if_pos here] at same
          unfold backStep at same
          rw [if_pos back, is_left, Nat.add_sub_cancel, List.drop_succ_cons] at same
          rw [is_left, Nat.add_sub_cancel, keepFrom, ← List.append_cancel_left same]
          have front : (replaceBack find rep rest).take left = rest.take left := by
            have both := (List.prefix_iff_eq_take.mp back).symm.trans (List.prefix_iff_eq_take.mp here)
            rw [is_left, List.take_succ_cons, List.take_succ_cons] at both
            exact (List.cons.inj both).2
          rw [← front, List.take_append_drop]
        · exact absurd same (replaceBack_ne_of_destroyed longer grows nonempty here back)
      · have keeps : keepFrom find rep 0 (char :: rest) = char :: keepFrom find rep 0 rest := by
          rw [keepFrom_zero, replaceAll, replaceFrom, if_neg here]
          rfl
        obtain ⟨absent, later⟩ := kept 0 (Nat.zero_le _) (same.trans keeps)
        exact ⟨by rwa [prefix_stretch_iff short, keeps], later⟩

/-- **Both ways lead to the same text exactly when the occurrences are alone**, for a replacement that is
longer than the pattern. -/
theorem replaceBack_eq_iff (longer : find.length < rep.length) (nonempty : find ≠ [])
    (text : List α) :
    replaceBack find rep text = replaceAll find rep text ↔ Alone find rep 0 text := by
  obtain ⟨extra, same⟩ := Nat.exists_eq_add_of_lt longer
  have longerBy : rep.length = find.length + (extra + 1) := by omega
  exact ⟨alone_of_replaceBack longerBy (Nat.succ_pos _) nonempty (Nat.zero_le _),
    replaceBack_of_alone (Nat.le_of_lt longer) nonempty (Nat.zero_le _)⟩

/-- A text without occurrences is the same both ways. -/
theorem alone_of_hits (longer : find.length < rep.length) (nonempty : find ≠ []) {text : List α}
    (zero : hits find 0 text = 0) : Alone find rep 0 text := by
  have none := firstAt_of_hits nonempty zero
  rw [← replaceBack_eq_iff longer nonempty, ((replaceAll_firstAt nonempty text).1 none).1]
  refine (foldr_absent text [] fun offset _ => ?_).trans (List.append_nil text)
  rw [List.append_nil]
  exact firstAt_eq_none nonempty none offset

end PrimoCore.Lib
