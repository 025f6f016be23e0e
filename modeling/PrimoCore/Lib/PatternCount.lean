/-
**How often a pattern is replaced.**

Counted from the left, occurrences do not overlap. From the right, an occurrence may reach into the
replacement put in before, and then one more is replaced than was counted.

* `hits_append_le`, `hits_append_succ`, `hits_append_le_succ` — the count from the left, when a text is
  continued.
* `backCount` — the replacements from the right in front of what is done already; `backHits` of a text.
* `Counted` — each occurrence replaced from the right ends in front of the replacement before it, or
  leaves fewer occurrences in front of it than there were.
* `backHits_eq_iff` — **as many are replaced from the right as are counted from the left exactly when**
  the occurrences are counted.
-/

import PrimoCore.Lib.Pattern

namespace PrimoCore.Lib

variable {α : Type*} [DecidableEq α] {find rep : List α}

/-! ### The count from the left -/

/-- A text shorter than the pattern has no occurrence. -/
theorem hits_short (skip : Nat) {text : List α} (short : text.length < find.length) :
    hits find skip text = 0 := by
  induction text generalizing skip with
  | nil => cases skip <;> rfl
  | cons char rest ih =>
    have shorter : rest.length < find.length := Nat.lt_of_succ_lt short
    cases skip with
    | succ skip => exact ih skip shorter
    | zero =>
      rw [hits, if_neg fun here => Nat.not_le_of_lt short here.length_le]
      exact ih 0 shorter

/-- Nothing is counted in a text where the pattern starts nowhere. -/
theorem hits_absent (skip : Nat) {text : List α} (absent : ∀ offset, ¬ find <+: text.drop offset) :
    hits find skip text = 0 := by
  induction text generalizing skip with
  | nil => cases skip <;> rfl
  | cons char rest ih =>
    have here : ¬ find <+: char :: rest := absent 0
    have later : ∀ offset, ¬ find <+: rest.drop offset := fun offset => absent (offset + 1)
    cases skip with
    | succ skip => exact ih skip later
    | zero =>
      rw [hits, if_neg here]
      exact ih 0 later

omit [DecidableEq α] in
/-- The pattern at the front of a text that is continued: it is there already, it reaches into what
follows, or it is not there. -/
theorem prefix_append_cases (find : List α) (char : α) (rest back : List α) :
    (find <+: char :: rest ∧ find <+: char :: (rest ++ back)) ∨
      (¬ find <+: char :: rest ∧ find <+: char :: (rest ++ back) ∧ rest.length + 1 < find.length) ∨
      (¬ find <+: char :: rest ∧ ¬ find <+: char :: (rest ++ back)) := by
  by_cases here : find <+: char :: rest
  · exact .inl ⟨here, here.trans (List.prefix_append (char :: rest) back)⟩
  · by_cases reaches : find <+: char :: (rest ++ back)
    · refine .inr (.inl ⟨here, reaches, Nat.lt_of_not_le fun long => here ?_⟩)
      exact List.prefix_of_prefix_length_le reaches (List.prefix_append (char :: rest) back) long
    · exact .inr (.inr ⟨here, reaches⟩)

/-- More text has no fewer occurrences. -/
theorem hits_append_le (skip : Nat) (front back : List α) :
    hits find skip front ≤ hits find skip (front ++ back) := by
  induction front generalizing skip with
  | nil => exact Nat.le_trans (Nat.le_of_eq (by cases skip <;> rfl)) (Nat.zero_le _)
  | cons char rest ih =>
    cases skip with
    | succ skip => exact ih skip
    | zero =>
      rw [List.cons_append, hits, hits]
      rcases prefix_append_cases find char rest back with
        ⟨here, still⟩ | ⟨absent, reaches, short⟩ | ⟨absent, still⟩
      · rw [if_pos here, if_pos still]
        exact Nat.succ_le_succ (ih _)
      · rw [if_neg absent, hits_short 0 (Nat.lt_of_succ_lt short)]
        exact Nat.zero_le _
      · rw [if_neg absent, if_neg still]
        exact ih 0

/-- An occurrence behind a text is one more. -/
theorem hits_append_succ (nonempty : find ≠ []) {skip : Nat} {front back : List α}
    (inside : skip ≤ front.length) (starts : find <+: back) :
    hits find skip front + 1 ≤ hits find skip (front ++ back) := by
  induction front generalizing skip with
  | nil =>
    obtain rfl := Nat.le_zero.mp inside
    cases back with
    | nil => exact absurd (List.prefix_nil.mp starts) nonempty
    | cons char rest =>
      rw [List.nil_append, hits, hits, if_pos starts]
      exact Nat.succ_le_succ (Nat.zero_le _)
  | cons char rest ih =>
    cases skip with
    | succ skip => exact ih (Nat.le_of_succ_le_succ inside)
    | zero =>
      rw [List.cons_append, hits, hits]
      rcases prefix_append_cases find char rest back with
        ⟨here, still⟩ | ⟨absent, reaches, short⟩ | ⟨absent, still⟩
      · have room := here.length_le
        rw [List.length_cons] at room
        rw [if_pos here, if_pos still]
        exact Nat.succ_le_succ (ih (by omega))
      · rw [if_neg absent, if_pos reaches, hits_short 0 (Nat.lt_of_succ_lt short)]
        exact Nat.succ_le_succ (Nat.zero_le _)
      · rw [if_neg absent, if_neg still]
        exact ih (Nat.zero_le _)

/-- A text with an occurrence at most at its front adds one at most. -/
theorem hits_append_le_succ (skip : Nat) (front : List α) {back : List α}
    (absent : ∀ offset, 0 < offset → ¬ find <+: back.drop offset) :
    hits find skip (front ++ back) ≤ hits find skip front + 1 := by
  -- Behind its first character the text has no occurrence.
  have behind : ∀ skip, 0 < skip → hits find skip back = 0 := by
    intro skip positive
    rw [hits_eq]
    refine hits_absent 0 fun offset => ?_
    rw [List.drop_drop]
    exact absent _ (Nat.lt_of_lt_of_le positive (Nat.le_add_right ..))
  have atMost : ∀ skip, hits find skip back ≤ 1 := by
    intro skip
    cases skip with
    | succ skip => exact Nat.le_trans (Nat.le_of_eq (behind _ (Nat.succ_pos _))) (Nat.zero_le _)
    | zero =>
      cases back with
      | nil => exact Nat.zero_le _
      | cons char rest =>
        have none : ∀ skip, hits find skip rest = 0 := fun skip => behind (skip + 1) (Nat.succ_pos _)
        rw [hits, none, none]
        split_ifs
        · exact Nat.le_refl 1
        · exact Nat.zero_le 1
  induction front generalizing skip with
  | nil => exact Nat.le_trans (atMost skip) (Nat.le_add_left ..)
  | cons char rest ih =>
    cases skip with
    | succ skip => exact ih skip
    | zero =>
      rw [List.cons_append, hits, hits]
      rcases prefix_append_cases find char rest back with
        ⟨here, still⟩ | ⟨absent, reaches, short⟩ | ⟨absent, still⟩
      · rw [if_pos here, if_pos still]
        exact Nat.succ_le_succ (ih _)
      · rw [if_neg absent, if_pos reaches, hits_drop _ _ _ (by omega), behind _ (by omega)]
        exact Nat.succ_le_succ (Nat.zero_le _)
      · rw [if_neg absent, if_neg still]
        exact ih 0

/-! ### The count from the right -/

/-- The number of replacements from the right in front of what is done. -/
def backCount (find rep : List α) : List α → List α → Nat
  | [], _ => 0
  | char :: rest, done =>
      (if find <+: char :: rest.foldr (backStep find rep) done then 1 else 0) +
        backCount find rep rest done

theorem backCount_nil (text : List α) : backCount find rep text [] = backHits find rep text := by
  induction text with
  | nil => rfl
  | cons char rest ih =>
    rw [backCount, backHits, ih]
    rfl

/-- A text in two parts: the back is done first. -/
theorem backCount_append (front back done : List α) :
    backCount find rep (front ++ back) done =
      backCount find rep front (back.foldr (backStep find rep) done) + backCount find rep back done := by
  induction front with
  | nil => rw [List.nil_append, backCount, Nat.zero_add]
  | cons first rest ih => rw [List.cons_append, backCount, backCount, ih, List.foldr_append, Nat.add_assoc]

/-- The last character is the first to be looked at. -/
theorem backCount_concat (front : List α) (char : α) (done : List α) :
    backCount find rep (front ++ [char]) done =
      backCount find rep front (backStep find rep char done) + if find <+: char :: done then 1 else 0 :=
  backCount_append front [char] done

theorem backCount_absent (front done : List α)
    (absent : ∀ offset < front.length, ¬ find <+: (front ++ done).drop offset) :
    backCount find rep front done = 0 := by
  induction front with
  | nil => rfl
  | cons char rest ih =>
    have later : ∀ offset < rest.length, ¬ find <+: (rest ++ done).drop offset :=
      fun offset less => absent (offset + 1) (Nat.succ_lt_succ less)
    have here : ¬ find <+: char :: (rest ++ done) := absent 0 (Nat.succ_pos _)
    rw [backCount, foldr_absent rest done later, if_neg here, ih later]

/-- The last occurrence is replaced, and those in front of it. -/
theorem backCount_last {front done : List α} {offset : Nat} (inside : offset < front.length)
    (starts : find <+: (front ++ done).drop offset)
    (last : ∀ later, offset < later → later < front.length → ¬ find <+: (front ++ done).drop later) :
    backCount find rep front done = backCount find rep (front.take offset)
      (rep ++ (front ++ done).drop (offset + find.length)) + 1 := by
  have parts : front = front.take offset ++ front[offset] :: front.drop (offset + 1) := by
    rw [← List.drop_eq_getElem_cons inside, List.take_append_drop]
  have absent : ∀ later < (front.drop (offset + 1)).length,
      ¬ find <+: (front.drop (offset + 1) ++ done).drop later := by
    intro later less
    rw [List.length_drop] at less
    have absent := last (offset + 1 + later) (by omega) (by omega)
    rwa [← List.drop_drop, List.drop_append_of_le_length inside] at absent
  have here : front[offset] :: (front.drop (offset + 1) ++ done) = (front ++ done).drop offset := by
    rw [List.drop_append_of_le_length (Nat.le_of_lt inside), List.drop_eq_getElem_cons inside]
    rfl
  conv_lhs => rw [parts, backCount_append, List.foldr_cons, backCount, foldr_absent _ _ absent,
    backCount_absent _ _ absent]
  unfold backStep
  rw [here, if_pos starts, if_pos starts, List.drop_drop]

/-- **Each occurrence is counted.** The text is looked at from position `position` down; it is unchanged
below `kept`, and goes on with `after` there. An occurrence that reaches into what has been put in before
must leave fewer occurrences in front of it. -/
def Counted (find rep text : List α) : Nat → List α → Nat → Prop
  | _, _, 0 => True
  | kept, after, position + 1 =>
      if find <+: (text.take kept ++ after).drop position then
        (position + find.length ≤ kept ∨
          hits find 0 (text.take position) < hits find 0 (text.take kept)) ∧
            Counted find rep text position rep position
      else Counted find rep text kept after position

instance decidableCounted (find rep text : List α) : ∀ (kept : Nat) (after : List α) (position : Nat),
    Decidable (Counted find rep text kept after position)
  | _, _, 0 => isTrue trivial
  | kept, after, position + 1 =>
      have := decidableCounted find rep text position rep position
      have := decidableCounted find rep text kept after position
      inferInstanceAs (Decidable (if find <+: (text.take kept ++ after).drop position then
        (position + find.length ≤ kept ∨
          hits find 0 (text.take position) < hits find 0 (text.take kept)) ∧
            Counted find rep text position rep position
        else Counted find rep text kept after position))

section Counts

variable (longer : find.length < rep.length) (nonempty : find ≠ []) {text : List α}

omit [DecidableEq α] in
include nonempty in
/-- The kept text has no occurrence from where it has none when it is continued. -/
theorem absent_take {kept position : Nat} {after : List α} (inside : kept ≤ text.length)
    (absent : ∀ offset, position ≤ offset → offset < kept →
      ¬ find <+: (text.take kept ++ after).drop offset) (offset : Nat) (past : position ≤ offset) :
    ¬ find <+: (text.take kept).drop offset := by
  have length : (text.take kept).length = kept := List.length_take_of_le inside
  intro starts
  by_cases below : offset < kept
  · refine absent offset past below ?_
    rw [List.drop_append_of_le_length (by omega)]
    exact starts.trans (List.prefix_append ..)
  · rw [List.drop_eq_nil_of_le (by omega), List.prefix_nil] at starts
    exact nonempty starts

include longer nonempty

/-- **The replacements in front of a position**, when no occurrence starts in the kept text from there
on: not fewer than are counted in the kept text, and as many exactly when each of them is counted. -/
theorem backCount_spec {position kept : Nat} {after behind : List α} (inside : kept ≤ text.length)
    (below : position ≤ kept) (context : after = rep ∨ after = [] ∧ behind = [])
    (absent : ∀ offset, position ≤ offset → offset < kept →
      ¬ find <+: (text.take kept ++ after).drop offset) :
    hits find 0 (text.take kept) ≤ backCount find rep (text.take position)
        ((text.take kept).drop position ++ (after ++ behind)) ∧
      (backCount find rep (text.take position)
          ((text.take kept).drop position ++ (after ++ behind)) = hits find 0 (text.take kept) ↔
        Counted find rep text kept after position) := by
  induction position generalizing kept after behind with
  | zero =>
    have none := absent_take nonempty inside absent
    rw [hits_absent 0 fun offset => none offset (Nat.zero_le _), List.take_zero, backCount]
    exact ⟨Nat.le_refl 0, iff_of_true rfl trivial⟩
  | succ position ih =>
    have length : (text.take kept).length = kept := List.length_take_of_le inside
    obtain ⟨whole, is_whole⟩ : ∃ whole, whole = (text.take kept).drop position ++ (after ++ behind) :=
      ⟨_, rfl⟩
    have front : (text.take kept ++ after).drop position = (text.take kept).drop position ++ after :=
      List.drop_append_of_le_length (by omega)
    have here : text[position] :: ((text.take kept).drop (position + 1) ++ (after ++ behind)) = whole := by
      have shorter : position < (text.take kept).length := by omega
      rw [is_whole, List.drop_eq_getElem_cons shorter, List.getElem_take]
      rfl
    have starts_iff : find <+: whole ↔ find <+: (text.take kept ++ after).drop position := by
      rw [front, is_whole, ← List.append_assoc]
      rcases context with rfl | ⟨rfl, rfl⟩
      · refine ⟨fun starts => ?_, fun starts => starts.trans (List.prefix_append ..)⟩
        refine List.prefix_of_prefix_length_le starts (List.prefix_append ..) ?_
        rw [List.length_append]
        omega
      · rw [List.append_nil]
    have stands : position < text.length := by omega
    rw [List.take_succ_eq_append_getElem stands, backCount_concat, here]
    unfold backStep
    rw [here, Counted]
    by_cases starts : find <+: whole
    · rw [if_pos starts, if_pos starts, if_pos (starts_iff.mp starts)]
      obtain ⟨least, exact_iff⟩ := @ih position rep (whole.drop find.length) (by omega) (Nat.le_refl _)
        (.inl rfl) fun offset past under => absurd past (Nat.not_le_of_lt under)
      have nothing : (text.take position).drop position = [] :=
        List.drop_eq_nil_of_le (List.length_take_le ..)
      rw [nothing, List.nil_append] at least exact_iff
      have parts : text.take kept = text.take position ++ (text.take kept).drop position := by
        conv_lhs => rw [← List.take_append_drop position (text.take kept), List.take_take,
          Nat.min_eq_left (by omega)]
      have none := absent_take nonempty inside absent
      have more : hits find 0 (text.take position) ≤ hits find 0 (text.take kept) := by
        rw [parts]
        exact hits_append_le 0 _ _
      have atMost : hits find 0 (text.take kept) ≤ hits find 0 (text.take position) + 1 := by
        rw [parts]
        refine hits_append_le_succ 0 _ fun offset positive => ?_
        rw [List.drop_drop]
        exact none _ (by omega)
      have apart : position + find.length ≤ kept →
          hits find 0 (text.take position) + 1 ≤ hits find 0 (text.take kept) := by
        intro ends
        rw [parts]
        refine hits_append_succ nonempty (Nat.zero_le _) ?_
        rw [starts_iff, front] at starts
        refine List.prefix_of_prefix_length_le starts (List.prefix_append ..) ?_
        rw [List.length_drop]
        omega
      refine ⟨by omega, ?_⟩
      constructor
      · intro same
        exact ⟨.inr (by omega), exact_iff.mp (by omega)⟩
      · rintro ⟨counts, later⟩
        have rest := exact_iff.mpr later
        rcases counts with ends | fewer
        · have := apart ends
          omega
        · omega
    · rw [if_neg starts, if_neg starts, if_neg fun here => starts (starts_iff.mpr here), Nat.add_zero,
        is_whole]
      refine ih inside (by omega) context fun offset past under => ?_
      rcases Nat.eq_or_lt_of_le past with rfl | later
      · exact fun occurs => starts (starts_iff.mpr occurs)
      · exact absent offset later under

/-- **As many are replaced from the right as are counted from the left exactly when** each of them is
counted. -/
theorem backHits_eq_iff : backHits find rep text = hits find 0 text ↔
    Counted find rep text text.length [] text.length := by
  have spec := (@backCount_spec _ _ find rep longer nonempty text text.length text.length [] []
    (Nat.le_refl _) (Nat.le_refl _) (.inr ⟨rfl, rfl⟩)
    fun offset past under => absurd past (Nat.not_le_of_lt under)).2
  rwa [List.take_length, List.drop_length, List.append_nil, List.append_nil, backCount_nil] at spec

end Counts

end PrimoCore.Lib
