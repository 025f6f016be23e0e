/-
**Patterns replaced by symbols.**

The patterns of a list are replaced one after another, each by a symbol of its own. What a symbol was put in for is
read back by a spelling.

* `replaceAll_cases` — **the induction rule** for a replacement: an occurrence, or a character where none starts.
* `flatMap_replaceAll`, `map_replaceAll`, `mem_replaceAll_of_mem` and so on — what a single replacement keeps.
* `replaceEach` — the replacements of a list of patterns.
* `flatMap_replaceEach` — they keep what the text spells.
* `exists_mem_replaceEach_iff` — **a symbol is put in exactly when** one of the patterns occurs.
* `replaceEach_lead` — a pattern at the front becomes its symbol, and what is behind it is replaced on its own.
-/

import PrimoCore.Lib.Pattern

namespace PrimoCore.Lib

variable {α β : Type*} [DecidableEq α] {find rep : List α}

/-! ### One replacement -/

/-- An occurrence at the front. -/
theorem replaceAll_find (nonempty : find ≠ []) (rest : List α) :
    replaceAll find rep (find ++ rest) = rep ++ replaceAll find rep rest := by
  obtain ⟨char, tail, rfl⟩ := List.exists_cons_of_ne_nil nonempty
  have here : char :: tail <+: char :: (tail ++ rest) := List.prefix_append (char :: tail) rest
  rw [List.cons_append, replaceAll, replaceFrom, if_pos here, replaceFrom_eq, List.length_cons,
    Nat.add_sub_cancel, List.drop_left]

/-- No occurrence at the front. -/
theorem replaceAll_cons {char : α} {rest : List α} (absent : ¬ find <+: char :: rest) :
    replaceAll find rep (char :: rest) = char :: replaceAll find rep rest := by
  rw [replaceAll, replaceFrom, if_neg absent]
  rfl

/-- **The induction rule** for a replacement. -/
theorem replaceAll_cases (nonempty : find ≠ []) {holds : List α → Prop} (nil : holds [])
    (found : ∀ rest, holds rest → holds (find ++ rest))
    (passed : ∀ char rest, ¬ find <+: char :: rest → holds rest → holds (char :: rest)) (text : List α) :
    holds text := by
  have positive := List.length_pos_iff.2 nonempty
  obtain ⟨bound, is_bound⟩ : ∃ bound, text.length ≤ bound := ⟨_, Nat.le_refl _⟩
  induction bound generalizing text with
  | zero =>
    rw [List.eq_nil_of_length_eq_zero (Nat.le_zero.1 is_bound)]
    exact nil
  | succ bound ih =>
    rcases text with - | ⟨char, rest⟩
    · exact nil
    · by_cases here : find <+: char :: rest
      · obtain ⟨behind, split⟩ := here
        have lengths := congrArg List.length split
        rw [List.length_append] at lengths
        rw [← split]
        exact found behind (ih behind (by omega))
      · exact passed char rest here (ih rest (Nat.le_of_succ_le_succ is_bound))

/-- A replacement that spells what it replaces keeps what the text spells. -/
theorem flatMap_replaceAll (nonempty : find ≠ []) {spell : α → List β}
    (same : rep.flatMap spell = find.flatMap spell) (text : List α) :
    (replaceAll find rep text).flatMap spell = text.flatMap spell := by
  induction text using replaceAll_cases nonempty with
  | nil => rfl
  | found rest ih => rw [replaceAll_find nonempty, List.flatMap_append, List.flatMap_append, same, ih]
  | passed char rest absent ih => rw [replaceAll_cons absent, List.flatMap_cons, List.flatMap_cons, ih]

omit [DecidableEq α] in
/-- A renaming that tells the characters of the pattern from all others keeps its occurrences. -/
theorem map_prefix_iff {rename : α → β}
    (faithful : ∀ other, ∀ char ∈ find, rename other = rename char → other = char)
    {text : List α} : find.map rename <+: text.map rename ↔ find <+: text := by
  induction find generalizing text with
  | nil => simp
  | cons char find ih =>
    have later := @ih fun other char member => faithful other char (List.mem_cons_of_mem _ member)
    rcases text with - | ⟨other, text⟩
    · simp
    · rw [List.map_cons, List.map_cons, List.cons_prefix_cons, List.cons_prefix_cons, later]
      refine and_congr_left fun _ => ⟨fun same => ?_, fun same => congrArg rename same⟩
      exact (faithful other char List.mem_cons_self same.symm).symm

theorem map_replaceAll [DecidableEq β] (nonempty : find ≠ []) {rename : α → β}
    (faithful : ∀ other, ∀ char ∈ find, rename other = rename char → other = char) (text : List α) :
    (replaceAll find rep text).map rename =
      replaceAll (find.map rename) (rep.map rename) (text.map rename) := by
  have nonempty' : find.map rename ≠ [] := by rwa [Ne, List.map_eq_nil_iff]
  induction text using replaceAll_cases nonempty with
  | nil => rfl
  | found rest ih =>
    rw [replaceAll_find nonempty, List.map_append, List.map_append, replaceAll_find nonempty', ih]
  | passed char rest absent ih =>
    have absent' : ¬ find.map rename <+: rename char :: rest.map rename := by
      rw [← List.map_cons, map_prefix_iff faithful]
      exact absent
    rw [replaceAll_cons absent, List.map_cons, List.map_cons, replaceAll_cons absent', ih]

/-- What is in a text behind a replacement was there, or is put in. -/
theorem mem_or_mem_of_mem_replaceAll (nonempty : find ≠ []) {text : List α} {symbol : α}
    (member : symbol ∈ replaceAll find rep text) : symbol ∈ text ∨ symbol ∈ rep := by
  induction text using replaceAll_cases nonempty with
  | nil => exact absurd member List.not_mem_nil
  | found rest ih =>
    rw [replaceAll_find nonempty] at member
    obtain new | old := List.mem_append.1 member
    · exact .inr new
    · exact (ih old).imp_left (List.mem_append_right _)
  | passed char rest absent ih =>
    rw [replaceAll_cons absent] at member
    obtain rfl | old := List.mem_cons.1 member
    · exact .inl List.mem_cons_self
    · exact (ih old).imp_left (List.mem_cons_of_mem _)

/-- What the pattern does not contain stays in the text. -/
theorem mem_replaceAll_of_mem (nonempty : find ≠ []) {text : List α} {symbol : α} (other : symbol ∉ find)
    (member : symbol ∈ text) : symbol ∈ replaceAll find rep text := by
  induction text using replaceAll_cases nonempty with
  | nil => exact member
  | found rest ih =>
    rw [replaceAll_find nonempty]
    obtain inside | behind := List.mem_append.1 member
    · exact absurd inside other
    · exact List.mem_append_right _ (ih behind)
  | passed char rest absent ih =>
    rw [replaceAll_cons absent]
    obtain rfl | behind := List.mem_cons.1 member
    · exact List.mem_cons_self
    · exact List.mem_cons_of_mem _ (ih behind)

/-- Where the pattern occurs, the replacement is put in. -/
theorem mem_replaceAll_of_occurs (nonempty : find ≠ []) {text : List α} {position : Nat}
    (occurs : position ∈ occurrences find text) {symbol : α} (member : symbol ∈ rep) :
    symbol ∈ replaceAll find rep text := by
  induction text using replaceAll_cases nonempty generalizing position with
  | nil =>
    change find <+: [].drop position at occurs
    rw [List.drop_nil, List.prefix_nil] at occurs
    exact absurd occurs nonempty
  | found rest ih =>
    rw [replaceAll_find nonempty]
    exact List.mem_append_left _ member
  | passed char rest absent ih =>
    rw [replaceAll_cons absent]
    rcases position with - | position
    · exact absurd occurs absent
    · exact List.mem_cons_of_mem _ (@ih position occurs)

/-- Where the pattern does not occur, nothing is replaced. -/
theorem replaceAll_absent (nonempty : find ≠ []) {text : List α}
    (absent : ∀ position, position ∉ occurrences find text) : replaceAll find rep text = text := by
  refine ((replaceAll_firstAt nonempty text).1 ?_).1
  cases found : firstAt find text with
  | none => rfl
  | some offset => exact absurd (firstAt_eq_some found).1 (absent offset)

/-- A text in which the pattern starts nowhere stays in front of what is replaced behind it. -/
theorem replaceAll_append_absent {front rest : List α}
    (absent : ∀ position < front.length, ¬ find <+: (front ++ rest).drop position) :
    replaceAll find rep (front ++ rest) = front ++ replaceAll find rep rest := by
  induction front with
  | nil => rfl
  | cons char front ih =>
    have here : ¬ find <+: char :: (front ++ rest) := absent 0 (Nat.succ_pos _)
    rw [List.cons_append, replaceAll_cons here,
      ih fun position inside => absent (position + 1) (Nat.succ_lt_succ inside), List.cons_append]

/-! ### A list of patterns -/

/-- **The replacements of a list of patterns**, the first with a symbol of a given number. -/
def replaceEach (code : Nat → α) : Nat → List (List α) → List α → List α
  | _, [], text => text
  | i, find :: finds, text => replaceEach code (i + 1) finds (replaceAll find [code i] text)

variable {code : Nat → α} {finds : List (List α)}

/-- **The replacements keep what the text spells.** -/
theorem flatMap_replaceEach (nonempty : ∀ find ∈ finds, find ≠ []) {spell : α → List β} {i : Nat}
    (same : ∀ k find, finds[k]? = some find → spell (code (i + k)) = find.flatMap spell) (text : List α) :
    (replaceEach code i finds text).flatMap spell = text.flatMap spell := by
  induction finds generalizing i text with
  | nil => rfl
  | cons find finds ih =>
    have here : [code i].flatMap spell = find.flatMap spell := by
      rw [List.flatMap_singleton]
      exact same 0 find rfl
    have later : ∀ k find, finds[k]? = some find → spell (code (i + 1 + k)) = find.flatMap spell := by
      intro k find found
      rw [Nat.add_assoc, Nat.add_comm 1 k]
      exact same (k + 1) find found
    rw [replaceEach, ih (fun find member => nonempty find (List.mem_cons_of_mem _ member)) later,
      flatMap_replaceAll (nonempty find List.mem_cons_self) here]

theorem map_replaceEach [DecidableEq β] (nonempty : ∀ find ∈ finds, find ≠ []) {rename : α → β}
    (faithful : ∀ find ∈ finds, ∀ other, ∀ char ∈ find, rename other = rename char → other = char)
    (i : Nat)
    (text : List α) :
    (replaceEach code i finds text).map rename =
      replaceEach (fun k => rename (code k)) i (finds.map (·.map rename)) (text.map rename) := by
  induction finds generalizing i text with
  | nil => rfl
  | cons find finds ih =>
    rw [replaceEach, ih (fun find member => nonempty find (List.mem_cons_of_mem _ member))
        fun find member => faithful find (List.mem_cons_of_mem _ member),
      map_replaceAll (nonempty find List.mem_cons_self) (faithful find List.mem_cons_self)]
    rfl

/-- What is in the text behind the replacements was there, or is one of the symbols. -/
theorem mem_or_eq_of_mem_replaceEach (nonempty : ∀ find ∈ finds, find ≠ []) {i : Nat} {text : List α}
    {symbol : α} (member : symbol ∈ replaceEach code i finds text) :
    symbol ∈ text ∨ ∃ k < finds.length, symbol = code (i + k) := by
  induction finds generalizing i text with
  | nil => exact .inl member
  | cons find finds ih =>
    obtain before | ⟨k, inside, same⟩ :=
      ih (fun find member => nonempty find (List.mem_cons_of_mem _ member)) member
    · obtain old | new := mem_or_mem_of_mem_replaceAll (nonempty find List.mem_cons_self) before
      · exact .inl old
      · exact .inr ⟨0, Nat.succ_pos _, List.mem_singleton.1 new⟩
    · exact .inr ⟨k + 1, Nat.succ_lt_succ inside, by rw [same, Nat.add_assoc, Nat.add_comm 1 k]⟩

/-- What no pattern contains stays in the text. -/
theorem mem_replaceEach_of_mem (nonempty : ∀ find ∈ finds, find ≠ []) {i : Nat} {text : List α}
    {symbol : α} (other : ∀ find ∈ finds, symbol ∉ find) (member : symbol ∈ text) :
    symbol ∈ replaceEach code i finds text := by
  induction finds generalizing i text with
  | nil => exact member
  | cons find finds ih =>
    have kept : symbol ∈ replaceAll find [code i] text :=
      mem_replaceAll_of_mem (nonempty find List.mem_cons_self) (other find List.mem_cons_self) member
    exact ih (fun find member => nonempty find (List.mem_cons_of_mem _ member))
      (fun find member => other find (List.mem_cons_of_mem _ member)) kept

/-- **A symbol is put in exactly when one of the patterns occurs.** -/
theorem exists_mem_replaceEach_iff (nonempty : ∀ find ∈ finds, find ≠ []) {i : Nat} {text : List α}
    (fresh : ∀ k, ∀ find ∈ finds, code k ∉ find) (new : ∀ k, code k ∉ text) :
    (∃ k, code k ∈ replaceEach code i finds text) ↔ ∃ find ∈ finds, ∃ position,
      position ∈ occurrences find text := by
  induction finds generalizing i with
  | nil =>
    constructor
    · rintro ⟨k, member⟩
      exact absurd member (new k)
    · rintro ⟨find, member, _⟩
      exact absurd member List.not_mem_nil
  | cons find finds ih =>
    have nonempty' : ∀ find ∈ finds, find ≠ [] :=
      fun find member => nonempty find (List.mem_cons_of_mem _ member)
    have fresh' : ∀ k, ∀ find ∈ finds, code k ∉ find := fun k find member =>
      fresh k find (List.mem_cons_of_mem _ member)
    by_cases occurs : ∃ position, position ∈ occurrences find text
    · obtain ⟨position, there⟩ := occurs
      have put := mem_replaceAll_of_occurs (nonempty find List.mem_cons_self) there
        (List.mem_singleton_self (code i))
      exact iff_of_true ⟨i, mem_replaceEach_of_mem nonempty' (fresh' i) put⟩
        ⟨find, List.mem_cons_self, position, there⟩
    · have absent := not_exists.1 occurs
      rw [replaceEach, replaceAll_absent (nonempty find List.mem_cons_self) absent, ih nonempty' fresh']
      constructor
      · rintro ⟨other, member, there⟩
        exact ⟨other, List.mem_cons_of_mem _ member, there⟩
      · rintro ⟨other, member, there⟩
        obtain rfl | behind := List.mem_cons.1 member
        · exact absurd there occurs
        · exact ⟨other, behind, there⟩

/-- A symbol that no pattern contains stays in front. -/
theorem replaceEach_cons {symbol : α} (other : ∀ find ∈ finds, symbol ∉ find)
    (nonempty : ∀ find ∈ finds, find ≠ []) (i : Nat) (rest : List α) :
    replaceEach code i finds (symbol :: rest) = symbol :: replaceEach code i finds rest := by
  induction finds generalizing i rest with
  | nil => rfl
  | cons find finds ih =>
    have absent : ¬ find <+: symbol :: rest := by
      intro here
      obtain ⟨char, tail, rfl⟩ := List.exists_cons_of_ne_nil (nonempty find List.mem_cons_self)
      obtain ⟨same, _⟩ := List.cons_prefix_cons.1 here
      exact other _ List.mem_cons_self (same ▸ List.mem_cons_self)
    rw [replaceEach, replaceAll_cons absent,
      ih (fun find member => other find (List.mem_cons_of_mem _ member))
      fun find member => nonempty find (List.mem_cons_of_mem _ member)]
    rfl

omit [DecidableEq α] in
/-- No occurrence of the pattern starts inside a text, whatever follows. -/
def Clear (front find : List α) : Prop :=
  ∀ position < front.length, 0 < position →
    ¬ (find <+: front.drop position ∨ front.drop position <+: find)

omit [DecidableEq α] in
theorem Clear.absent {front find : List α} (clear : Clear front find) {position : Nat}
    (inside : position < front.length)
    (positive : 0 < position) (rest : List α) : ¬ find <+: (front ++ rest).drop position := by
  rw [List.drop_append_of_le_length (Nat.le_of_lt inside)]
  intro here
  obtain shorter | longer := List.prefix_or_prefix_of_prefix here
    (List.prefix_append (front.drop position) rest)
  · exact clear position inside positive (.inl shorter)
  · exact clear position inside positive (.inr longer)

/-- **A pattern at the front becomes its symbol**, when none of the patterns before it occurs there; what is behind it is
replaced on its own. -/
theorem replaceEach_lead {before after : List (List α)} {front rest : List α} {i : Nat}
    {spell : α → List β} (nonempty : ∀ find ∈ before ++ front :: after, find ≠ [])
    (same : ∀ k find, before[k]? = some find → spell (code (i + k)) = find.flatMap spell)
    (clear : ∀ find ∈ before, Clear front find)
    (first : ∀ find ∈ before, ¬ find.flatMap spell <+: (front ++ rest).flatMap spell)
    (fresh : ∀ find ∈ after, code (i + before.length) ∉ find) :
    replaceEach code i (before ++ front :: after) (front ++ rest) =
      code (i + before.length) :: replaceEach code i (before ++ front :: after) rest := by
  induction before generalizing i rest with
  | nil =>
    rw [List.nil_append, replaceEach,
      replaceAll_find (nonempty front (List.mem_append_right _ List.mem_cons_self)),
      List.singleton_append]
    exact replaceEach_cons fresh (fun find member => nonempty find (List.mem_cons_of_mem _ member))
      (i + 1) _
  | cons find before ih =>
    have nonempty' : ∀ find ∈ before ++ front :: after, find ≠ [] := fun find member =>
      nonempty find (List.mem_cons_of_mem _ member)
    have here : [code i].flatMap spell = find.flatMap spell := by
      rw [List.flatMap_singleton]
      exact same 0 find rfl
    have later : ∀ k find, before[k]? = some find → spell (code (i + 1 + k)) = find.flatMap spell := by
      intro k find found
      rw [Nat.add_assoc, Nat.add_comm 1 k]
      exact same (k + 1) find found
    have absent : ∀ position < front.length, ¬ find <+: (front ++ rest).drop position := by
      intro position inside starts
      obtain rfl | positive := Nat.eq_zero_or_pos position
      · obtain ⟨behind, split⟩ := starts
        refine first find List.mem_cons_self ?_
        rw [List.drop_zero] at split
        rw [← split, List.flatMap_append]
        exact List.prefix_append _ _
      · exact (clear find List.mem_cons_self).absent inside positive rest starts
    have spelled := flatMap_replaceAll (nonempty find List.mem_cons_self) here rest
    have number : i + (find :: before).length = i + 1 + before.length := by
      rw [List.length_cons]
      omega
    rw [number] at fresh ⊢
    rw [List.cons_append, replaceEach, replaceAll_append_absent absent]
    refine ih nonempty' later (fun find member => clear find (List.mem_cons_of_mem _ member))
      (fun other member => ?_)
      fresh
    rw [List.flatMap_append, spelled, ← List.flatMap_append]
    exact first other (List.mem_cons_of_mem _ member)

end PrimoCore.Lib
