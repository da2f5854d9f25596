import GameConfig.Proofs.Number.Spelling
import GameConfig.Rule.Interval

/-
  Intervals as they are written.

  `Interval.Written` relates a text to the interval of numerals that it spells:
  what its brackets are and what stands on either side of the comma.  Reading
  keeps the brackets and reads the ends one by one (`Written.read?_eq_some_iff`),
  so an interval that was read contains a number as the written one admits it,
  up to how the read ends compare (`Matches.contains_iff`).
-/

namespace GameConfig.Interval

open Text

variable {α β : Type}

/-! ## Ends -/

/-- The text of an end: a numeral between blanks, or nothing but blanks. -/
def IsEnd (cs : List Char) : Option Numeral → Prop
  | none => trim cs = []
  | some n => trim cs = n.chars

instance (cs : List Char) : (e : Option Numeral) → Decidable (IsEnd cs e)
  | none => inferInstanceAs (Decidable (trim cs = []))
  | some n => inferInstanceAs (Decidable (trim cs = n.chars))

/-- The intervals have the same brackets and related ends. -/
structure Matches (r : α → β → Prop) (i : Interval α) (j : Interval β) : Prop where
  min : Option.Rel r i.min j.min
  minIn : i.minIn = j.minIn
  max : Option.Rel r i.max j.max
  maxIn : i.maxIn = j.maxIn

theorem rel_imp {r r' : α → β → Prop} (hr : ∀ a b, r a b → r' a b) {e : Option α} {o : Option β}
    (h : Option.Rel r e o) : Option.Rel r' e o := by
  cases h with
  | none => exact .none
  | some h => exact .some (hr _ _ h)

theorem Matches.imp {r r' : α → β → Prop} (hr : ∀ a b, r a b → r' a b) {i : Interval α}
    {j : Interval β} (h : Matches r i j) : Matches r' i j :=
  ⟨rel_imp hr h.min, h.minIn, rel_imp hr h.max, h.maxIn⟩

theorem exists_rel_iff {r : α → β → Prop} {e : Option α} :
    (∃ o, Option.Rel r e o) ↔ ∀ a ∈ e, ∃ b, r a b := by
  cases e with
  | none => exact iff_of_true ⟨none, .none⟩ (by simp)
  | some a =>
    constructor
    · rintro ⟨o, hr⟩ a' ha
      cases ha
      cases hr with
      | some h => exact ⟨_, h⟩
    · intro h
      obtain ⟨b, hb⟩ := h a rfl
      exact ⟨some b, .some hb⟩

/-- An interval is related to another if its ends are related to something. -/
theorem exists_matches_iff {r : α → β → Prop} {i : Interval α} : (∃ j, Matches r i j) ↔
    (∀ a ∈ i.min, ∃ b, r a b) ∧ ∀ a ∈ i.max, ∃ b, r a b := by
  rw [← exists_rel_iff, ← exists_rel_iff]
  constructor
  · rintro ⟨j, h⟩
    exact ⟨⟨j.min, h.min⟩, j.max, h.max⟩
  · rintro ⟨⟨min, hmin⟩, max, hmax⟩
    exact ⟨⟨min, i.minIn, max, i.maxIn⟩, hmin, rfl, hmax, rfl⟩

/-- An end has no other characters than blanks and those of numerals. -/
theorem IsEnd.not_mem {cs : List Char} {e : Option Numeral} (h : IsEnd cs e) {c : Char}
    (hblank : isBlank c = false) (hc : Numeral.isNumeralChar c = false) : c ∉ cs := by
  intro hmem
  have htrim := mem_trim hmem hblank
  cases e with
  | none =>
    rw [h] at htrim
    cases htrim
  | some n =>
    rw [h] at htrim
    rw [n.isNumeralChar_of_mem htrim] at hc
    cases hc

/-- A numeral has no blanks around it. -/
theorem isEnd_chars (n : Numeral) : IsEnd n.chars (some n) :=
  trim_of_free fun _ hc => Numeral.isBlank_of_isNumeralChar (n.isNumeralChar_of_mem hc)

theorem side?_eq_some_iff {read : List Char → Option α} {cs : List Char} {e : Option Numeral}
    (h : IsEnd cs e) {a : Option α} :
    side? read cs = some a ↔ Option.Rel (fun n x => read n.chars = some x) e a := by
  cases e with
  | none =>
    have hside : side? read cs = some none := by
      rw [side?, show trim cs = [] from h]
    rw [hside]
    constructor
    · intro ha
      cases ha
      exact .none
    · intro ha
      cases ha
      rfl
  | some n =>
    have hside : side? read cs = (read n.chars).map some := by
      rw [side?, show trim cs = n.chars from h]
      split
      · exact absurd ‹n.chars = []› n.chars_ne_nil
      · rfl
    rw [hside, Option.map_eq_some_iff]
    constructor
    · rintro ⟨x, hx, rfl⟩
      exact .some hx
    · intro ha
      cases ha with
      | some hx => exact ⟨_, hx, rfl⟩

/-! ## Whole intervals -/

def opening (closed : Bool) : Char := if closed then '[' else '('

def closing (closed : Bool) : Char := if closed then ']' else ')'

/-- The text spells an interval of numerals. -/
inductive Written (text : String) : Interval Numeral → Prop
  /-- Two ends in brackets. -/
  | bracketed {i : Interval Numeral} {low high : List Char}
      (htext : trim text.toList =
        opening i.minIn :: (low ++ ',' :: high ++ [closing i.maxIn]))
      (hlow : IsEnd low i.min) (hhigh : IsEnd high i.max) : Written text i
  /-- Without brackets both ends belong to the interval. -/
  | bare {a b : Option Numeral} {low high : List Char}
      (htext : trim text.toList = low ++ ',' :: high)
      (hlow : IsEnd low a) (hhigh : IsEnd high b) : Written text ⟨a, true, b, true⟩
  /-- One number is both ends. -/
  | single {n : Numeral} (htext : trim text.toList = n.chars) : Written text (.single n)

theorem brackets?_bracketed (p q : Bool) (inner : List Char) :
    brackets? (opening p :: (inner ++ [closing q])) = some (p, q, inner) := by
  cases p <;> cases q <;> simp [brackets?, opening, closing]

/-- What does not begin with a bracket has none. -/
theorem brackets?_eq_none {cs : List Char} (h : ∀ c ∈ cs.head?, c ≠ '[' ∧ c ≠ '(') :
    brackets? cs = none := by
  cases cs with
  | nil => rfl
  | cons c cs =>
    obtain ⟨hsquare, hround⟩ := h c rfl
    simp only [brackets?]
    split
    · rfl
    · rw [if_neg (by simp [hsquare, hround])]

variable [Endpoint α] {read : List Char → Option α}

theorem ends?_eq_some_iff {low high : List Char} {a b : Option Numeral} (hlow : IsEnd low a)
    (hhigh : IsEnd high b) (p q : Bool) {j : Interval α} :
    ends? read p q (low ++ ',' :: high) = some j ↔
      Matches (fun n x => read n.chars = some x) ⟨a, p, b, q⟩ j ∧ j.isProper = true := by
  have hcut := cut_append (hlow.not_mem (c := ',') rfl rfl) high
  unfold ends?
  rw [hcut]
  dsimp only
  constructor
  · intro h
    split at h
    · rename_i x y hx hy
      split at h
      · rename_i hproper
        cases h
        exact ⟨⟨(side?_eq_some_iff hlow).1 hx, rfl, (side?_eq_some_iff hhigh).1 hy, rfl⟩, hproper⟩
      · cases h
    · cases h
  · rintro ⟨⟨hmin, hp, hmax, hq⟩, hproper⟩
    rw [(side?_eq_some_iff hlow).2 hmin, (side?_eq_some_iff hhigh).2 hmax]
    cases j
    dsimp only at hp hq
    subst hp hq
    exact if_pos hproper

/-- A comma outside of brackets separates two ends. -/
theorem read?_bare {text : String} {low high : List Char} {a b : Option Numeral}
    (htext : trim text.toList = low ++ ',' :: high) (hlow : IsEnd low a) (hhigh : IsEnd high b)
    {j : Interval α} : read? read text = some j ↔
      Matches (fun n x => read n.chars = some x) ⟨a, true, b, true⟩ j ∧ j.isProper = true := by
  have hnone : brackets? (low ++ ',' :: high) = none := by
    refine brackets?_eq_none fun c hc => ?_
    cases low with
    | nil =>
      cases hc
      decide
    | cons d low =>
      cases hc
      constructor
      · rintro rfl
        exact hlow.not_mem rfl rfl (List.mem_cons_self ..)
      · rintro rfl
        exact hlow.not_mem rfl rfl (List.mem_cons_self ..)
  have hcomma : (low ++ ',' :: high).contains ',' = true := by simp
  unfold read?
  rw [htext]
  dsimp only
  rw [hnone]
  dsimp only
  rw [if_pos hcomma]
  exact ends?_eq_some_iff hlow hhigh true true

/-- A numeral is both ends. -/
theorem read?_single {text : String} {n : Numeral} (htext : trim text.toList = n.chars)
    (hirrefl : ∀ a : α, Endpoint.lt a a = false) {j : Interval α} : read? read text = some j ↔
      Matches (fun n x => read n.chars = some x) (.single n) j ∧ j.isProper = true := by
  have hchar : ∀ c ∈ n.chars, Numeral.isNumeralChar c = true := fun c => n.isNumeralChar_of_mem
  have hnone : brackets? n.chars = none := by
    refine brackets?_eq_none fun c hc => ?_
    have hc' := hchar c (List.mem_of_mem_head? hc)
    constructor
    · rintro rfl
      cases hc'
    · rintro rfl
      cases hc'
  have hcomma : n.chars.contains ',' = false := by
    rw [← Bool.not_eq_true, List.contains_iff_mem]
    intro hc
    cases hchar _ hc
  have hread : read? read text = (read n.chars).map Interval.single := by
    unfold read?
    rw [htext]
    dsimp only
    rw [hnone]
    dsimp only
    rw [if_neg (by rw [hcomma]; decide)]
  rw [hread, Option.map_eq_some_iff]
  constructor
  · rintro ⟨a, ha, rfl⟩
    exact ⟨⟨.some ha, rfl, .some ha, rfl⟩, by simp [isProper, Interval.single, hirrefl]⟩
  · rintro ⟨⟨hmin, hp, hmax, hq⟩, -⟩
    obtain ⟨min, minIn, max, maxIn⟩ := j
    dsimp only [Interval.single] at hmin hp hmax hq
    subst hp hq
    cases hmin with
    | some hx =>
      cases hmax with
      | some hy =>
        cases hx.symm.trans hy
        exact ⟨_, hx, rfl⟩

/-- **Reading keeps the brackets and reads the ends**, and only what is in order is read. -/
theorem Written.read?_eq_some_iff {text : String} {i : Interval Numeral} (hw : i.Written text)
    (hirrefl : ∀ a : α, Endpoint.lt a a = false) {j : Interval α} :
    read? read text = some j ↔
      Matches (fun n x => read n.chars = some x) i j ∧ j.isProper = true := by
  cases hw with
  | bracketed htext hlow hhigh =>
    unfold read?
    rw [htext]
    dsimp only
    rw [brackets?_bracketed]
    exact ends?_eq_some_iff hlow hhigh _ _
  | bare htext hlow hhigh => exact read?_bare htext hlow hhigh
  | single htext => exact read?_single htext hirrefl

/-! ## What an interval admits -/

/-- The number lies within the interval, where `before closed a b` says that `a` comes before `b`
    (or is `b`, if the end is closed). -/
def Admits (before : Bool → ℚ → ℚ → Prop) (i : Interval Numeral) (v : ℚ) : Prop :=
  (∀ a ∈ i.min, before i.minIn a.value v) ∧ ∀ b ∈ i.max, before i.maxIn v b.value

section

variable {r : α → ℚ → Prop} {before : Bool → ℚ → ℚ → Prop}
  (hbefore : ∀ (closed : Bool) {x y : α} {a b : ℚ}, r x a → r y b →
    ((if closed then Endpoint.le x y else Endpoint.lt x y) = true ↔ before closed a b))
  {i : Interval Numeral} {j : Interval α} (h : Matches (fun n x => r x n.value) i j)

include hbefore h

theorem Matches.above_iff {y : α} {v : ℚ} (hy : r y v) :
    j.above y = true ↔ ∀ a ∈ i.min, before i.minIn a.value v := by
  obtain ⟨imin, iminIn, imax, imaxIn⟩ := i
  obtain ⟨jmin, jminIn, jmax, jmaxIn⟩ := j
  obtain ⟨hmin, rfl, -, -⟩ := h
  cases hmin with
  | none => simp [above]
  | some hx => simpa [above] using hbefore iminIn hx hy

theorem Matches.below_iff {y : α} {v : ℚ} (hy : r y v) :
    j.below y = true ↔ ∀ b ∈ i.max, before i.maxIn v b.value := by
  obtain ⟨imin, iminIn, imax, imaxIn⟩ := i
  obtain ⟨jmin, jminIn, jmax, jmaxIn⟩ := j
  obtain ⟨-, -, hmax, rfl⟩ := h
  cases hmax with
  | none => simp [below]
  | some hx => simpa [below] using hbefore imaxIn hy hx

/-- **An interval that was read contains what the written one admits.** -/
theorem Matches.contains_iff {y : α} {v : ℚ} (hy : r y v) :
    j.contains y = true ↔ i.Admits before v := by
  rw [contains, Bool.and_eq_true, h.above_iff hbefore hy, h.below_iff hbefore hy, Admits]

/-- It is proper if it has an end and the ends are in order. -/
theorem Matches.isProper_iff : j.isProper = true ↔
    (i.min.isSome = true ∨ i.max.isSome = true) ∧
      ∀ a ∈ i.min, ∀ b ∈ i.max, ¬ before false b.value a.value := by
  obtain ⟨imin, iminIn, imax, imaxIn⟩ := i
  obtain ⟨jmin, jminIn, jmax, jmaxIn⟩ := j
  obtain ⟨hmin, -, hmax, -⟩ := h
  cases hmin with
  | none =>
    cases hmax with
    | none => simp [isProper]
    | some hy => simp [isProper]
  | some hx =>
    cases hmax with
    | none => simp [isProper]
    | some hy =>
      have hlt := hbefore false hy hx
      simp only [Bool.false_eq_true, if_false] at hlt
      simp [isProper, ← hlt]

end

end GameConfig.Interval
