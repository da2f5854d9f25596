import GameConfig.Ty.Notation
import Mathlib.Data.List.Infix

/-
  Brackets in type expressions.

  An expression is cut at a comma outside all brackets and parentheses, or at
  the parenthesis that closes the first one.  The first way of cutting counts
  both kinds together, the second one parentheses alone.  A text in which both
  kinds are balanced for themselves is passed over by either, once it stands in
  parentheses.

  * `Balanced`: no more is closed than was opened before, and all of it in the
    end; `Level` asks this of both kinds;
  * `closing_eq_some`: the parenthesis that closes is the one behind a balanced
    text;
  * `splitAt?_parens`: behind a level text in parentheses, the comma is the one
    to cut at.
-/

namespace GameConfig.Notation

open Text

/-! ## Balanced texts -/

/-- In every prefix no more is closed than was opened, and in the end as much as was opened. -/
structure Balanced (opener closer : Char) (cs : List Char) : Prop where
  sane : ∀ p, p <+: cs → p.count closer ≤ p.count opener
  settled : cs.count closer = cs.count opener

instance (opener closer : Char) (cs : List Char) : Decidable (Balanced opener closer cs) :=
  decidable_of_iff ((∀ p ∈ cs.inits, p.count closer ≤ p.count opener) ∧
      cs.count closer = cs.count opener)
    ⟨fun h => ⟨fun p hp => h.1 p ((List.mem_inits p cs).2 hp), h.2⟩,
      fun h => ⟨fun p hp => h.sane p ((List.mem_inits p cs).1 hp), h.settled⟩⟩

/-- A prefix of two texts ends in the first one or in the second one. -/
theorem prefix_append {as bs p : List Char} (h : p <+: as ++ bs) :
    p <+: as ∨ ∃ q, q <+: bs ∧ p = as ++ q := by
  obtain ⟨t, ht⟩ := h
  rcases List.append_eq_append_iff.1 ht with ⟨q, rfl, -⟩ | ⟨q, rfl, rfl⟩
  · exact Or.inl (List.prefix_append p q)
  · exact Or.inr ⟨q, List.prefix_append q t, rfl⟩

namespace Balanced

variable {o c : Char} {as bs cs : List Char}

theorem append (ha : Balanced o c as) (hb : Balanced o c bs) : Balanced o c (as ++ bs) where
  sane := by
    intro p hp
    rcases prefix_append hp with hp | ⟨q, hq, rfl⟩
    · exact ha.sane p hp
    · rw [List.count_append, List.count_append, ha.settled]
      exact Nat.add_le_add_left (hb.sane q hq) _
  settled := by rw [List.count_append, List.count_append, ha.settled, hb.settled]

/-- A text without either character is balanced. -/
theorem of_free (ho : o ∉ cs) (hc : c ∉ cs) : Balanced o c cs where
  sane := by
    intro p hp
    rw [List.count_eq_zero_of_not_mem fun h => hc (hp.subset h)]
    exact Nat.zero_le _
  settled := by rw [List.count_eq_zero_of_not_mem ho, List.count_eq_zero_of_not_mem hc]

theorem enclose (hne : o ≠ c) (h : Balanced o c cs) : Balanced o c (o :: (cs ++ [c])) where
  sane := by
    intro p hp
    rcases List.prefix_cons_iff.1 hp with rfl | ⟨q, rfl, hq⟩
    · simp
    · rcases List.prefix_concat_iff.1 hq with rfl | hq
      · simp [hne, Ne.symm hne, h.settled]
      · have := h.sane q hq
        simp only [List.count_cons_self, List.count_cons_of_ne hne]
        omega
  settled := by simp [hne, Ne.symm hne, h.settled]

end Balanced

/-- Parentheses are balanced, and so are brackets. -/
structure Level (cs : List Char) : Prop where
  parens : Balanced '(' ')' cs
  brackets : Balanced '[' ']' cs

instance (cs : List Char) : Decidable (Level cs) :=
  decidable_of_iff (Balanced '(' ')' cs ∧ Balanced '[' ']' cs)
    ⟨fun h => ⟨h.1, h.2⟩, fun h => ⟨h.parens, h.brackets⟩⟩

namespace Level

variable {as bs cs : List Char}

theorem append (ha : Level as) (hb : Level bs) : Level (as ++ bs) :=
  ⟨ha.parens.append hb.parens, ha.brackets.append hb.brackets⟩

theorem of_free (h : ∀ c ∈ ['(', ')', '[', ']'], c ∉ cs) : Level cs :=
  ⟨.of_free (h _ (by simp)) (h _ (by simp)), .of_free (h _ (by simp)) (h _ (by simp))⟩

theorem cons {c : Char} (hc : c ∉ ['(', ')', '[', ']']) (h : Level cs) : Level (c :: cs) := by
  have hfirst : Level [c] := by
    refine of_free fun d hd hdc => ?_
    rw [List.mem_singleton] at hdc
    exact hc (hdc ▸ hd)
  exact hfirst.append h

/-- A level text in parentheses is level. -/
theorem enclose (h : Level cs) : Level ('(' :: (cs ++ [')'])) := by
  refine ⟨h.parens.enclose (by decide), ?_⟩
  have hopen : Balanced '[' ']' ['('] := .of_free (by decide) (by decide)
  have hclose : Balanced '[' ']' [')'] := .of_free (by decide) (by decide)
  exact hopen.append (h.brackets.append hclose)

end Level

/-! ## Passing over a text -/

/-- How many more parentheses the text opens than it closes. -/
def parensOpened (cs : List Char) : Int := cs.count '(' - cs.count ')'

/-- How many more parentheses and brackets the text opens than it closes. -/
def opened (cs : List Char) : Int := parensOpened cs + (cs.count '[' - cs.count ']')

theorem parenDepth_add (depth : Int) (c : Char) (cs : List Char) :
    parenDepth depth c + parensOpened cs = depth + parensOpened (c :: cs) := by
  simp only [parenDepth, parensOpened, List.count_cons, beq_iff_eq]
  split_ifs <;> simp_all <;> omega

theorem nesting_add (depth : Int) (c : Char) (cs : List Char) :
    nesting depth c + opened cs = depth + opened (c :: cs) := by
  simp only [nesting, opened, parensOpened, List.count_cons, beq_iff_eq]
  split_ifs <;> simp_all <;> omega

/-- As long as some parenthesis is open, the text goes on. -/
theorem closing_append {depth : Int} {cs : List Char}
    (h : ∀ p, p <+: cs → 0 < depth + parensOpened p) (rest : List Char) :
    closing depth (cs ++ rest) =
      (closing (depth + parensOpened cs) rest).map fun r => (cs ++ r.1, r.2) := by
  induction cs generalizing depth with
  | nil => simp [parensOpened]
  | cons c cs ih =>
    have hstep : ∀ p, p <+: cs → 0 < parenDepth depth c + parensOpened p := by
      intro p hp
      rw [parenDepth_add]
      exact h _ ((List.prefix_cons_inj c).2 hp)
    have hcond : ¬(c = ')' ∧ depth = 1) := by
      rintro ⟨rfl, rfl⟩
      exact absurd (h [')'] (by simp)) (by decide)
    rw [List.cons_append, closing, if_neg hcond, ih hstep, parenDepth_add]
    cases closing (depth + parensOpened (c :: cs)) rest <;> rfl

/-- As long as some bracket is open, no comma is met. -/
theorem splitAt?_append {depth : Int} {cs : List Char}
    (h : ∀ p, p <+: cs → 0 < depth + opened p) (rest : List Char) :
    splitAt? depth (cs ++ rest) =
      (splitAt? (depth + opened cs) rest).map fun r => (cs ++ r.1, r.2) := by
  induction cs generalizing depth with
  | nil => simp [opened, parensOpened]
  | cons c cs ih =>
    have hstep : ∀ p, p <+: cs → 0 < nesting depth c + opened p := by
      intro p hp
      rw [nesting_add]
      exact h _ ((List.prefix_cons_inj c).2 hp)
    have hcond : ¬(c = ',' ∧ depth = 0) := by
      rintro ⟨-, rfl⟩
      exact absurd (h [] List.nil_prefix) (by decide)
    rw [List.cons_append, splitAt?, if_neg hcond, ih hstep, nesting_add]
    cases splitAt? (depth + opened (c :: cs)) rest <;> rfl

/-- The parenthesis behind a balanced text is the one that closes. -/
theorem closing_balanced {cs : List Char} (h : Balanced '(' ')' cs) (rest : List Char) :
    closing 1 (cs ++ ')' :: rest) = some (cs, rest) := by
  have hopen : ∀ p, p <+: cs → 0 < 1 + parensOpened p := by
    intro p hp
    have := h.sane p hp
    unfold parensOpened
    omega
  have hsettled : parensOpened cs = 0 := by
    rw [parensOpened, h.settled]
    omega
  rw [closing_append hopen, hsettled]
  simp [closing]

/-- What is cut at a comma is the parts with the comma between them. -/
theorem eq_of_splitAt? {depth : Int} {cs before after : List Char}
    (h : splitAt? depth cs = some (before, after)) : cs = before ++ ',' :: after := by
  induction cs generalizing depth before with
  | nil => cases h
  | cons c cs ih =>
    unfold splitAt? at h
    split at h
    · rename_i hc
      cases h
      rw [hc.1]; rfl
    · split at h
      · rename_i hs
        cases h
        rw [ih hs]; rfl
      · cases h

/-- Up to the parenthesis that closes, some parenthesis is open. -/
theorem of_closing {depth : Int} {cs inner after : List Char} (hd : 0 < depth)
    (h : closing depth cs = some (inner, after)) :
    cs = inner ++ ')' :: after ∧ depth + parensOpened inner = 1 ∧
      ∀ p, p <+: inner → 0 < depth + parensOpened p := by
  induction cs generalizing depth inner with
  | nil => cases h
  | cons c cs ih =>
    unfold closing at h
    split at h
    · rename_i hc
      obtain ⟨rfl, rfl⟩ := hc
      cases h
      refine ⟨rfl, rfl, fun p hp => ?_⟩
      rw [List.prefix_nil.1 hp]
      decide
    · rename_i hc
      split at h
      · rename_i inner' _ hs
        cases h
        have hstep : 0 < parenDepth depth c := by
          unfold parenDepth
          split_ifs with ho hcl
          · omega
          · have : depth ≠ 1 := fun h1 => hc ⟨hcl, h1⟩
            omega
          · exact hd
        obtain ⟨hcs, hend, hopen⟩ := ih hstep hs
        refine ⟨by rw [hcs]; rfl, by rw [← parenDepth_add]; exact hend, fun p hp => ?_⟩
        rcases List.prefix_cons_iff.1 hp with rfl | ⟨q, rfl, hq⟩
        · simpa [parensOpened] using hd
        · rw [← parenDepth_add]
          exact hopen q hq
      · cases h

/-- **The parenthesis that closes is the one behind a balanced text.** -/
theorem closing_eq_some {cs inner after : List Char} :
    closing 1 cs = some (inner, after) ↔ Balanced '(' ')' inner ∧ cs = inner ++ ')' :: after := by
  constructor
  · intro h
    obtain ⟨hcs, hend, hopen⟩ := of_closing (by decide) h
    refine ⟨⟨fun p hp => ?_, ?_⟩, hcs⟩
    · have := hopen p hp
      unfold parensOpened at this
      omega
    · unfold parensOpened at hend
      omega
  · rintro ⟨h, rfl⟩
    exact closing_balanced h after

/-- A level text in parentheses is cut off at the comma behind it. -/
theorem splitAt?_parens {cs : List Char} (h : Level cs) (rest : List Char) :
    splitAt? 0 ('(' :: (cs ++ ')' :: ',' :: rest)) = some ('(' :: (cs ++ [')']), rest) := by
  have hopen : ∀ p, p <+: cs → 0 < 1 + opened p := by
    intro p hp
    have hparens := h.parens.sane p hp
    have hbrackets := h.brackets.sane p hp
    unfold opened parensOpened
    omega
  have hsettled : opened cs = 0 := by
    rw [opened, parensOpened, h.parens.settled, h.brackets.settled]
    omega
  have hinner : splitAt? 1 (cs ++ ')' :: ',' :: rest) = some (cs ++ [')'], rest) := by
    rw [splitAt?_append hopen, hsettled]
    simp [splitAt?, nesting]
  have hfirst : nesting 0 '(' = 1 := rfl
  rw [splitAt?, if_neg (by decide), hfirst, hinner]

end GameConfig.Notation
