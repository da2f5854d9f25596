/-
  Cutting a text at separator characters.

  `cut` splits at the first occurrence of a character, `cutLast` at the last
  one, `pieces` at all of them.  A cut loses the separator and nothing else
  (`eq_of_cut`), and its first part is free of it (`not_mem_of_cut`).  A part
  free of the separator is cut off whole (`cut_append`, `pieces_append`).
-/

namespace GameConfig.Text

/-- The parts before and after the first `sep`, if there is one. -/
def cut (sep : Char) : List Char → Option (List Char × List Char)
  | [] => none
  | c :: cs =>
    if c = sep then some ([], cs)
    else match cut sep cs with
      | some (before, after) => some (c :: before, after)
      | none => none

/-- The parts before and after the last `sep`, if there is one. -/
def cutLast (sep : Char) (cs : List Char) : Option (List Char × List Char) :=
  match cut sep cs.reverse with
  | some (after, before) => some (before.reverse, after.reverse)
  | none => none

/-- The pieces between the occurrences of `sep`; there is always at least one. -/
def pieces (sep : Char) : List Char → List (List Char)
  | [] => [[]]
  | c :: cs =>
    if c = sep then [] :: pieces sep cs
    else match pieces sep cs with
      | [] => [[c]]
      | p :: ps => (c :: p) :: ps

/-- Drops `front` from the start of the text, if it stands there. -/
def dropFront? : List Char → List Char → Option (List Char)
  | [], cs => some cs
  | _ :: _, [] => none
  | p :: ps, c :: cs => if p = c then dropFront? ps cs else none

/-- `pieces` on a string, each piece trimmed by `f`. -/
def piecesWith (f : List Char → List Char) (sep : Char) (s : String) : List String :=
  (pieces sep s.toList).map fun p => String.ofList (f p)

theorem dropFront?_append (front cs : List Char) : dropFront? front (front ++ cs) = some cs := by
  induction front with
  | nil => rfl
  | cons c front ih => simp [dropFront?, ih]

/-- What is not a separator stands in one of the pieces. -/
theorem mem_pieces {sep c : Char} {cs : List Char} (h : c ∈ cs) (hc : c ≠ sep) :
    ∃ p ∈ pieces sep cs, c ∈ p := by
  induction cs with
  | nil => cases h
  | cons d cs ih =>
    by_cases hd : d = sep
    · rcases List.mem_cons.1 h with rfl | h
      · exact absurd hd hc
      · obtain ⟨p, hp, hcp⟩ := ih h
        exact ⟨p, by simp [pieces, hd, hp], hcp⟩
    · rw [pieces, if_neg hd]
      cases hr : pieces sep cs with
      | nil =>
        rcases List.mem_cons.1 h with rfl | h
        · exact ⟨[c], by simp, by simp⟩
        · obtain ⟨p, hp, -⟩ := ih h
          rw [hr] at hp
          cases hp
      | cons q qs =>
        rcases List.mem_cons.1 h with rfl | h
        · exact ⟨c :: q, by simp, by simp⟩
        · obtain ⟨p, hp, hcp⟩ := ih h
          rw [hr] at hp
          rcases List.mem_cons.1 hp with rfl | hp
          · exact ⟨d :: p, by simp, List.mem_cons_of_mem _ hcp⟩
          · exact ⟨p, List.mem_cons_of_mem _ hp, hcp⟩

theorem eq_of_cut {sep : Char} {cs before after : List Char}
    (h : cut sep cs = some (before, after)) : cs = before ++ sep :: after := by
  induction cs generalizing before with
  | nil => simp [cut] at h
  | cons c cs ih =>
    by_cases hc : c = sep
    · simp [cut, hc] at h
      obtain ⟨rfl, rfl⟩ := h
      simp [hc]
    · cases hr : cut sep cs with
      | none => simp [cut, hc, hr] at h
      | some p =>
        obtain ⟨b, a⟩ := p
        simp [cut, hc, hr] at h
        obtain ⟨rfl, rfl⟩ := h
        simp [ih hr]

theorem not_mem_of_cut {sep : Char} {cs before after : List Char}
    (h : cut sep cs = some (before, after)) : sep ∉ before := by
  induction cs generalizing before with
  | nil => simp [cut] at h
  | cons c cs ih =>
    by_cases hc : c = sep
    · simp [cut, hc] at h
      obtain ⟨rfl, -⟩ := h
      simp
    · cases hr : cut sep cs with
      | none => simp [cut, hc, hr] at h
      | some p =>
        obtain ⟨b, a⟩ := p
        simp [cut, hc, hr] at h
        obtain ⟨rfl, rfl⟩ := h
        simp [ih hr, Ne.symm hc]

theorem cut_append {sep : Char} {before : List Char} (h : sep ∉ before) (after : List Char) :
    cut sep (before ++ sep :: after) = some (before, after) := by
  induction before with
  | nil => simp [cut]
  | cons c before ih =>
    rw [List.mem_cons, not_or] at h
    simp [cut, Ne.symm h.1, ih h.2]

theorem pieces_append {sep : Char} {before : List Char} (h : sep ∉ before) (after : List Char) :
    pieces sep (before ++ sep :: after) = before :: pieces sep after := by
  induction before with
  | nil => simp [pieces]
  | cons c before ih =>
    rw [List.mem_cons, not_or] at h
    simp [pieces, Ne.symm h.1, ih h.2]

theorem pieces_of_not_mem {sep : Char} {cs : List Char} (h : sep ∉ cs) : pieces sep cs = [cs] := by
  induction cs with
  | nil => rfl
  | cons c cs ih =>
    rw [List.mem_cons, not_or] at h
    simp [pieces, Ne.symm h.1, ih h.2]

end GameConfig.Text
