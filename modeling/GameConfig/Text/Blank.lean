/-
  White space and its removal at the ends of a text.

  `isBlank` holds of exactly the characters with the property White_Space.
  `trim` drops them at both ends, `trimStart` and `trimEnd` at one; what is
  left is empty or starts (ends) with a character that is not blank
  (`trimStart_head`, `trim_last`), and such a text stays as it is
  (`trim_of_ends`).
-/

namespace GameConfig.Text

/-- The characters with the property White_Space. -/
def isBlank (c : Char) : Bool :=
  let n := c.toNat
  (9 ≤ n && n ≤ 13) || n == 0x20 || n == 0x85 || n == 0xA0 || n == 0x1680 ||
    (0x2000 ≤ n && n ≤ 0x200A) || n == 0x2028 || n == 0x2029 || n == 0x202F ||
    n == 0x205F || n == 0x3000

/-- Drops the blanks in front. -/
def trimStart (cs : List Char) : List Char := cs.dropWhile isBlank

/-- Drops the blanks at the end. -/
def trimEnd (cs : List Char) : List Char := (cs.reverse.dropWhile isBlank).reverse

/-- Drops the blanks at both ends. -/
def trim (cs : List Char) : List Char := trimEnd (trimStart cs)

/-- `trim` on a string. -/
def trimmed (s : String) : String := String.ofList (trim s.toList)

/-- Nothing but blanks. -/
def isBlankText (s : String) : Bool := s.toList.all isBlank

theorem trimStart_head {cs : List Char} {c : Char} (h : (trimStart cs).head? = some c) :
    isBlank c = false := by
  induction cs with
  | nil => simp [trimStart] at h
  | cons d cs ih =>
    by_cases hd : isBlank d = true
    · exact ih (by simpa [trimStart, List.dropWhile, hd] using h)
    · simp [trimStart, List.dropWhile, hd] at h
      subst h
      simpa using hd

theorem trimStart_of_head {c : Char} (cs : List Char) (h : isBlank c = false) :
    trimStart (c :: cs) = c :: cs := by
  simp [trimStart, h]

theorem trimEnd_of_last {c : Char} (cs : List Char) (h : isBlank c = false) :
    trimEnd (cs ++ [c]) = cs ++ [c] := by
  simp [trimEnd, h]

theorem trimEnd_of_getLast? {cs : List Char} (h : ∀ c ∈ cs.getLast?, isBlank c = false) :
    trimEnd cs = cs := by
  rcases List.eq_nil_or_concat cs with rfl | ⟨ds, c, rfl⟩
  · rfl
  · rw [List.concat_eq_append] at h ⊢
    exact trimEnd_of_last ds (h c (by simp))

/-- A text without blanks at its ends stays as it is. -/
theorem trim_of_ends {cs : List Char} (hfirst : ∀ c ∈ cs.head?, isBlank c = false)
    (hlast : ∀ c ∈ cs.getLast?, isBlank c = false) : trim cs = cs := by
  have hstart : trimStart cs = cs := by
    cases cs with
    | nil => rfl
    | cons c cs => exact trimStart_of_head cs (hfirst c rfl)
  rw [trim, hstart, trimEnd_of_getLast? hlast]

/-- A text without blanks stays as it is. -/
theorem trim_of_free {cs : List Char} (h : ∀ c ∈ cs, isBlank c = false) : trim cs = cs :=
  trim_of_ends (fun c hc => h c (List.mem_of_head? hc)) fun c hc => h c (List.mem_of_getLast? hc)

theorem trim_last {cs : List Char} {c : Char} (h : (trim cs).getLast? = some c) :
    isBlank c = false := by
  rw [trim, trimEnd, List.getLast?_reverse] at h
  exact trimStart_head h

/-- What trimming takes away is blank. -/
theorem exists_trimStart (cs : List Char) :
    ∃ front, cs = front ++ trimStart cs ∧ ∀ c ∈ front, isBlank c = true :=
  ⟨cs.takeWhile isBlank, List.takeWhile_append_dropWhile.symm,
    List.all_eq_true.1 List.all_takeWhile⟩

theorem exists_trim (cs : List Char) : ∃ front back, cs = front ++ (trim cs ++ back) ∧
    (∀ c ∈ front, isBlank c = true) ∧ ∀ c ∈ back, isBlank c = true := by
  obtain ⟨front, hfront, hblank⟩ := exists_trimStart cs
  obtain ⟨back, hback, hblank'⟩ := exists_trimStart (trimStart cs).reverse
  refine ⟨front, back.reverse, ?_, hblank, fun c hc => hblank' c (List.mem_reverse.1 hc)⟩
  have hend : trimStart cs = trim cs ++ back.reverse := by
    rw [← List.reverse_reverse (trimStart cs), hback, List.reverse_append]
    rfl
  rw [← hend]
  exact hfront

theorem mem_trim {cs : List Char} {c : Char} (h : c ∈ cs) (hc : isBlank c = false) :
    c ∈ trim cs := by
  obtain ⟨front, back, hcs, hfront, hback⟩ := exists_trim cs
  rw [hcs] at h
  rcases List.mem_append.1 h with h | h
  · exact absurd (hfront c h) (by simp [hc])
  rcases List.mem_append.1 h with h | h
  · exact h
  · exact absurd (hback c h) (by simp [hc])

end GameConfig.Text
