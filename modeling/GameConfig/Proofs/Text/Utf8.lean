import GameConfig.Text.Utf8

/-
  Characters at the front of a text in UTF-8 are the symbols of the bytes at its
  front, whatever bytes follow (`symbols_front`).
-/

namespace GameConfig.Text.Utf8

/-- The first character is that of the first bytes. -/
theorem symbols_first {bytes : List Nat} {c : Char} {rest : List Symbol}
    (h : symbols bytes = some c :: rest) :
    ∃ x y, bytes = x ++ y ∧ symbols y = rest ∧ ∀ z, symbols (x ++ z) = some c :: symbols z := by
  unfold symbols at h
  split at h
  · cases h
  rename_i a bytes
  split at h
  case isTrue ha =>
    obtain ⟨hc, rfl⟩ := List.cons.inj h
    refine ⟨[a], bytes, rfl, rfl, fun z => ?_⟩
    rw [List.singleton_append, symbols.eq_def]
    dsimp only
    rw [if_pos ha, hc]
  rename_i ha
  split at h
  case h_2 => cases h
  rename_i b bytes
  split at h
  case isTrue hb =>
    obtain ⟨hc, rfl⟩ := List.cons.inj h
    refine ⟨[a, b], bytes, rfl, rfl, fun z => ?_⟩
    rw [List.cons_append, List.singleton_append, symbols.eq_def]
    dsimp only
    rw [if_neg ha, if_pos hb, hc]
  rename_i hb
  split at h
  case h_2 => cases h
  rename_i c' bytes
  split at h
  case isTrue hc' =>
    obtain ⟨hc, rfl⟩ := List.cons.inj h
    refine ⟨[a, b, c'], bytes, rfl, rfl, fun z => ?_⟩
    rw [List.cons_append, List.cons_append, List.singleton_append, symbols.eq_def]
    dsimp only
    rw [if_neg ha, if_neg hb, if_pos hc', hc]
  rename_i hc'
  split at h
  case h_2 => cases h
  rename_i d bytes
  split at h
  case isTrue hd =>
    obtain ⟨hc, rfl⟩ := List.cons.inj h
    refine ⟨[a, b, c', d], bytes, rfl, rfl, fun z => ?_⟩
    rw [List.cons_append, List.cons_append, List.cons_append, List.singleton_append,
      symbols.eq_def]
    dsimp only
    rw [if_neg ha, if_neg hb, if_neg hc', if_pos hd, hc]
  case isFalse => cases h

/-- **Characters at the front are those of the bytes at the front.** -/
theorem symbols_front {bytes : List Nat} {front : List Char} {rest : List Symbol}
    (h : symbols bytes = front.map some ++ rest) :
    ∃ x y, bytes = x ++ y ∧ symbols y = rest ∧
      ∀ z, symbols (x ++ z) = front.map some ++ symbols z := by
  induction front generalizing bytes with
  | nil => exact ⟨[], bytes, rfl, h, fun z => rfl⟩
  | cons c front ih =>
    obtain ⟨x, y, rfl, hy, hx⟩ := symbols_first h
    obtain ⟨x₂, y₂, rfl, hy₂, hx₂⟩ := ih hy
    refine ⟨x ++ x₂, y₂, (List.append_assoc ..).symm, hy₂, fun z => ?_⟩
    rw [List.append_assoc, hx, hx₂]
    rfl

end GameConfig.Text.Utf8
