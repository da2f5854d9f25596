import GameConfig.Proofs.Ty.Nesting

/-
  How type expressions are read.

  An expression is a whole type in parentheses, a name with its marks, or the
  head of a container with what follows it; the head may stand in parentheses.
  It is read as the type in its parentheses, as a name alone, as a sequence or
  as a map.

  * `Shaped` and `Reads` state this with one rule for each form, without the
    order in which the reader finds its faults;
  * `shape_eq_ok` and `read_eq_ok`: what is found is what the rules give;
  * `read_parens`: parentheses around a type do not matter if those in it are
    balanced.
-/

namespace GameConfig.Notation

open Text

/-! ## Shapes -/

/-- The trimmed expression has the shape. -/
inductive Shaped : List Char → Shape → Prop where
  | whole {inner after} (hi : Balanced '(' ')' inner) (ha : trimStart after = []) :
      Shaped ('(' :: (inner ++ ')' :: after)) (.whole inner)
  | parens {head after rest} (hh : Balanced '(' ')' head) (ha : trimStart after = ',' :: rest) :
      Shaped ('(' :: (head ++ ')' :: after)) (.headed head (some rest))
  | container {cs head rest} (hp : cs.head? ≠ some '(')
      (hw : (container? (leadingWord cs)).isSome = true) (hs : splitTop cs = some (head, rest)) :
      Shaped cs (.headed head (some rest))
  | alone {cs} (hp : cs.head? ≠ some '(') (hw : container? (leadingWord cs) = none) :
      Shaped cs (.headed cs none)

theorem shaped_of_shape {cs : List Char} {s : Shape} (h : shape cs = .ok s) : Shaped cs s := by
  unfold shape at h
  split at h
  · split at h
    · cases h
    · rename_i hclosing
      obtain ⟨hinner, rfl⟩ := closing_eq_some.1 hclosing
      split at h
      · rename_i hafter
        cases h
        exact .whole hinner hafter
      · rename_i hafter
        cases h
        exact .parens hinner hafter
      · cases h
  · rename_i hparen
    have hp : cs.head? ≠ some '(' := by
      intro hfirst
      obtain ⟨rest, hrest⟩ := List.head?_eq_some_iff.1 hfirst
      exact hparen rest hrest
    split at h
    · rename_i hword
      split at h
      · rename_i hsplit
        cases h
        exact .container hp hword hsplit
      · cases h
    · rename_i hword
      cases h
      exact .alone hp (by simpa using hword)

theorem shape_of_head {cs : List Char} (hp : cs.head? ≠ some '(') :
    shape cs = if (container? (leadingWord cs)).isSome then
      match splitTop cs with
      | some (head, rest) => .ok (.headed head (some rest))
      | none => .error .noElement
    else .ok (.headed cs none) := by
  unfold shape
  split
  · exact absurd rfl hp
  · rfl

/-- **The shape that is found is the one that the rules give.** -/
theorem shape_eq_ok {cs : List Char} {s : Shape} : shape cs = .ok s ↔ Shaped cs s := by
  constructor
  · exact shaped_of_shape
  · intro h
    cases h with
    | whole hi ha => simp only [shape, closing_balanced hi, ha]
    | parens hh ha => simp only [shape, closing_balanced hh, ha]
    | container hp hw hs => rw [shape_of_head hp, if_pos hw, hs]
    | alone hp hw =>
      rw [shape_of_head hp, hw]
      rfl

/-! ## Steps -/

section
variable {scope : Scope} {cs : List Char}

theorem trim_ne_nil_of_shape {s : Shape} (hs : shape (trim cs) = .ok s)
    (h : ∀ head, s ≠ .headed head none) : ¬(trim cs).isEmpty = true := by
  intro he
  rw [List.isEmpty_iff.1 he] at hs
  cases hs
  exact h _ rfl

/-- An expression without a shape is invalid. -/
theorem read_fault {fault : TypeFault} (hs : shape (trim cs) = .error fault) (hne : trim cs ≠ []) :
    read scope cs = .error (.invalidType (String.ofList cs) fault) := by
  rw [read, if_neg (by simpa using hne)]
  split <;> simp_all

/-- A whole type in parentheses is read as what stands in them. -/
theorem read_whole {inner : List Char} (hs : shape (trim cs) = .ok (.whole inner)) :
    read scope cs = read scope inner := by
  rw [read, if_neg (trim_ne_nil_of_shape hs (by simp))]
  split <;> simp_all

/-- A head alone is read as a name. -/
theorem read_name {head : List Char} {h : Head} (hs : shape (trim cs) = .ok (.headed head none))
    (hh : readHead head = some h) (hne : trim cs ≠ []) :
    read scope cs = leaf scope h.mark h.name := by
  rw [read, if_neg (by simpa using hne)]
  split <;> simp_all

theorem read_seq {head rest : List Char} {h : Head} {kind : SeqKind} {elem : Ty}
    (hs : shape (trim cs) = .ok (.headed head (some rest))) (hh : readHead head = some h)
    (hc : container? h.name = some (.seq kind)) (he : read scope rest = .ok elem) :
    read scope cs = .ok (.seq h.mark kind elem) := by
  rw [read, if_neg (trim_ne_nil_of_shape hs (by simp))]
  split <;> simp_all

theorem read_map {head rest key value : List Char} {h : Head} {k v : Ty}
    (hs : shape (trim cs) = .ok (.headed head (some rest))) (hh : readHead head = some h)
    (hc : container? h.name = some .map) (hr : splitTop rest = some (key, value))
    (hk : read scope key = .ok k) (hv : read scope value = .ok v) :
    read scope cs = .ok (.map h.mark k v) := by
  rw [read, if_neg (trim_ne_nil_of_shape hs (by simp))]
  split
  -- a head and something behind it is the only shape
  case h_4 heq =>
    rw [hs] at heq
    cases heq
    simp only [hh, hc]
    split <;> simp_all
  all_goals simp_all

theorem trim_parens (inner : List Char) :
    trim ('(' :: (inner ++ [')'])) = '(' :: (inner ++ [')']) := by
  refine trim_of_ends ?_ fun c hc => ?_
  · rintro _ ⟨⟩
    rfl
  · rw [← List.cons_append, List.getLast?_concat] at hc
    cases hc
    rfl

/-- What stands in parentheses alone is a whole type. -/
theorem shape_parens {inner : List Char} (h : Balanced '(' ')' inner) :
    shape ('(' :: (inner ++ [')'])) = .ok (.whole inner) :=
  shape_eq_ok.2 (.whole h rfl)

/-- Parentheses around a type do not matter if those in it are balanced. -/
theorem read_parens {inner : List Char} (h : Balanced '(' ')' inner) :
    read scope ('(' :: (inner ++ [')'])) = read scope inner :=
  read_whole ((congrArg shape (trim_parens inner)).trans (shape_parens h))

/-- A name without element types is a scalar type, or the full name of a bean or enum. -/
theorem leaf_eq_ok {m : Mark} {name : List Char} {ty : Ty} :
    leaf scope m name = .ok ty ↔
      (∃ k, scalar? name = some k ∧ ty = .scalar m k) ∨
      (scalar? name = none ∧ container? name = none ∧ isFullName name = true ∧
        ∃ ref, scope.resolve (String.ofList name) = some ref ∧ ty = .named m ref) := by
  unfold leaf
  cases scalar? name with
  | some k => simpa using eq_comm
  | none =>
    cases container? name with
    | some k => simp
    | none =>
      by_cases hname : isFullName name = true
      · cases hr : scope.resolve (String.ofList name) with
        | none => simp [hname, hr]
        | some ref => simpa [hname, hr] using eq_comm
      · simp [hname]

/-- The empty name stands for no type. -/
theorem leaf_nil_ne_ok (m : Mark) (ty : Ty) : leaf scope m [] ≠ .ok ty := by
  intro h
  rcases leaf_eq_ok.1 h with ⟨k, hk, -⟩ | ⟨-, -, hname, -⟩
  · have hnone : scalar? [] = none := by decide
    rw [hnone] at hk
    cases hk
  · cases hname

end

/-! ## Types -/

/-- The expression stands for the type. -/
inductive Reads (scope : Scope) : List Char → Ty → Prop where
  | whole {cs inner ty} (hs : shape (trim cs) = .ok (.whole inner)) (hi : Reads scope inner ty) :
      Reads scope cs ty
  | name {cs head h ty} (hs : shape (trim cs) = .ok (.headed head none))
      (hh : readHead head = some h) (hl : leaf scope h.mark h.name = .ok ty) : Reads scope cs ty
  | seq {cs head rest h kind elem} (hs : shape (trim cs) = .ok (.headed head (some rest)))
      (hh : readHead head = some h) (hc : container? h.name = some (.seq kind))
      (he : Reads scope rest elem) : Reads scope cs (.seq h.mark kind elem)
  | map {cs head rest h key value k v} (hs : shape (trim cs) = .ok (.headed head (some rest)))
      (hh : readHead head = some h) (hc : container? h.name = some .map)
      (hr : splitTop rest = some (key, value)) (hk : Reads scope key k)
      (hv : Reads scope value v) : Reads scope cs (.map h.mark k v)

section
variable {scope : Scope} {cs : List Char} {ty : Ty}

theorem reads_of_read (h : read scope cs = .ok ty) : Reads scope cs ty := by
  fun_induction read scope cs generalizing ty with
  | case3 _ _ _ _ hs =>
    rename_i ih
    exact .whole hs (ih h)
  | case5 _ _ _ _ hs =>
    rename_i hh
    exact .name hs hh h
  | case9 _ _ _ _ _ hs _ hh =>
    rename_i hc _ he ih
    cases h
    exact .seq hs hh hc (ih he)
  | case13 _ _ _ _ _ hs _ hh =>
    rename_i hc _ _ hr _ hk _ hv ihk ihv
    cases h
    exact .map hs hh hc hr (ihk hk) (ihv hv)
  | _ => cases h

/-- **What is read is what the rules give.** -/
theorem read_eq_ok : read scope cs = .ok ty ↔ Reads scope cs ty := by
  constructor
  · exact reads_of_read
  · intro h
    induction h with
    | whole hs _ ih => rw [read_whole hs, ih]
    | name hs hh hl =>
      refine (read_name hs hh ?_).trans hl
      intro hnil
      rw [hnil] at hs
      cases hs
      cases hh
      exact leaf_nil_ne_ok _ _ hl
    | seq hs hh hc _ ih => exact read_seq hs hh hc ih
    | map hs hh hc hr _ _ ihk ihv => exact read_map hs hh hc hr ihk ihv

end

end GameConfig.Notation
