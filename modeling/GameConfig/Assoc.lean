/-
  Dictionaries that keep the order in which their keys came first.

  `insert` gives a key its value: a key that is there keeps its place, a new
  one goes to the end.  The main statements: `find?_insert_self` (what was
  inserted is found), `find?_insert_of_ne` (other keys are untouched),
  `keys_insert` (the keys grow by at most the new one), `find?_eq_some` (every
  entry is found if keys differ) and `ofEntries_eq` (such entries stay as they
  are).
-/

namespace GameConfig

/-- A dictionary with text keys, in the order of first insertion. -/
abbrev Assoc (α : Type) := List (String × α)

namespace Assoc

variable {α : Type}

/-- The value of the first entry with this key. -/
def find? (key : String) : Assoc α → Option α
  | [] => none
  | (k, v) :: rest => if k = key then some v else find? key rest

/-- The key is there. -/
def has (key : String) (d : Assoc α) : Bool := (find? key d).isSome

/-- Sets the value of a key, in place if the key is there, else at the end. -/
def insert (key : String) (value : α) : Assoc α → Assoc α
  | [] => [(key, value)]
  | (k, v) :: rest => if k = key then (k, value) :: rest else (k, v) :: insert key value rest

/-- The keys, in order. -/
def keys (d : Assoc α) : List String := d.map (·.1)

/-- The entries inserted one after the other. -/
def ofEntries (entries : List (String × α)) : Assoc α :=
  entries.foldl (fun d e => insert e.1 e.2 d) []

theorem find?_insert_self (key : String) (value : α) (d : Assoc α) :
    find? key (insert key value d) = some value := by
  induction d with
  | nil => simp [insert, find?]
  | cons e rest ih =>
    obtain ⟨k, v⟩ := e
    by_cases h : k = key <;> simp [insert, find?, h, ih]

theorem find?_insert_of_ne {key other : String} (h : other ≠ key) (value : α) (d : Assoc α) :
    find? other (insert key value d) = find? other d := by
  induction d with
  | nil => simp [insert, find?, Ne.symm h]
  | cons e rest ih =>
    obtain ⟨k, v⟩ := e
    by_cases hk : k = key
    · subst hk
      simp [insert, find?, Ne.symm h]
    · by_cases ho : k = other
      · subst ho
        simp [insert, find?, hk]
      · simp [insert, find?, hk, ho, ih]

theorem keys_insert (key : String) (value : α) (d : Assoc α) :
    keys (insert key value d) = if key ∈ keys d then keys d else keys d ++ [key] := by
  induction d with
  | nil => simp [insert, keys]
  | cons e rest ih =>
    obtain ⟨k, v⟩ := e
    by_cases hk : k = key
    · simp [insert, keys, hk]
    · simp only [keys] at ih
      by_cases hm : key ∈ rest.map (·.1) <;> simp_all [insert, keys, Ne.symm hk]

/-- A key that is there keeps its place, so it does not matter when it gets its value. -/
theorem insert_comm {j k : String} (h : j ≠ k) (x y : α) {d : Assoc α} (hj : j ∈ keys d) :
    insert j x (insert k y d) = insert k y (insert j x d) := by
  induction d with
  | nil => cases hj
  | cons e d ih =>
    by_cases hej : e.1 = j
    · have hek : e.1 ≠ k := fun hek => h (hej.symm.trans hek)
      simp [insert, hej, h]
    · have hj' : j ∈ keys d := (List.mem_cons.1 hj).resolve_left (Ne.symm hej)
      by_cases hek : e.1 = k
      · simp [insert, hek, Ne.symm h]
      · simp [insert, hej, hek, ih hj']

theorem mem_of_find? {key : String} {x : α} {ms : Assoc α}
    (h : find? key ms = some x) : (key, x) ∈ ms := by
  induction ms with
  | nil => cases h
  | cons m ms ih =>
    by_cases hk : m.1 = key
    · simp only [find?, hk, if_true, Option.some.injEq] at h
      exact List.mem_cons.2 (Or.inl (by rw [← hk, ← h]))
    · simp only [find?, hk, if_false] at h
      exact List.mem_cons_of_mem _ (ih h)

theorem insert_of_not_mem {k : String} {x : α} {d : Assoc α} (h : k ∉ keys d) :
    insert k x d = d ++ [(k, x)] := by
  induction d with
  | nil => rfl
  | cons e d ih =>
    simp only [keys, List.map_cons, List.mem_cons, not_or] at h
    simp [insert, Ne.symm h.1, ih h.2]

/-- Entries with different keys stay as they are. -/
theorem ofEntries_eq {es : Assoc α} (h : (keys es).Nodup) : ofEntries es = es := by
  have hfold : ∀ d es : Assoc α, (keys (d ++ es)).Nodup →
      es.foldl (fun d e => insert e.1 e.2 d) d = d ++ es := by
    intro d es
    induction es generalizing d with
    | nil => simp
    | cons e es ih =>
      intro h
      have hnew : e.1 ∉ keys d := by
        rw [keys, List.map_append, List.nodup_append] at h
        intro he
        exact h.2.2 _ he e.1 (by simp) rfl
      rw [List.foldl_cons, insert_of_not_mem hnew, ih _ (by simpa using h)]
      simp
  exact hfold [] es h

theorem nodup_keys_insert {k : String} {x : α} {d : Assoc α} (h : (keys d).Nodup) :
    (keys (insert k x d)).Nodup := by
  rw [keys_insert]
  split
  · exact h
  · rename_i hk
    refine List.nodup_append.2 ⟨h, by simp, fun a ha b hb => ?_⟩
    rw [List.mem_singleton.1 hb]
    rintro rfl
    exact hk ha

/-- Inserted entries have different keys. -/
theorem nodup_keys_ofEntries (es : List (String × α)) : (keys (ofEntries es)).Nodup := by
  have hfold : ∀ (es : List (String × α)) (d : Assoc α), (keys d).Nodup →
      (keys (es.foldl (fun d e => insert e.1 e.2 d) d)).Nodup := by
    intro es
    induction es with
    | nil => exact fun d hd => hd
    | cons e es ih => exact fun d hd => ih _ (nodup_keys_insert hd)
  exact hfold es [] List.nodup_nil

theorem find?_eq_none {k : String} {d : Assoc α} (h : k ∉ keys d) : find? k d = none := by
  induction d with
  | nil => rfl
  | cons e d ih =>
    simp only [keys, List.map_cons, List.mem_cons, not_or] at h
    simp [find?, Ne.symm h.1, ih h.2]

theorem find?_isSome {k : String} {d : Assoc α} : (find? k d).isSome = true ↔ k ∈ keys d := by
  induction d with
  | nil => simp [find?, keys]
  | cons e d ih =>
    rw [keys] at ih
    by_cases h : e.1 = k
    · simp [find?, keys, h]
    · simp [find?, keys, h, Ne.symm h, ih]

theorem find?_eq_some {k : String} {x : α} {d : Assoc α} (h : (keys d).Nodup) (hm : (k, x) ∈ d) :
    find? k d = some x := by
  induction d with
  | nil => cases hm
  | cons e d ih =>
    rw [keys, List.map_cons, List.nodup_cons] at h
    rcases List.mem_cons.1 hm with rfl | hm
    · simp [find?]
    · have hne : e.1 ≠ k := by
        rintro rfl
        exact h.1 (List.mem_map.2 ⟨_, hm, rfl⟩)
      simp [find?, hne, ih h.2 hm]

/-- Entries with different keys may stand in any order. -/
theorem find?_perm (k : String) {d d' : Assoc α} (h : d.Perm d') (hd : (keys d).Nodup) :
    find? k d = find? k d' := by
  have hd' : (keys d').Nodup := (h.map _).nodup_iff.1 hd
  cases hx : find? k d with
  | some x => exact (find?_eq_some hd' (h.mem_iff.1 (mem_of_find? hx))).symm
  | none =>
    cases hy : find? k d' with
    | none => rfl
    | some y =>
      rw [find?_eq_some hd (h.mem_iff.2 (mem_of_find? hy))] at hx
      cases hx

theorem mem_of_mem_insert {k : String} {x : α} {d : Assoc α} {e : String × α}
    (h : e ∈ insert k x d) : e = (k, x) ∨ e ∈ d := by
  induction d with
  | nil => exact .inl (List.mem_singleton.1 h)
  | cons g d ih =>
    rw [insert] at h
    split at h
    · rename_i hk
      rcases List.mem_cons.1 h with rfl | h
      · exact .inl (by rw [hk])
      · exact .inr (List.mem_cons_of_mem _ h)
    · rcases List.mem_cons.1 h with rfl | h
      · exact .inr (List.mem_cons_self ..)
      · exact (ih h).imp_right (List.mem_cons_of_mem _)

/-- Entries with other keys stay. -/
theorem mem_insert_of_mem {k : String} {x : α} {d : Assoc α} {e : String × α} (h : e ∈ d)
    (hne : e.1 ≠ k) : e ∈ insert k x d := by
  induction d with
  | nil => cases h
  | cons g d ih =>
    rw [insert]
    split
    · rename_i hk
      rcases List.mem_cons.1 h with rfl | h
      · exact absurd hk hne
      · exact List.mem_cons_of_mem _ h
    · rcases List.mem_cons.1 h with rfl | h
      · exact List.mem_cons_self ..
      · exact List.mem_cons_of_mem _ (ih h)

theorem find?_append (k : String) (d e : Assoc α) :
    find? k (d ++ e) = (find? k d).or (find? k e) := by
  induction d with
  | nil => rfl
  | cons g d ih =>
    by_cases h : g.1 = k <;> simp [find?, h, ih]

/-- Of the entries that are inserted with a key the last one counts. -/
theorem find?_foldl_insert (k : String) (es : List (String × α)) (d : Assoc α) :
    find? k (es.foldl (fun d e => insert e.1 e.2 d) d) = (find? k es.reverse).or (find? k d) := by
  induction es generalizing d with
  | nil => rfl
  | cons e es ih =>
    rw [List.foldl_cons, ih, List.reverse_cons, find?_append, Option.or_assoc]
    congr 1
    by_cases hk : k = e.1
    · rw [hk, find?_insert_self]
      simp [find?]
    · rw [find?_insert_of_ne hk]
      simp [find?, Ne.symm hk]

theorem find?_ofEntries_reverse (k : String) (es : List (String × α)) :
    find? k (ofEntries es) = find? k es.reverse := by
  rw [ofEntries, find?_foldl_insert, find?, Option.or_none]

/-- A key all of whose entries agree has their value. -/
theorem find?_of_forall {k : String} {x : α} {es : List (String × α)} (hm : k ∈ es.map (·.1))
    (h : ∀ y, (k, y) ∈ es → y = x) : find? k es = some x := by
  induction es with
  | nil => cases hm
  | cons e es ih =>
    by_cases hk : e.1 = k
    · have hvalue : e.2 = x := h e.2 (by rw [← hk]; exact List.mem_cons_self ..)
      simp [find?, hk, hvalue]
    · have hm' := (List.mem_cons.1 hm).resolve_left (Ne.symm hk)
      simp [find?, hk, ih hm' fun y hy => h y (List.mem_cons_of_mem _ hy)]

/-- A key all of whose entries agree has their value, however they are inserted. -/
theorem find?_ofEntries {k : String} {x : α} {es : List (String × α)} (hm : k ∈ es.map (·.1))
    (h : ∀ y, (k, y) ∈ es → y = x) : find? k (ofEntries es) = some x := by
  rw [find?_ofEntries_reverse]
  refine find?_of_forall ?_ fun y hy => h y (List.mem_reverse.1 hy)
  rw [List.map_reverse]
  exact List.mem_reverse.2 hm

theorem find?_map {β : Type} (g : α → β) (key : String) (ms : Assoc α) :
    find? key (ms.map fun m => (m.1, g m.2)) = (find? key ms).map g := by
  induction ms with
  | nil => rfl
  | cons m ms ih =>
    by_cases h : m.1 = key <;> simp [find?, h, ih]

end Assoc

end GameConfig
