import GameConfig.Emit.TypeSchema
import GameConfig.Proofs.Json.Validation

/-
  What the schemas of types accept.

  Without tags the schema of a type is made of a base and, for types that allow
  null, of what lets null through (`schemaOf_bare`).  A reference to a definition
  that rejects null lets null through by a choice (`accepts_choice_iff`).  A list
  is accepted if its items are (`accepts_array`), a list of pairs if keys and
  values are (`accepts_pairs`).
-/

namespace GameConfig

/-- The type has no tags, and in it there is no set and no map whose keys may be written as the
    keys of an object. -/
def Ty.isBare : Ty → Bool
  | .scalar m _ | .named m _ => m.tags.isEmpty
  | .seq m k e => m.tags.isEmpty && k != .set && e.isBare
  | .map m k v => m.tags.isEmpty && !k.isTextKey && k.isBare && v.isBare

/-- The schema of a bare type without its mark. -/
def Ty.baseSchema (s : Schema) : Ty → Json
  | .scalar _ k => k.schemaOf
  | .named _ (.enum id) => definitionRef (s.enum id).fullName
  | .named _ (.bean id) => definitionRef (s.bean id).fullName
  | .seq _ _ e => .object [("type", .string "array"), ("items", e.schemaOf s)]
  | .map _ k v => pairMapSchema (k.schemaOf s) (v.schemaOf s)

theorem Ty.schemaOf_bare (s : Schema) {ty : Ty} (h : ty.isBare = true) :
    ty.schemaOf s = if ty.nullable then wrapNull (ty.baseSchema s) else ty.baseSchema s := by
  have hfinish : ∀ {ty : Ty} (o : Json), ty.tags = [] →
      ty.finish o = if ty.nullable then wrapNull o else o := by
    intro ty o ht
    simp [finish, applyTags, ht]
  cases ty with
  | scalar m k => exact hfinish _ (List.isEmpty_iff.1 h)
  | named m ref =>
    cases ref with
    | enum id => exact hfinish _ (List.isEmpty_iff.1 h)
    | bean id => exact hfinish _ (List.isEmpty_iff.1 h)
  | seq m k e =>
    simp only [isBare, Bool.and_eq_true, List.isEmpty_iff] at h
    obtain ⟨⟨htags, hkind⟩, -⟩ := h
    have hseq : seqSchema k (e.schemaOf s) = baseSchema s (.seq m k e) := by
      cases k with
      | set => cases hkind
      | array => rfl
      | list => rfl
    rw [schemaOf, hseq]
    exact hfinish _ htags
  | map m k v =>
    simp only [isBare, Bool.and_eq_true, List.isEmpty_iff, Bool.not_eq_true'] at h
    obtain ⟨⟨⟨htags, hkey⟩, -⟩, -⟩ := h
    rw [schemaOf, hkey]
    exact hfinish _ htags

theorem Json.update_of_not_mem {ms : List (String × Json)} {key : String} (f : Json → Json)
    (h : key ∉ Assoc.keys ms) : (Json.object ms).update key f = .object ms := by
  rw [update]
  congr 1
  refine (List.map_congr_left fun m hm => ?_).trans (List.map_id ms)
  have hne : m.1 ≠ key := fun hk => h (List.mem_map.2 ⟨m, hm, hk⟩)
  exact if_neg hne

theorem Json.hasType_null_iff {v : Json} : v.hasType "null" = true ↔ v = .null := by
  cases v <;> simp [hasType]

namespace Validator

variable {j : Validator} {v : Json}

/-! ## Letting null through -/

/-- What lets null through a schema adds it to what is accepted. -/
def LetsNull (j : Validator) (o : Json) : Prop :=
  (∀ v, j.Accepts o v → j.Accepts (wrapNull o) v) ∧ j.Accepts (wrapNull o) .null

theorem accepts_type {t : String} :
    j.Accepts (.object [("type", .string t)]) v ↔ v.hasType t = true := by
  rw [accepts_object (by simp [Assoc.find?])]
  simp [demand?, Keyword.type]

theorem rejects_type {t : String} :
    j.Rejects (.object [("type", .string t)]) v ↔ v.hasType t = false := by
  rw [rejects_object (by simp [Assoc.find?])]
  simp [demand?, Keyword.type]

/-- **A choice with null accepts null besides**, if the schema rejects it. -/
theorem accepts_choice_iff {o : Json} (hnull : j.Rejects o .null) :
    j.Accepts (.object [("oneOf", .array [o, .object [("type", .string "null")]])]) v ↔
      v = .null ∨ j.Accepts o v := by
  have hone : j.Accepts (.object [("oneOf", .array [o, .object [("type", .string "null")]])]) v ↔
      j.Meets (.one [(o, v), (.object [("type", .string "null")], v)]) := by
    rw [accepts_object (by simp [Assoc.find?])]
    simp [demand?, Keyword.several, Json.array?]
  rw [hone]
  by_cases hv : v = .null
  · subst hv
    exact iff_of_true (meets_one (accepts_type.2 rfl) hnull).2 (.inl rfl)
  · have hother : j.Rejects (.object [("type", .string "null")]) v :=
      rejects_type.2 (Bool.eq_false_iff.2 fun h => hv (Json.hasType_null_iff.1 h))
    rw [meets_one_iff hother, or_iff_right hv]

/-- A reference to a definition that rejects null lets null through by a choice. -/
theorem lets_null_ref {name : String} {target : Json}
    (ht : j.target? ("#/definitions/" ++ name) = some target) (hnull : j.Rejects target .null) :
    j.LetsNull (definitionRef name) := by
  have href : j.Rejects (definitionRef name) .null := (rejects_ref rfl ht).2 hnull
  have hwrap : wrapNull (definitionRef name) =
      .object [("oneOf", .array [definitionRef name, .object [("type", .string "null")]])] := by
    simp [wrapNull, definitionRef, Json.member?, Assoc.find?]
  rw [LetsNull, hwrap]
  exact ⟨fun v hv => (accepts_choice_iff href).2 (.inr hv),
    (accepts_choice_iff href).2 (.inl rfl)⟩

/-! ## Sequences and maps -/

theorem not_accepts_list {schemas : List Json} : ¬ j.Accepts (.array schemas) v := by
  rintro ⟨_ | n, h⟩ <;> cases h

/-- A list is accepted if its items are. -/
theorem accepts_array {elem : Json} {xs : List Json} (h : ∀ x ∈ xs, j.Accepts elem x) :
    j.Accepts (.object [("type", .string "array"), ("items", elem)]) (.array xs) := by
  rw [accepts_object (by simp [Assoc.find?])]
  have hitems : j.Meets (Keyword.items (.array xs) elem) := by
    unfold Keyword.items
    split
    · -- a list of schemas accepts nothing, so there are no items
      rename_i ys schemas hxs
      cases hxs
      cases xs with
      | nil => simp
      | cons x xs => exact absurd (h x (List.mem_cons_self ..)) not_accepts_list
    · rename_i ys hxs hlist
      cases hxs
      simpa using h
    · simp
  simpa [demand?, Keyword.type, Json.hasType] using hitems

/-- A list of pairs is accepted if keys and values are. -/
theorem accepts_pairs {key value : Json} {es : List (Json × Json)}
    (hk : ∀ e ∈ es, j.Accepts key e.1) (hv : ∀ e ∈ es, j.Accepts value e.2) :
    j.Accepts (pairMapSchema key value) (.array (es.map fun e => .array [e.1, e.2])) := by
  refine accepts_array fun x hx => ?_
  obtain ⟨e, he, rfl⟩ := List.mem_map.1 hx
  rw [accepts_object (by simp [Assoc.find?])]
  simp [demand?, Keyword.type, Keyword.items, Keyword.size, Json.hasType, Json.ofInt, Json.array?,
    hk e he, hv e he]

end Validator

end GameConfig
