import GameConfig.Emit.JsonSchema
import GameConfig.Proofs.Emit.Beans

/-
  Objects whose members are set and changed.

  A schema is built by setting members of an object and changing those that are
  there.  `setAll` sets several of them, `update` changes one; `member?` of the
  result tells what is found then.  As long as no keyword looks at another one
  (`Flat`), what is found under each key is all that matters for what the object
  accepts (`accepts_flat_iff`).
-/

namespace GameConfig

namespace Json

variable {a o : Json} {key : String}

/-! ## Setting members -/

/-- Sets members one after the other. -/
def setAll (o : Json) (es : List (String × Json)) : Json := es.foldl (fun o e => o.set e.1 e.2) o

theorem setAll_append (o : Json) (es fs : List (String × Json)) :
    o.setAll (es ++ fs) = (o.setAll es).setAll fs := List.foldl_append

theorem setAll_object (ms : Assoc Json) (es : List (String × Json)) :
    (Json.object ms).setAll es = .object (es.foldl (fun d e => Assoc.insert e.1 e.2 d) ms) := by
  induction es generalizing ms with
  | nil => rfl
  | cons e es ih => exact ih _

theorem set?_eq_setAll (o : Json) (key : String) (value : Option Json) :
    o.set? key value = o.setAll (Validator.optional key value) := by
  cases value <;> rfl

def IsObject (o : Json) : Prop := ∃ ms, o = .object ms

theorem isObject_of_member? (h : o.member? key = some a) : o.IsObject := by
  cases o with
  | object ms => exact ⟨ms, rfl⟩
  | _ => cases h

theorem IsObject.update (h : o.IsObject) (f : Json → Json) : (o.update key f).IsObject := by
  obtain ⟨ms, rfl⟩ := h
  exact ⟨_, rfl⟩

theorem IsObject.setAll (h : o.IsObject) (es : List (String × Json)) : (o.setAll es).IsObject := by
  obtain ⟨ms, rfl⟩ := h
  exact ⟨_, setAll_object ms es⟩

theorem member?_setAll (ho : o.IsObject) (es : List (String × Json)) :
    (o.setAll es).member? key = (Assoc.find? key es.reverse).or (o.member? key) := by
  obtain ⟨ms, rfl⟩ := ho
  rw [setAll_object]
  exact Assoc.find?_foldl_insert key es ms

theorem member?_set_of_ne {other : String} (h : key ≠ other) (v : Json) :
    (o.set other v).member? key = o.member? key := by
  cases o with
  | object ms => exact Assoc.find?_insert_of_ne h v ms
  | _ => rfl

theorem member?_setAll_of_not_mem {es : List (String × Json)} (h : key ∉ Assoc.keys es) :
    (o.setAll es).member? key = o.member? key := by
  induction es generalizing o with
  | nil => rfl
  | cons e es ih =>
    rw [Assoc.keys, List.map_cons, List.mem_cons, not_or] at h
    exact (ih h.2).trans (member?_set_of_ne h.1 e.2)

/-- A member that is there may be set before the others or after them. -/
theorem setAll_set {v : Json} (hkey : (o.member? key).isSome = true) {es : List (String × Json)}
    (hes : ∀ e ∈ es, e.1 ≠ key) : (o.set key v).setAll es = (o.setAll es).set key v := by
  induction es generalizing o with
  | nil => rfl
  | cons e es ih =>
    obtain ⟨x, hx⟩ := Option.isSome_iff_exists.1 hkey
    obtain ⟨ms, rfl⟩ := isObject_of_member? hx
    have hne : e.1 ≠ key := hes e (List.mem_cons_self ..)
    have hcomm : ((Json.object ms).set key v).set e.1 e.2 =
        ((Json.object ms).set e.1 e.2).set key v :=
      congrArg Json.object (Assoc.insert_comm (Ne.symm hne) v e.2 (Assoc.find?_isSome.1 hkey)).symm
    have hkept : (((Json.object ms).set e.1 e.2).member? key).isSome = true := by
      rw [member?_set_of_ne (Ne.symm hne)]
      exact hkey
    show (((Json.object ms).set key v).set e.1 e.2).setAll es = _
    rw [hcomm]
    exact ih hkept fun e he => hes e (List.mem_cons_of_mem _ he)

theorem update_of_member?_eq_none {f : Json → Json} (h : o.member? key = none) :
    o.update key f = o := by
  cases o with
  | object ms =>
    refine update_of_not_mem f fun hmem => ?_
    rw [← Assoc.find?_isSome, show Assoc.find? key ms = none from h] at hmem
    cases hmem
  | _ => rfl

theorem member?_update (key other : String) (f : Json → Json) :
    (o.update other f).member? key =
      if key = other then (o.member? key).map f else o.member? key := by
  cases o with
  | object ms =>
    simp only [update, Json.member?]
    induction ms with
    | nil => simp [Assoc.find?]
    | cons m ms ih =>
      obtain ⟨k, v⟩ := m
      by_cases hk : k = key
      · by_cases ho : key = other <;> simp [Assoc.find?, hk, ho]
      · by_cases ho : k = other
        · subst ho
          simpa [Assoc.find?, hk] using ih
        · simpa [Assoc.find?, hk, ho] using ih
  | _ => simp [update, Json.member?]

/-- Different members are changed independently. -/
theorem update_set {other : String} (h : key ≠ other) (f : Json → Json) (v : Json) :
    (o.set key v).update other f = (o.update other f).set key v := by
  cases o with
  | object ms =>
    simp only [set, update, Json.object.injEq]
    induction ms with
    | nil => simp [Assoc.insert, h]
    | cons m ms ih =>
      obtain ⟨k, x⟩ := m
      by_cases hk : k = key
      · simp [Assoc.insert, hk, h]
      · by_cases ho : k = other
        · subst ho
          simp [Assoc.insert, hk, ih]
        · simp [Assoc.insert, hk, ho, ih]
  | _ => rfl

/-! ## Keywords for themselves -/

/-- The members that stand for the whole schema or that other members look at. -/
def contextKeys : List String := ["$ref", "properties", "then", "else"]

/-- An object each member of which is a keyword for itself, there once. -/
structure Flat (o : Json) : Prop where
  nodup : ∃ ms : Assoc Json, o = .object ms ∧ (Assoc.keys ms).Nodup
  free : ∀ k ∈ contextKeys, o.member? k = none

theorem keys_update (ms : Assoc Json) (key : String) (f : Json → Json) :
    ∃ ns, (Json.object ms).update key f = .object ns ∧ Assoc.keys ns = Assoc.keys ms := by
  refine ⟨_, rfl, ?_⟩
  rw [Assoc.keys, List.map_map]
  refine List.map_congr_left fun m _ => ?_
  rw [Function.comp_apply, apply_ite Prod.fst, ite_self]

namespace Flat

theorem isObject (h : o.Flat) : o.IsObject := by
  obtain ⟨ms, rfl, -⟩ := h.nodup
  exact ⟨ms, rfl⟩

theorem set (h : o.Flat) (hkey : key ∉ contextKeys) (v : Json) : (o.set key v).Flat := by
  refine ⟨?_, fun k hk => ?_⟩
  · obtain ⟨ms, rfl, hnodup⟩ := h.nodup
    exact ⟨_, rfl, Assoc.nodup_keys_insert hnodup⟩
  · have hne : k ≠ key := by
      rintro rfl
      exact hkey hk
    rw [member?_set_of_ne hne]
    exact h.free k hk

theorem setAll (h : o.Flat) {es : List (String × Json)} (hes : ∀ e ∈ es, e.1 ∉ contextKeys) :
    (o.setAll es).Flat := by
  induction es generalizing o with
  | nil => exact h
  | cons e es ih =>
    rw [List.forall_mem_cons] at hes
    exact ih (h.set hes.1 e.2) hes.2

theorem update (h : o.Flat) (key : String) (f : Json → Json) : (o.update key f).Flat := by
  refine ⟨?_, fun k hk => ?_⟩
  · obtain ⟨ms, rfl, hnodup⟩ := h.nodup
    obtain ⟨ns, hns, hkeys⟩ := keys_update ms key f
    exact ⟨ns, hns, hkeys ▸ hnodup⟩
  · rw [member?_update, h.free k hk]
    split <;> rfl

end Flat

end Json

namespace Validator

variable {j : Validator} {v o : Json}

/-- The value meets the demand of a keyword for itself. -/
def Passes (j : Validator) (v : Json) (key : String) (arg : Json) : Prop :=
  ∃ x, j.demand? [] v key arg = some x ∧ j.Meets x

/-- **An object of such keywords accepts what passes all of them.** -/
theorem accepts_flat_iff (ho : o.Flat) :
    j.Accepts o v ↔ ∀ key arg, o.member? key = some arg → j.Passes v key arg := by
  obtain ⟨⟨ms, rfl, hnodup⟩, hfree⟩ := ho
  have hdemand : ∀ key arg, j.demand? ms v key arg = j.demand? [] v key arg :=
    demand?_congr fun k hk => hfree k (List.mem_cons_of_mem _ hk)
  rw [accepts_object (hfree "$ref" (by decide))]
  constructor
  · intro h key arg hfind
    obtain ⟨x, hx, hmeets⟩ := h _ (Assoc.mem_of_find? hfind)
    exact ⟨x, (hdemand key arg).symm.trans hx, hmeets⟩
  · rintro h ⟨key, arg⟩ hm
    obtain ⟨x, hx, hmeets⟩ := h key arg (Assoc.find?_eq_some hnodup hm)
    exact ⟨x, (hdemand key arg).trans hx, hmeets⟩

end Validator

end GameConfig
