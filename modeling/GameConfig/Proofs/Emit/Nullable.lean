import GameConfig.Proofs.Emit.Ranges
import GameConfig.Proofs.Emit.References
import Mathlib

/-
  What the schema of a type accepts when the type allows null.

  There are two ways to let null through.  A reference becomes one of two choices,
  and the definition that it leads to rejects null.  A schema that names a type
  gets a second one, and a list of its values gets null; the other keywords demand
  nothing of null, whatever tags have set them.  The exception are bounds: an end
  of a range that is not finite is written as null, and a bound that is no number
  has no meaning.

  * `Nullable.passes_letNull_iff`: the keywords of a schema, one by one;
  * `NullReady.accepts_wrapNull_iff`: schemas of such keywords;
  * `NullReady.applyTags`: tags keep a schema one of those;
  * `accepts_orNull_iff`: types.
-/

namespace GameConfig

/-- The ranges among tags have finite ends, where they have ends. -/
def Tags.FiniteRanges (tags : Tags) : Prop :=
  ∀ argument, ("range", argument) ∈ tags → ∀ i, doubles? argument = some i → i.IsFinite

theorem Json.alike_null_iff {v : Json} : v.alike .null = true ↔ v = .null := by
  cases v <;> simp [alike]

/-- What becomes of a member of a schema that names a type. -/
def letNull (key : String) (arg : Json) : Json :=
  match key, arg with
  | "type", .string t => .array [.string t, .string "null"]
  | "enum", arg => addNull arg
  | _, arg => arg

theorem letNull_of_ne {key : String} (h : key ∉ ["type", "enum"]) (arg : Json) :
    letNull key arg = arg := by
  unfold letNull
  split
  · simp at h
  · simp at h
  · rfl

theorem member?_wrapNull_eq {o : Json} {t key : String}
    (htype : o.member? "type" = some (.string t)) :
    (wrapNull o).member? key = (o.member? key).map (letNull key) := by
  by_cases hkey : key = "type"
  · subst hkey
    have hwrap : wrapNull o = (withNull t o).update "enum" addNull := by
      simp only [wrapNull, htype]
      rfl
    obtain ⟨ms, rfl⟩ := Json.isObject_of_member? htype
    rw [hwrap, Json.member?_update, if_neg (by decide), htype]
    exact Assoc.find?_insert_self ..
  · rw [member?_wrapNull htype hkey]
    split
    case isTrue henum =>
      subst henum
      rfl
    case isFalse henum =>
      have hid : letNull key = id := funext (letNull_of_ne (by simp [hkey, henum]))
      rw [hid, Option.map_id, id_eq]

namespace Validator

variable {j : Validator} {v o : Json} {key : String} {arg : Json}

/-! ## Keywords -/

/-- The members of a schema that null can be let through: the type, a list of values, and what
    demands nothing of null. -/
inductive Nullable (j : Validator) : String → Json → Prop
  | type (t : String) : Nullable j "type" (.string t)
  | values (vs : List Json) : Nullable j "enum" (.array vs)
  | other {key : String} {arg : Json} :
    key ∉ "type" :: "enum" :: Json.contextKeys → j.Passes .null key arg → Nullable j key arg

theorem nullable_plain (hkey : key ∉ "type" :: "enum" :: Json.contextKeys)
    (h : j.demand? [] .null key arg = some (.plain true)) : j.Nullable key arg :=
  .other hkey ⟨_, h, meets_plain.2 rfl⟩

theorem nullable_nothing (hkey : key ∉ "type" :: "enum" :: Json.contextKeys)
    (h : j.demand? [] .null key arg = some .nothing) : j.Nullable key arg :=
  .other hkey ⟨_, h, meets_nothing⟩

theorem Nullable.not_mem_contextKeys (h : j.Nullable key arg) : key ∉ Json.contextKeys := by
  cases h with
  | type => decide
  | values => decide
  | other hkey => exact fun hmem => hkey (.tail _ (.tail _ hmem))

/-- **Null passes a keyword that lets it through, and so do the values that passed before.** -/
theorem Nullable.passes_letNull_iff (h : j.Nullable key arg) :
    j.Passes v key (letNull key arg) ↔ v = .null ∨ j.Passes v key arg := by
  cases h with
  | type t =>
    have hone : j.Passes v "type" (.string t) ↔ v.hasType t = true := by
      simp [Passes, demand?, Keyword.type]
    have htwo : j.Passes v "type" (.array [.string t, .string "null"]) ↔
        v.hasType t = true ∨ v.hasType "null" = true := by
      simp [Passes, demand?, Keyword.type, Json.strings?, Json.string?]
    rw [show letNull "type" (.string t) = .array [.string t, .string "null"] from rfl, htwo, hone,
      Json.hasType_null_iff, or_comm]
  | values vs =>
    have hlist : ∀ vs, j.Passes v "enum" (.array vs) ↔ vs.any v.alike = true := by
      intro vs
      simp [Passes, demand?, Json.array?]
    rw [show letNull "enum" (.array vs) = .array (vs ++ [.null]) from rfl, hlist, hlist,
      List.any_append, Bool.or_eq_true, or_comm]
    simp [Json.alike_null_iff]
  | other hkey hnull =>
    have hne : key ∉ ["type", "enum"] := fun hmem => hkey (List.mem_append_left _ hmem)
    rw [letNull_of_ne hne]
    refine (or_iff_right_of_imp ?_).symm
    rintro rfl
    exact hnull

/-! ## Schemas -/

/-- A schema of keywords for themselves that let null through. -/
structure NullReady (j : Validator) (o : Json) : Prop where
  flat : o.Flat
  nullable : ∀ key arg, o.member? key = some arg → j.Nullable key arg

namespace NullReady

theorem of_object {ms : Assoc Json} (hnodup : (Assoc.keys ms).Nodup)
    (h : ∀ m ∈ ms, j.Nullable m.1 m.2) : j.NullReady (.object ms) := by
  refine ⟨⟨⟨ms, rfl, hnodup⟩, fun k hk => Assoc.find?_eq_none fun hmem => ?_⟩,
    fun key arg harg => h _ (Assoc.mem_of_find? harg)⟩
  obtain ⟨m, hm, rfl⟩ := List.mem_map.1 hmem
  exact (h m hm).not_mem_contextKeys hk

theorem set (h : j.NullReady o) (harg : j.Nullable key arg) : j.NullReady (o.set key arg) := by
  refine ⟨h.flat.set harg.not_mem_contextKeys arg, fun k x hx => ?_⟩
  by_cases hk : k = key
  · obtain ⟨ms, rfl⟩ := h.flat.isObject
    subst hk
    rw [show (Json.object ms).set k arg = .object (Assoc.insert k arg ms) from rfl, Json.member?,
      Assoc.find?_insert_self] at hx
    cases hx
    exact harg
  · rw [Json.member?_set_of_ne hk] at hx
    exact h.nullable k x hx

theorem setAll (h : j.NullReady o) {es : List (String × Json)}
    (hes : ∀ e ∈ es, j.Nullable e.1 e.2) : j.NullReady (o.setAll es) := by
  induction es generalizing o with
  | nil => exact h
  | cons e es ih =>
    rw [List.forall_mem_cons] at hes
    exact ih (h.set hes.1) hes.2

/-- Whatever is demanded of items, nothing is demanded of null. -/
theorem nullable_items (arg : Json) : j.Nullable "items" arg :=
  nullable_nothing (by decide) rfl

theorem update_items (h : j.NullReady o) (f : Json → Json) : j.NullReady (o.update "items" f) := by
  refine ⟨h.flat.update "items" f, fun k x hx => ?_⟩
  rw [Json.member?_update] at hx
  split at hx
  case isTrue hk =>
    rw [hk]
    exact nullable_items x
  case isFalse => exact h.nullable k x hx

end NullReady

theorem flat_wrapNull {t : String} (ho : o.Flat) (htype : o.member? "type" = some (.string t)) :
    (wrapNull o).Flat := by
  simp only [wrapNull, htype]
  exact (ho.set (by decide) _).update _ _

/-- **Such a schema that names a type accepts null besides when null is let through.** -/
theorem NullReady.accepts_wrapNull_iff (ho : j.NullReady o) {t : String}
    (htype : o.member? "type" = some (.string t)) :
    j.Accepts (wrapNull o) v ↔ v = .null ∨ j.Accepts o v := by
  rw [accepts_flat_iff (flat_wrapNull ho.flat htype), accepts_flat_iff ho.flat]
  simp only [member?_wrapNull_eq htype, Option.map_eq_some_iff, forall_exists_index, and_imp,
    forall_apply_eq_imp_iff₂]
  have hpasses : ∀ key arg, o.member? key = some arg →
      (j.Passes v key (letNull key arg) ↔ v = .null ∨ j.Passes v key arg) :=
    fun key arg harg => (ho.nullable key arg harg).passes_letNull_iff
  constructor
  · intro h
    by_cases hv : v = .null
    · exact .inl hv
    · exact .inr fun key arg harg => ((hpasses key arg harg).1 (h key arg harg)).resolve_left hv
  · intro h key arg harg
    exact (hpasses key arg harg).2 (h.imp_right fun h => h key arg harg)

/-! ## Bounds -/

/-- Null passes any number as a bound, but nothing passes a bound that is no number. -/
theorem nullable_bound (h : key ∈ boundKeywords) (b : Json.Number) : j.Nullable key (.number b) := by
  simp only [boundKeywords, List.mem_cons, List.not_mem_nil, or_false] at h
  rcases h with rfl | rfl | rfl | rfl <;> exact nullable_plain (by decide) rfl

variable {s : Schema} {ty : Ty} {tags : Tags} {argument : String}

theorem nullReady_unmarked (hty : ∀ m ref, ty ≠ .named m ref) : j.NullReady (ty.unmarked s) := by
  have hmin : ∀ n : ℤ, j.Nullable "minimum" (.ofInt n) := fun n =>
    nullable_bound (by decide) (.int n)
  have hmax : ∀ n : ℤ, j.Nullable "maximum" (.ofInt n) := fun n =>
    nullable_bound (by decide) (.int n)
  cases ty with
  | named m ref => exact absurd rfl (hty m ref)
  | scalar m k =>
    cases k with
    | integer w =>
      cases w <;> refine .of_object (by decide) ?_ <;> simp [Nullable.type, hmin, hmax]
    | datetime =>
      refine .of_object (by decide) ?_
      simp only [List.forall_mem_cons, Nullable.type, true_and]
      exact ⟨nullable_nothing (by decide) rfl, nofun⟩
    | _ =>
      refine .of_object (by decide) ?_
      simp [Nullable.type]
  | seq m k e =>
    have hseq : j.NullReady (.object [("type", .string "array"), ("items", e.schemaOf s)]) := by
      refine .of_object (by simp [Assoc.keys]) ?_
      simp [Nullable.type, NullReady.nullable_items]
    cases k with
    | set => exact hseq.set (nullable_plain (by decide) rfl)
    | _ => exact hseq
  | map m k v =>
    simp only [Ty.unmarked]
    split
    · have hmap : j.NullReady (.object [("type", .string "object"),
          ("additionalProperties", v.schemaOf s), ("x-key-type", .string (keyTypeName s k))]) := by
        refine .of_object (by simp [Assoc.keys]) ?_
        simp only [List.forall_mem_cons, Nullable.type, true_and]
        exact ⟨nullable_nothing (by decide) rfl, nullable_nothing (by decide) rfl, nofun⟩
      unfold objectMapSchema
      split
      · exact hmap.set (nullable_nothing (by decide) rfl)
      · exact hmap
    · refine .of_object (by simp [Assoc.keys]) ?_
      simp [Nullable.type, NullReady.nullable_items]

theorem nullable_range {i : Interval Double} (hfinite : i.IsFinite) {e : String × Json}
    (h : e ∈ rangeKeywords i) : j.Nullable e.1 e.2 := by
  have hend : ∃ x : Double, x.isFinite = true ∧ Json.ofDouble x = e.2 := by
    rcases mem_rangeKeywords_iff.1 h with ⟨-, x, hx, he⟩ | ⟨-, x, hx, he⟩
    · exact ⟨x, hfinite x (.inl hx), he⟩
    · exact ⟨x, hfinite x (.inr hx), he⟩
  obtain ⟨x, hx, he⟩ := hend
  rw [← he, Json.ofDouble, if_pos hx]
  exact nullable_bound (mem_boundKeywords h) _

/-- A tag sets the bounds of a range, or it sets other keywords, which let null through. -/
theorem range_or_nullable {e : String × Json}
    (h : e ∈ ty.keywords (sizeKeys? ty o) key argument) :
    (key = "range" ∧ ∃ i, doubles? argument = some i ∧ e ∈ rangeKeywords i) ∨
      (e.1 ∉ boundKeywords ∧ j.Nullable e.1 e.2) := by
  unfold Ty.keywords at h
  split at h
  case h_1 =>
    split at h
    case h_1 => cases h
    case h_2 i hi => exact .inl ⟨rfl, i, hi, h⟩
  case h_2 =>
    refine .inr ?_
    split at h
    case h_1 i minKey maxKey _ hsizes =>
      have hsize : ∃ n, (e.1 = minKey ∨ e.1 = maxKey) ∧ Json.ofNat n = e.2 := by
        rcases List.mem_append.1 h with h | h
        · obtain ⟨hname, hvalue⟩ := mem_optional.1 h
          obtain ⟨n, -, hn⟩ := Option.map_eq_some_iff.1 hvalue
          exact ⟨n, .inl hname, hn⟩
        · obtain ⟨hname, hvalue⟩ := mem_optional.1 h
          obtain ⟨n, -, hn⟩ := Option.map_eq_some_iff.1 hvalue
          exact ⟨n, .inr hname, hn⟩
      obtain ⟨n, hname, hn⟩ := hsize
      rw [← hn]
      rcases sizeKeys?_eq_some hsizes with heq | heq | heq <;> cases heq <;>
        rcases hname with hname | hname <;> rw [hname] <;>
        exact ⟨by decide, nullable_plain (by decide) rfl⟩
    case h_2 => cases h
  case h_3 =>
    refine .inr ?_
    split at h
    case h_1 =>
      rw [List.mem_singleton.1 h]
      exact ⟨by simp [boundKeywords], nullable_plain (by simp [Json.contextKeys]) rfl⟩
    case h_2 => cases h
  case h_4 =>
    obtain ⟨hname, hvalue⟩ := mem_optional.1 h
    obtain ⟨vs, -, hvs⟩ := Option.map_eq_some_iff.1 hvalue
    rw [hname, ← hvs]
    exact .inr ⟨by decide, .values vs⟩
  case h_5 =>
    rw [List.mem_singleton.1 h]
    exact .inr ⟨by simp [boundKeywords], nullable_nothing (by simp [Json.contextKeys]) rfl⟩
  case h_6 =>
    rw [List.mem_singleton.1 h]
    exact .inr ⟨by simp [boundKeywords], nullable_nothing (by simp [Json.contextKeys]) rfl⟩
  case h_7 => cases h

/-! ### Tags -/

/-- A tag keeps a schema ready for null, if what it says about ranges is finite. -/
theorem NullReady.applyTag (h : j.NullReady o)
    (hfinite : key = "range" → ∀ i, doubles? argument = some i → i.IsFinite) :
    j.NullReady (applyTag ty key argument o) := by
  have hitems : j.NullReady (ty.changeItems key argument o) := by
    unfold Ty.changeItems
    split
    · exact h.update_items _
    · exact h
  rw [applyTag_eq]
  refine hitems.setAll fun e he => ?_
  rcases range_or_nullable he with ⟨hkey, i, hi, he⟩ | ⟨-, he⟩
  · exact nullable_range (hfinite hkey i hi) he
  · exact he

theorem NullReady.applyTags (h : j.NullReady o) (hfinite : tags.FiniteRanges) :
    j.NullReady (applyTags ty tags o) := by
  induction tags generalizing o with
  | nil => exact h
  | cons tag tags ih =>
    refine ih (h.applyTag fun hkey => ?_) fun argument hmem => hfinite argument (.tail _ hmem)
    obtain ⟨key, argument⟩ := tag
    subst hkey
    exact hfinite argument (.head _)

end Validator

end GameConfig
