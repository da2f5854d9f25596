import GameConfig.Proofs.Emit.Placement
import GameConfig.Proofs.Number.Whole
import GameConfig.Proofs.Rule.Compile

/-
  Sizes in schemas and in rules.

  A rule about sizes compares with the ends of an interval as they are.  The
  keywords of the schema have whole numbers, the least and the greatest size
  within the interval (`wholeSizes`).

  * `least_le_iff`: the least size is right, for intervals that rules are made of;
  * `le_greatest_iff`: the greatest size is right but for zero, which stands for
    whatever is below it as well;
  * `member?_sizeNames`: the keywords of a type with a tag about its size;
  * `RuleKind.sizes_admit_iff`: the keywords admit the sizes that the rule does not
    report, and zero if only the least end of the interval admits it.
-/

namespace GameConfig

-- powers are those of the core library, whatever algebra is imported
attribute [local instance (high)] instPowNat

/-! ## Whole sizes -/

section

variable {i : Interval Double} {n : ℕ}

theorem two_pow_lt_sizeLimit : 2 ^ 53 < sizeLimit := by decide

theorem least_le_iff (hn : n < 2 ^ 53) (hmin : ∀ m ∈ i.min, Binary.zero.le m = true) :
    (∀ a ∈ (wholeSizes i).1, a ≤ n) ↔ i.above (.ofInt n) = true := by
  have hlimit : n < sizeLimit := hn.trans two_pow_lt_sizeLimit
  obtain ⟨min, minIn, max, maxIn⟩ := i
  cases min with
  | none => simp [wholeSizes, Interval.above]
  | some m =>
    have hzero : Binary.zero.le m = true := hmin m rfl
    have hnan : m.isNaN = false := by
      cases m with
      | nan => cases hzero
      | ranked => rfl
    cases minIn with
    | true =>
      simpa [wholeSizes, Interval.above, Endpoint.le] using
        Binary.toNat_ceil_le_iff hnan hn hlimit
    | false =>
      simpa [wholeSizes, Interval.above, Endpoint.lt] using
        Binary.toNat_floor_plus_le_iff hzero hn hlimit

theorem le_greatest_iff (hn : n < 2 ^ 53) :
    (∀ b ∈ (wholeSizes i).2, n ≤ b) ↔ n = 0 ∨ i.below (.ofInt n) = true := by
  obtain ⟨min, minIn, max, maxIn⟩ := i
  cases max with
  | none => simp [wholeSizes, Interval.below]
  | some m =>
    cases n with
    | zero => simp
    | succ n =>
      have hlimit : n < sizeLimit := by
        have := two_pow_lt_sizeLimit
        omega
      cases maxIn with
      | true =>
        simpa [wholeSizes, Interval.below, Endpoint.le] using
          Binary.lt_toNat_floor_iff (by omega) hlimit
      | false =>
        simpa [wholeSizes, Interval.below, Endpoint.lt] using
          Binary.lt_toNat_ceil_plus_iff hn hlimit

end

/-! ## Keywords -/

/-- A key stands once in a list whose keys are all different. -/
theorem Assoc.not_mem_around {α : Type} {before after : Assoc α} {k : String} {x : α}
    (h : (keys (before ++ (k, x) :: after)).Nodup) : k ∉ keys before ∧ k ∉ keys after := by
  simp only [keys, List.map_append, List.map_cons, List.nodup_append, List.nodup_cons] at h
  obtain ⟨-, ⟨hafter, -⟩, hapart⟩ := h
  refine ⟨fun hbefore => ?_, hafter⟩
  exact hapart _ hbefore _ (List.mem_cons_self ..) rfl

/-- The names of the keywords for the least and the greatest size of a type. -/
def Ty.sizeNames : Ty → String × String
  | .scalar _ _ => ("minLength", "maxLength")
  | .map _ k _ =>
    if k.isTextKey then ("minProperties", "maxProperties") else ("minItems", "maxItems")
  | _ => ("minItems", "maxItems")

section

variable {s : Schema} {ty : Ty} {name argument : String}

theorem schemaOf_eq (ty : Ty) : ty.schemaOf s =
    if ty.nullable then wrapNull (applyTags ty ty.tags (ty.unmarked s))
    else applyTags ty ty.tags (ty.unmarked s) := by
  cases ty with
  | named _ ref => cases ref <;> rfl
  | _ => rfl

theorem sizeKeys?_unmarked (hsized : Rule.isSized ty = true) :
    sizeKeys? ty (ty.unmarked s) = some ty.sizeNames := by
  cases ty with
  | scalar m k =>
    cases k with
    | string => rfl
    | _ => cases hsized
  | named m ref => cases hsized
  | seq m k e => rfl
  | map m k v =>
    obtain ⟨t, hshapes⟩ : ∃ t, (Ty.map m k v).Shapes t ((Ty.map m k v).unmarked s) :=
      shapes_unmarked nofun
    have hobject := hshapes.text rfl
    by_cases htext : k.isTextKey = true
    · obtain rfl := hobject.2 htext
      simp [sizeKeys?, hshapes.type, Ty.sizeNames, htext]
    · simp [sizeKeys?, hshapes.type, hobject, Ty.sizeNames, htext]

/-- The names are those of no other keyword. -/
theorem sizeNames_free (hsized : Rule.isSized ty = true)
    (hname : name = ty.sizeNames.1 ∨ name = ty.sizeNames.2) :
    name ∉ plainKeywords ∧ name ∉ ["type", "items", "enum"] := by
  rcases sizeKeys?_eq_some (sizeKeys?_unmarked (s := .empty) hsized) with h | h | h <;>
    rw [h] at hname <;> rcases hname with rfl | rfl <;> exact ⟨by decide, by decide⟩

theorem sizeNames_ne (hsized : Rule.isSized ty = true) : ty.sizeNames.1 ≠ ty.sizeNames.2 := by
  rcases sizeKeys?_eq_some (sizeKeys?_unmarked (s := .empty) hsized) with h | h | h <;>
    rw [h] <;> decide

/-- Before its tags the schema of a type says nothing about sizes. -/
theorem member?_unmarked (hsized : Rule.isSized ty = true)
    (hname : name = ty.sizeNames.1 ∨ name = ty.sizeNames.2) :
    (ty.unmarked s).member? name = none := by
  cases ty with
  | scalar m k =>
    cases k with
    | string => rcases hname with rfl | rfl <;> rfl
    | _ => cases hsized
  | named m ref => cases hsized
  | seq m k e => cases k <;> rcases hname with rfl | rfl <;> rfl
  | map m k v =>
    by_cases htext : k.isTextKey = true
    · simp only [Ty.sizeNames, Ty.unmarked, htext, if_true, objectMapSchema] at hname ⊢
      split <;> rcases hname with rfl | rfl <;> rfl
    · simp only [Ty.sizeNames, Ty.unmarked, htext] at hname ⊢
      rcases hname with rfl | rfl <;> rfl

/-- A tag that is not about sizes leaves their keywords alone. -/
theorem member?_applyTags_ne_size {tags : Tags} {o : Json} (hsized : Rule.isSized ty = true)
    (hname : name = ty.sizeNames.1 ∨ name = ty.sizeNames.2) (htags : "size" ∉ Assoc.keys tags) :
    (applyTags ty tags o).member? name = o.member? name := by
  obtain ⟨hplain, hother⟩ := sizeNames_free hsized hname
  refine member?_applyTags_of_not_mem (fun h => hother (by simp [h])) fun tag htag => ?_
  have hne : tag.1 ≠ "size" := fun h => htags (h ▸ List.mem_map_of_mem htag)
  rw [keywords_of_ne_size hne none]
  refine not_mem_keys_keywords hplain (fun h => ?_) nofun
  exact absurd (by simp [h]) hother

/-- The keywords for sizes are those of the one tag about them. -/
theorem member?_applyTags_size {before after : Tags} (hsized : Rule.isSized ty = true)
    (hname : name = ty.sizeNames.1 ∨ name = ty.sizeNames.2)
    (hbefore : "size" ∉ Assoc.keys before) (hafter : "size" ∉ Assoc.keys after) :
    (applyTags ty (before ++ ("size", argument) :: after) (ty.unmarked s)).member? name =
      Assoc.find? name (ty.keywords (some ty.sizeNames) "size" argument).reverse := by
  obtain ⟨t, hshapes⟩ : ∃ t, ty.Shapes t (ty.unmarked s) := by
    refine shapes_unmarked ?_
    rintro m ref rfl
    cases hsized
  have hsplit : applyTags ty (before ++ ("size", argument) :: after) (ty.unmarked s) =
      applyTags ty after (applyTag ty "size" argument (applyTags ty before (ty.unmarked s))) :=
    List.foldl_append
  have htype : (applyTags ty before (ty.unmarked s)).member? "type" = some (.string t) :=
    member?_type_applyTags.trans hshapes.type
  have hsizes : sizeKeys? ty (applyTags ty before (ty.unmarked s)) = some ty.sizeNames :=
    (sizeKeys?_congr member?_type_applyTags).trans (sizeKeys?_unmarked hsized)
  have hitems : name ≠ "items" := fun h => (sizeNames_free hsized hname).2 (by simp [h])
  rw [hsplit, member?_applyTags_ne_size hsized hname hafter,
    member?_applyTag (Json.isObject_of_member? htype) hitems, hsizes,
    member?_applyTags_ne_size hsized hname hbefore, member?_unmarked hsized hname, Option.or_none]

/-- Letting null through leaves the keywords for sizes alone. -/
theorem member?_schemaOf (hsized : Rule.isSized ty = true)
    (hname : name = ty.sizeNames.1 ∨ name = ty.sizeNames.2) :
    (ty.schemaOf s).member? name = (applyTags ty ty.tags (ty.unmarked s)).member? name := by
  obtain ⟨t, hshapes⟩ : ∃ t, ty.Shapes t (ty.unmarked s) := by
    refine shapes_unmarked ?_
    rintro m ref rfl
    cases hsized
  obtain ⟨-, hother⟩ := sizeNames_free hsized hname
  rw [schemaOf_eq]
  split
  · rw [member?_wrapNull (member?_type_applyTags.trans hshapes.type)
      (fun h => hother (by simp [h])), if_neg fun h => hother (by simp [h])]
  · rfl

/-- **The keywords for the sizes of a type** are the whole sizes of its tag. -/
theorem member?_sizeNames {i : Interval Double} (hsized : Rule.isSized ty = true)
    (htag : ("size", argument) ∈ ty.tags) (hkeys : (Assoc.keys ty.tags).Nodup)
    (hi : doubles? argument = some i) :
    (ty.schemaOf s).member? ty.sizeNames.1 = (wholeSizes i).1.map .ofNat ∧
      (ty.schemaOf s).member? ty.sizeNames.2 = (wholeSizes i).2.map .ofNat := by
  obtain ⟨before, after, htags⟩ := List.append_of_mem htag
  rw [htags] at hkeys
  obtain ⟨hbefore, hafter⟩ := Assoc.not_mem_around hkeys
  have hmember : ∀ name, name = ty.sizeNames.1 ∨ name = ty.sizeNames.2 →
      (ty.schemaOf s).member? name =
        Assoc.find? name (ty.keywords (some ty.sizeNames) "size" argument).reverse := by
    intro name hname
    rw [member?_schemaOf hsized hname, htags, member?_applyTags_size hsized hname hbefore hafter]
  have hne := sizeNames_ne hsized
  rw [hmember _ (.inl rfl), hmember _ (.inr rfl)]
  simp only [Ty.keywords, hi]
  generalize (wholeSizes i).1 = least
  generalize (wholeSizes i).2 = greatest
  cases least <;> cases greatest <;>
    simp [Validator.optional, Assoc.find?, hne, hne.symm]

end

/-! ## The rule -/

/-- Intervals that rules are made of have no end below zero on the left. -/
theorem Rule.sizes?_eq_some_iff {argument : String} {i : Interval Double} :
    Rule.sizes? argument = some i ↔
      doubles? argument = some i ∧ ∀ m ∈ i.min, Binary.zero.le m = true := by
  unfold sizes?
  cases doubles? argument with
  | none => simp
  | some j =>
    have hall : j.min.all (fun m => Binary.zero.le m) = true ↔
        ∀ m ∈ j.min, Binary.zero.le m = true := by cases j.min <;> simp
    dsimp only
    by_cases hmin : ∀ m ∈ j.min, Binary.zero.le m = true
    · rw [if_pos (hall.2 hmin)]
      constructor
      · intro h
        exact ⟨h, Option.some.inj h ▸ hmin⟩
      · exact And.left
    · rw [if_neg fun h => hmin (hall.1 h)]
      constructor
      · nofun
      · rintro ⟨h, hmin'⟩
        cases h
        exact absurd hmin' hmin

/-- **Keywords and rule admit the same sizes**, but for zero: the keywords admit it if the interval
    does on the left, although it may be beyond the interval on the right. -/
theorem RuleKind.sizes_admit_iff {site : Site} {ty : Ty} {argument : String} {rule : Rule}
    (hc : RuleKind.size.compile site ty argument = .ok rule)
    (htag : ("size", argument) ∈ ty.tags) (hkeys : (Assoc.keys ty.tags).Nodup) :
    ∃ (i : Interval Double) (least greatest : Option Nat),
      doubles? argument = some i ∧
      (ty.schemaOf site.schema).member? ty.sizeNames.1 = least.map .ofNat ∧
      (ty.schemaOf site.schema).member? ty.sizeNames.2 = greatest.map .ofNat ∧
      ∀ n < 2 ^ 53, ∀ d : Datum, d.size? = some n →
        (((∀ a ∈ least, a ≤ n) ∧ ∀ b ∈ greatest, n ≤ b) ↔
          rule.faults site.schema d = [] ∨
            n = 0 ∧ i.above (.ofInt 0) = true ∧ i.below (.ofInt 0) = false) := by
  rw [RuleKind.compile] at hc
  obtain ⟨hsized, i, hi, rfl⟩ := Rule.compileSize_eq_ok.1 hc
  obtain ⟨hread, hmin⟩ := Rule.sizes?_eq_some_iff.1 hi
  obtain ⟨hleast, hgreatest⟩ :=
    member?_sizeNames (s := site.schema) hsized htag hkeys hread
  refine ⟨i, _, _, hread, hleast, hgreatest, ?_⟩
  intro n hn d hd
  have hfaults : (Rule.sized i).faults site.schema d = [] ↔ i.contains (.ofInt n) = true := by
    simp only [Rule.faults, hd]
    split
    · rename_i hin
      exact iff_of_true rfl hin
    · rename_i hout
      exact iff_of_false (List.cons_ne_nil _ _) hout
  rw [hfaults, least_le_iff hn hmin, le_greatest_iff hn, Interval.contains, Bool.and_eq_true]
  by_cases hzero : n = 0
  · subst hzero
    cases i.below (.ofInt 0) <;> simp
  · simp [hzero]

/-- A field for the rules of a type. -/
def siteOf (ty : Ty) : Site := ⟨.empty, default, ⟨"loot", none, [], ty, [], none⟩⟩

/-- More than one half and less than three: both ends are rounded. -/
theorem RuleKind.sizes_admit_pair :
    let ty : Ty := .seq ⟨true, [("size", "(0.5,3)"), ("ref", "game.Item")]⟩ .list
      (.scalar .plain (.integer .int))
    let rule : Rule := .sized ⟨some (.ofRatio false ⟨1, 2⟩), false, some (.ofInt 3), false⟩
    let pair : Datum := .seq .list [.integer .int 1, .integer .int 2]
    RuleKind.size.compile (siteOf ty) ty "(0.5,3)" = .ok rule ∧ ("size", "(0.5,3)") ∈ ty.tags ∧
      (Assoc.keys ty.tags).Nodup ∧ pair.size? = some 2 ∧
      ∃ least greatest : Option Nat,
        (ty.schemaOf .empty).member? "minItems" = least.map .ofNat ∧
        (ty.schemaOf .empty).member? "maxItems" = greatest.map .ofNat ∧
        (∀ a ∈ least, a ≤ 2) ∧ ∀ b ∈ greatest, 2 ≤ b := by
  intro ty rule pair
  have hcompile : RuleKind.size.compile (siteOf ty) ty "(0.5,3)" = .ok rule := rfl
  have htag : ("size", "(0.5,3)") ∈ ty.tags := List.mem_cons_self ..
  have hkeys : (Assoc.keys ty.tags).Nodup := by decide
  obtain ⟨i, least, greatest, -, hleast, hgreatest, hsame⟩ :=
    sizes_admit_iff hcompile htag hkeys
  refine ⟨hcompile, htag, hkeys, rfl, least, greatest, hleast, hgreatest, ?_⟩
  exact (hsame 2 (by decide) pair rfl).2 (.inl rfl)

/-- No size is less than zero, but the greatest size that the keywords give is zero. -/
theorem not_sizes_admit_nothing :
    let ty : Ty := .scalar ⟨false, [("size", "[0,0)")]⟩ .string
    let rule : Rule := .sized ⟨some .zero, true, some .zero, false⟩
    RuleKind.size.compile (siteOf ty) ty "[0,0)" = .ok rule ∧
      (ty.schemaOf .empty).member? "minLength" = some (.ofNat 0) ∧
      (ty.schemaOf .empty).member? "maxLength" = some (.ofNat 0) ∧
      Datum.size? (.string "") = some 0 ∧ rule.faults .empty (.string "") ≠ [] := by
  intro ty rule
  have hread : doubles? "[0,0)" = some ⟨some .zero, true, some .zero, false⟩ := rfl
  have hwhole : wholeSizes ⟨some .zero, true, some .zero, false⟩ = (some 0, some 0) := by
    decide +kernel
  obtain ⟨hleast, hgreatest⟩ : (ty.schemaOf .empty).member? ty.sizeNames.1 = _ ∧
      (ty.schemaOf .empty).member? ty.sizeNames.2 = _ :=
    member?_sizeNames rfl (List.mem_singleton_self _) (by decide) hread
  rw [hwhole] at hleast hgreatest
  exact ⟨rfl, hleast, hgreatest, rfl, by decide⟩

end GameConfig
