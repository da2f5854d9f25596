import GameConfig.Descriptor.Lower
import GameConfig.Proofs.Emit.Members
import GameConfig.Proofs.Rule.Placement
import Mathlib

/-
  Tags of a field or of its type.

  A tag may stand on the type of a field or among the tags of the field itself;
  it is about the whole value in both places.  The rules are the same.  The
  schemas are not: the keywords of the type are there when null is let through,
  those of the field come later.  So

  * `Ty.displaces` tells which tags are not the same in both places if the type
    allows null: lists of values, sizes of maps with text keys, and whatever has
    keywords on a named type;
  * `alike_placement_iff`: the schemas are equal, even in the order of members,
    unless there is such a tag, and then they are not equal up to that order.

  Each tag is a list of `keywords` that are set one after the other, and the
  pattern for the items of a sequence.
-/

namespace GameConfig

namespace Json

/-! ## Equal up to the order of members -/

/-- Equal up to the order of members, at every depth. -/
inductive Alike : Json → Json → Prop
  | refl (v : Json) : Alike v v
  | array {xs ys : List Json} (length : xs.length = ys.length)
      (items : ∀ (i : Nat) x y, xs[i]? = some x → ys[i]? = some y → Alike x y) :
      Alike (.array xs) (.array ys)
  | object {ms ns : Assoc Json} (keys : (Assoc.keys ms).Perm (Assoc.keys ns))
      (values : ∀ k x y, Assoc.find? k ms = some x → Assoc.find? k ns = some y → Alike x y) :
      Alike (.object ms) (.object ns)

variable {a b o : Json} {key : String}

theorem Alike.member?_isSome (h : Alike a b) :
    (a.member? key).isSome = true ↔ (b.member? key).isSome = true := by
  cases h with
  | refl => rfl
  | array => rfl
  | object hkeys _ =>
    simp only [member?, Assoc.find?_isSome]
    exact hkeys.mem_iff

theorem Alike.member? (h : Alike a b) {x y : Json} (hx : a.member? key = some x)
    (hy : b.member? key = some y) : Alike x y := by
  cases h with
  | refl =>
    cases hx.symm.trans hy
    exact .refl x
  | array => cases hx
  | object _ hvalues => exact hvalues key x y hx hy

theorem Alike.length_eq {xs ys : List Json} (h : Alike (.array xs) (.array ys)) :
    xs.length = ys.length := by
  cases h with
  | refl => rfl
  | array hlen _ => exact hlen

end Json

/-! ## The keywords of tags -/

/-- The keywords that a tag sets on the schema of a type, where sizes have the names `sizes`. -/
def Ty.keywords (ty : Ty) (sizes : Option (String × String)) (key argument : String) :
    List (String × Json) :=
  match key with
  | "range" =>
    match doubles? argument with
    | none => []
    | some i =>
      Validator.optional (if i.minIn then "minimum" else "exclusiveMinimum")
          (i.min.map .ofDouble) ++
        Validator.optional (if i.maxIn then "maximum" else "exclusiveMaximum")
          (i.max.map .ofDouble)
  | "size" =>
    match doubles? argument, sizes with
    | some i, some (minKey, maxKey) =>
      Validator.optional minKey ((wholeSizes i).1.map .ofNat) ++
        Validator.optional maxKey ((wholeSizes i).2.map .ofNat)
    | _, _ => []
  | "regex" =>
    match ty with
    | .scalar _ .string => [("pattern", .string argument)]
    | _ => []
  | "set" => Validator.optional "enum" ((listValues? ty argument).map .array)
  | "ref" => [("x-ref", .string argument)]
  | "path" => [("x-path", .string argument)]
  | _ => []

/-- What a tag changes in the items of a sequence: a pattern goes there. -/
def Ty.changeItems (ty : Ty) (key argument : String) (o : Json) : Json :=
  match ty, key with
  | .seq _ _ _, "regex" => o.update "items" fun items => items.set "pattern" (.string argument)
  | _, _ => o

theorem applyTag_eq (ty : Ty) (key argument : String) (o : Json) :
    applyTag ty key argument o =
      (ty.changeItems key argument o).setAll (ty.keywords (sizeKeys? ty o) key argument) := by
  unfold applyTag
  split
  case h_1 =>
    unfold applyRange Ty.keywords
    cases doubles? argument with
    | none => cases ty <;> rfl
    | some i =>
      simp only [Json.set?_eq_setAll, ← Json.setAll_append]
      cases ty <;> rfl
  case h_2 =>
    unfold applySize Ty.keywords
    have hitems : ty.changeItems "size" argument o = o := by cases ty <;> rfl
    rw [hitems]
    cases doubles? argument with
    | none => rfl
    | some i =>
      cases sizeKeys? ty o with
      | none => rfl
      | some keys => simp only [Json.set?_eq_setAll, ← Json.setAll_append]
  case h_3 =>
    cases ty with
    | scalar m k => cases k <;> rfl
    | _ => rfl
  case h_4 =>
    rw [Json.set?_eq_setAll]
    cases ty <;> rfl
  case h_5 => cases ty <;> rfl
  case h_6 => cases ty <;> rfl
  case h_7 hrange hsize hregex hset href hpath =>
    have hitems : ty.changeItems key argument o = o := by
      unfold Ty.changeItems
      split
      · exact absurd rfl hregex
      · rfl
    have hnone : ty.keywords (sizeKeys? ty o) key argument = [] := by
      unfold Ty.keywords
      split
      case h_7 => rfl
      all_goals contradiction
    rw [hitems, hnone]
    rfl

/-- The keywords that are neither about sizes nor about lists of values. -/
def plainKeywords : List String :=
  ["minimum", "exclusiveMinimum", "maximum", "exclusiveMaximum", "pattern", "x-ref", "x-path"]

theorem mem_optional {key : String} {value : Option Json} {e : String × Json} :
    e ∈ Validator.optional key value ↔ e.1 = key ∧ value = some e.2 := by
  obtain ⟨k, v⟩ := e
  cases value with
  | none => simp [Validator.optional]
  | some w =>
    simp only [Validator.optional, Option.toList_some, List.map_cons, List.map_nil,
      List.mem_singleton, Prod.mk.injEq, Option.some.injEq]
    exact and_congr_right fun _ => eq_comm

section
variable {ty : Ty} {sizes : Option (String × String)} {key argument : String} {e : String × Json}

theorem mem_keywords_size {names : String × String}
    (h : e ∈ ty.keywords (some names) "size" argument) : e.1 = names.1 ∨ e.1 = names.2 := by
  obtain ⟨minKey, maxKey⟩ := names
  simp only [Ty.keywords] at h
  cases hi : doubles? argument with
  | none => simp [hi] at h
  | some i =>
    rw [hi] at h
    rcases List.mem_append.1 h with h | h
    · exact .inl (mem_optional.1 h).1
    · exact .inr (mem_optional.1 h).1

/-- The three sorts of keywords. -/
theorem mem_keywords (h : e ∈ ty.keywords sizes key argument) :
    e.1 ∈ plainKeywords ∨
      (key = "set" ∧ e.1 = "enum" ∧ ∃ vs, listValues? ty argument = some vs ∧ e.2 = .array vs) ∨
      ∃ names, sizes = some names ∧ (e.1 = names.1 ∨ e.1 = names.2) := by
  unfold Ty.keywords at h
  split at h
  case h_1 =>
    refine .inl ?_
    split at h
    case h_1 => cases h
    case h_2 i _ =>
      rcases List.mem_append.1 h with h | h
      · rw [(mem_optional.1 h).1]
        cases i.minIn <;> decide
      · rw [(mem_optional.1 h).1]
        cases i.maxIn <;> decide
  case h_2 =>
    cases sizes with
    | none => cases hi : doubles? argument <;> simp [hi] at h
    | some names => exact .inr (.inr ⟨names, rfl, @mem_keywords_size ty _ _ _ h⟩)
  case h_3 =>
    split at h
    case h_1 => simp [List.mem_singleton.1 h, plainKeywords]
    case h_2 => cases h
  case h_4 =>
    obtain ⟨hkey, hvalue⟩ := mem_optional.1 h
    obtain ⟨vs, hvs, hvalue⟩ := Option.map_eq_some_iff.1 hvalue
    exact .inr (.inl ⟨rfl, hkey, vs, hvs, hvalue.symm⟩)
  case h_5 => simp [List.mem_singleton.1 h, plainKeywords]
  case h_6 => simp [List.mem_singleton.1 h, plainKeywords]
  case h_7 => cases h

/-- An argument gives a bound on either side. -/
def isBounded (argument : String) : Bool :=
  (doubles? argument).any fun i => i.min.isSome || i.max.isSome

/-- Whether the schema of a type that allows null shows where the tag stands. -/
def Ty.displaces (ty : Ty) (key argument : String) : Bool :=
  match ty with
  | .scalar _ _ => key == "set" && (listValues? ty argument).isSome
  | .named _ _ => key == "ref" || key == "path" || (key == "range" && isBounded argument)
  | .seq _ _ _ => false
  | .map _ k _ => k.isTextKey && key == "size" && isBounded argument

theorem keywords_size_eq_nil {names : String × String} :
    ty.keywords (some names) "size" argument = [] ↔ isBounded argument = false := by
  obtain ⟨minKey, maxKey⟩ := names
  unfold isBounded
  simp only [Ty.keywords]
  cases doubles? argument with
  | none => simp
  | some i => simp [Validator.optional, wholeSizes]

theorem keywords_of_ne_size (h : key ≠ "size") (other : Option (String × String)) :
    ty.keywords sizes key argument = ty.keywords other key argument := by
  unfold Ty.keywords
  split
  case h_2 => exact absurd rfl h
  all_goals rfl

/-- The tags of a named type that are shown in another place are those that set keywords. -/
theorem keywords_named_eq_nil {mark : Mark} {ref : TypeRef} :
    (Ty.named mark ref).keywords none key argument = [] ↔
      (Ty.named mark ref).displaces key argument = false := by
  unfold Ty.keywords Ty.displaces
  split
  case h_1 =>
    unfold isBounded
    cases doubles? argument with
    | none => simp
    | some i => simp [Validator.optional]
  case h_2 => cases doubles? argument <;> simp
  case h_3 => simp
  case h_4 => simp [Validator.optional, listValues?]
  case h_5 => simp
  case h_6 => simp
  case h_7 hrange hsize hregex hset href hpath =>
    simp [show key ≠ "ref" from href, show key ≠ "path" from hpath,
      show key ≠ "range" from hrange]

theorem not_mem_keys_keywords {name : String} (hplain : name ∉ plainKeywords)
    (hset : name = "enum" → key = "set" → listValues? ty argument = none)
    (hsizes : ∀ names, sizes = some names → name ≠ names.1 ∧ name ≠ names.2) :
    name ∉ Assoc.keys (ty.keywords sizes key argument) := by
  intro hmem
  obtain ⟨e, he, rfl⟩ := List.mem_map.1 hmem
  rcases mem_keywords he with h | ⟨hkey, hname, vs, hvs, -⟩ | ⟨names, hs, h⟩
  · exact hplain h
  · rw [hset hname hkey] at hvs
    cases hvs
  · rcases h with h | h
    · exact (hsizes names hs).1 h
    · exact (hsizes names hs).2 h

theorem sizeKeys?_eq_some {o : Json} {names : String × String} (h : sizeKeys? ty o = some names) :
    names = ("minLength", "maxLength") ∨ names = ("minProperties", "maxProperties") ∨
      names = ("minItems", "maxItems") := by
  unfold sizeKeys? at h
  split at h
  case h_1 => simp [← Option.some.inj h]
  case h_2 => split at h <;> simp [← Option.some.inj h]
  case h_3 => simp [← Option.some.inj h]
  case h_4 => cases h

/-- What is in a schema besides its tags is not a keyword of theirs. -/
theorem not_mem_keys_of_mem {o : Json} {name : String}
    (hname : name ∈ ["type", "items", "oneOf", "description"]) :
    name ∉ Assoc.keys (ty.keywords (sizeKeys? ty o) key argument) := by
  simp only [List.mem_cons, List.not_mem_nil, or_false] at hname
  refine not_mem_keys_keywords ?_ ?_ fun names hnames => ?_
  · rcases hname with rfl | rfl | rfl | rfl <;> decide
  · rintro rfl
    simp at hname
  · rcases sizeKeys?_eq_some hnames with rfl | rfl | rfl <;>
      rcases hname with rfl | rfl | rfl | rfl <;> decide

theorem ne_of_mem_keywords {o : Json} (h : e ∈ ty.keywords (sizeKeys? ty o) key argument)
    {name : String} (hname : name ∈ ["type", "items", "oneOf", "description"]) : e.1 ≠ name := by
  rintro rfl
  exact not_mem_keys_of_mem hname (List.mem_map.2 ⟨e, h, rfl⟩)

/-! ## One tag -/

variable {o : Json} {name : String}

theorem member?_changeItems (h : name ≠ "items") :
    (ty.changeItems key argument o).member? name = o.member? name := by
  unfold Ty.changeItems
  split
  · rw [Json.member?_update, if_neg h]
  · rfl

theorem isObject_changeItems (ho : o.IsObject) : (ty.changeItems key argument o).IsObject := by
  unfold Ty.changeItems
  split
  · exact ho.update _
  · exact ho

theorem isObject_applyTag (ho : o.IsObject) : (applyTag ty key argument o).IsObject := by
  rw [applyTag_eq]
  exact (isObject_changeItems ho).setAll _

theorem member?_applyTag (ho : o.IsObject) (h : name ≠ "items") :
    (applyTag ty key argument o).member? name =
      (Assoc.find? name (ty.keywords (sizeKeys? ty o) key argument).reverse).or
        (o.member? name) := by
  rw [applyTag_eq, Json.member?_setAll (isObject_changeItems ho), member?_changeItems h]

theorem member?_applyTag_of_not_mem (h : name ≠ "items")
    (hkeys : name ∉ Assoc.keys (ty.keywords (sizeKeys? ty o) key argument)) :
    (applyTag ty key argument o).member? name = o.member? name := by
  rw [applyTag_eq, Json.member?_setAll_of_not_mem hkeys, member?_changeItems h]

/-- No tag is about the type that the schema names. -/
theorem member?_type_applyTag :
    (applyTag ty key argument o).member? "type" = o.member? "type" :=
  member?_applyTag_of_not_mem (by decide) (not_mem_keys_of_mem (by decide))

theorem sizeKeys?_congr {o' : Json} (h : o.member? "type" = o'.member? "type") :
    sizeKeys? ty o = sizeKeys? ty o' := by
  unfold sizeKeys?
  rw [h]

/-! ## Letting null through -/

/-- The schema that names a type, for null as well. -/
def withNull (t : String) (o : Json) : Json := o.set "type" (.array [.string t, .string "null"])

/-- A schema that names one type, that of objects exactly for maps in object notation, and that
    lists no values. -/
structure Ty.Shapes (ty : Ty) (t : String) (o : Json) : Prop where
  type : o.member? "type" = some (.string t)
  enum : o.member? "enum" = none
  text : ∀ {m k v}, ty = .map m k v → (t = "object" ↔ k.isTextKey = true)

variable {t : String}

/-- A tag that is not displaced finds the same names of sizes behind null as before it. -/
theorem Ty.Shapes.keywords_withNull (h : ty.Shapes t o) (hd : ty.displaces key argument = false) :
    ty.keywords (sizeKeys? ty (withNull t o)) key argument =
      ty.keywords (sizeKeys? ty o) key argument := by
  cases ty with
  | scalar m k => cases k <;> rfl
  | named m r => rfl
  | seq m k e => rfl
  | map m k v =>
    have hlist : (withNull t o).member? "type" = some (.array [.string t, .string "null"]) := by
      obtain ⟨ms, rfl⟩ := Json.isObject_of_member? h.type
      exact Assoc.find?_insert_self ..
    by_cases hkey : key = "size"
    · subst hkey
      by_cases ht : t = "object"
      · have hunbounded : isBounded argument = false := by
          simpa [displaces, (h.text rfl).1 ht] using hd
        have hnil : ∀ o,
            (Ty.map m k v).keywords (sizeKeys? (.map m k v) o) "size" argument = [] := by
          intro o
          unfold sizeKeys?
          dsimp only
          split <;> exact keywords_size_eq_nil.2 hunbounded
        rw [hnil, hnil]
      · have hsizes : sizeKeys? (.map m k v) (withNull t o) = sizeKeys? (.map m k v) o := by
          simp [sizeKeys?, hlist, h.type, ht]
        rw [hsizes]
    · exact keywords_of_ne_size hkey _

/-- Such a tag may be applied before null is let through or after it. -/
theorem Ty.Shapes.tag_withNull (h : ty.Shapes t o) (hd : ty.displaces key argument = false) :
    applyTag ty key argument (withNull t o) = withNull t (applyTag ty key argument o) := by
  have hitems : ty.changeItems key argument (withNull t o) =
      withNull t (ty.changeItems key argument o) := by
    unfold Ty.changeItems
    split
    · exact Json.update_set (by decide) _ _
    · rfl
  have htype : ((ty.changeItems key argument o).member? "type").isSome = true := by
    rw [member?_changeItems (by decide), h.type]
    rfl
  rw [applyTag_eq, applyTag_eq, h.keywords_withNull hd, hitems, withNull, withNull]
  exact Json.setAll_set htype fun e he => ne_of_mem_keywords he (by decide)

theorem Ty.Shapes.afterTag (h : ty.Shapes t o) (hd : ty.displaces key argument = false) :
    ty.Shapes t (applyTag ty key argument o) := by
  refine ⟨member?_type_applyTag.trans h.type, ?_, h.text⟩
  refine (member?_applyTag_of_not_mem (by decide) ?_).trans h.enum
  refine not_mem_keys_keywords (by decide) ?_ fun names hnames => ?_
  · rintro - rfl
    cases ty with
    | scalar m k => simpa [displaces] using hd
    | _ => rfl
  · rcases sizeKeys?_eq_some hnames with rfl | rfl | rfl <;> decide

theorem Ty.Shapes.wrapNull_eq (h : ty.Shapes t o) : wrapNull o = withNull t o := by
  have henum : (withNull t o).member? "enum" = none :=
    (Json.member?_set_of_ne (by decide) _).trans h.enum
  simp only [wrapNull, h.type]
  exact Json.update_of_member?_eq_none henum

end

/-! ## All tags -/

section
variable {ty : Ty} {tags : Tags} {o : Json} {name t : String}

theorem Ty.Shapes.afterTags (h : ty.Shapes t o)
    (hd : ∀ tag ∈ tags, ty.displaces tag.1 tag.2 = false) :
    ty.Shapes t (applyTags ty tags o) ∧
      applyTags ty tags (withNull t o) = withNull t (applyTags ty tags o) := by
  induction tags generalizing o with
  | nil => exact ⟨h, rfl⟩
  | cons tag tags ih =>
    rw [List.forall_mem_cons] at hd
    have hrest := ih (h.afterTag hd.1) hd.2
    refine ⟨hrest.1, ?_⟩
    show applyTags ty tags (applyTag ty tag.1 tag.2 (withNull t o)) = _
    rw [h.tag_withNull hd.1]
    exact hrest.2

theorem member?_type_applyTags : (applyTags ty tags o).member? "type" = o.member? "type" := by
  induction tags generalizing o with
  | nil => rfl
  | cons tag tags ih => exact ih.trans member?_type_applyTag

/-- The keywords of all tags. -/
def Ty.allKeywords (ty : Ty) (sizes : Option (String × String)) (tags : Tags) :
    List (String × Json) :=
  tags.flatMap fun tag => ty.keywords sizes tag.1 tag.2

theorem member?_applyTags (ho : o.IsObject) (h : name ≠ "items") :
    (applyTags ty tags o).member? name =
      (Assoc.find? name (ty.allKeywords (sizeKeys? ty o) tags).reverse).or (o.member? name) := by
  induction tags generalizing o with
  | nil => rfl
  | cons tag tags ih =>
    have hsizes : sizeKeys? ty (applyTag ty tag.1 tag.2 o) = sizeKeys? ty o :=
      sizeKeys?_congr member?_type_applyTag
    have hobject : (applyTag ty tag.1 tag.2 o).IsObject := isObject_applyTag ho
    have hrest := ih hobject
    rw [hsizes, member?_applyTag ho h, ← Option.or_assoc, ← Assoc.find?_append,
      ← List.reverse_append] at hrest
    exact hrest

end

/-! ## Fields -/

/-- The schema of a type before the keywords of its mark. -/
def Ty.unmarked (s : Schema) : Ty → Json
  | .scalar _ k => k.schemaOf
  | .named _ (.enum id) => definitionRef (s.enum id).fullName
  | .named _ (.bean id) => definitionRef (s.bean id).fullName
  | .seq _ k e => seqSchema k (e.schemaOf s)
  | .map _ k v =>
    if k.isTextKey then objectMapSchema s k (v.schemaOf s)
    else pairMapSchema (k.schemaOf s) (v.schemaOf s)

section
variable {s : Schema} {ty : Ty} {tags : Tags} {o : Json}

theorem applyTags_withMark (m : Mark) : applyTags (ty.withMark m) tags o = applyTags ty tags o := by
  have htag : ∀ key argument, applyTag (ty.withMark m) key argument = applyTag ty key argument := by
    intro key argument
    cases ty with
    | scalar _ k => cases k <;> rfl
    | _ => rfl
  simp only [applyTags, htag]

theorem schemaOf_withMark (m : Mark) : (ty.withMark m).schemaOf s =
    if m.nullable then wrapNull (applyTags ty m.tags (ty.unmarked s))
    else applyTags ty m.tags (ty.unmarked s) := by
  rw [← applyTags_withMark m]
  cases ty with
  | named _ ref => cases ref <;> rfl
  | _ => rfl

/-- Only the schemas of named types do not name a type. -/
theorem shapes_unmarked (h : ∀ m ref, ty ≠ .named m ref) : ∃ t, ty.Shapes t (ty.unmarked s) := by
  cases ty with
  | scalar m k =>
    cases k with
    | integer w => cases w <;> exact ⟨_, rfl, rfl, nofun⟩
    | _ => exact ⟨_, rfl, rfl, nofun⟩
  | named m ref => exact absurd rfl (h m ref)
  | seq m k e => cases k <;> exact ⟨_, rfl, rfl, nofun⟩
  | map m k v =>
    simp only [Ty.unmarked]
    by_cases htext : k.isTextKey = true
    · rw [if_pos htext]
      refine ⟨"object", ?_, ?_, fun heq => ?_⟩
      · unfold objectMapSchema
        split <;> rfl
      · unfold objectMapSchema
        split <;> rfl
      · cases heq
        exact iff_of_true rfl htext
    · rw [if_neg htext]
      refine ⟨"array", rfl, rfl, fun heq => ?_⟩
      cases heq
      exact iff_of_false (by decide) htext

theorem member?_describe {comment : Option String} {name : String} (h : name ≠ "description") :
    (describe comment o).member? name = o.member? name := by
  rw [describe, Json.set?_eq_setAll]
  refine Json.member?_setAll_of_not_mem fun hmem => ?_
  obtain ⟨e, he, rfl⟩ := List.mem_map.1 hmem
  exact h (mem_optional.1 he).1

/-- A tag that is not displaced may be applied before null is let through or after it. -/
theorem applyTags_wrapNull (hd : ∀ tag ∈ tags, ty.displaces tag.1 tag.2 = false) :
    applyTags ty tags (wrapNull (ty.unmarked s)) =
      wrapNull (applyTags ty tags (ty.unmarked s)) := by
  by_cases hty : ∀ m ref, ty ≠ .named m ref
  · obtain ⟨t, hshapes⟩ := shapes_unmarked (s := s) hty
    obtain ⟨hafter, hcomm⟩ := hshapes.afterTags hd
    rw [hshapes.wrapNull_eq, hafter.wrapNull_eq, hcomm]
  · -- the tags of a named type set nothing at all
    simp only [not_forall, not_not] at hty
    obtain ⟨m, ref, rfl⟩ := hty
    have hid : ∀ o, applyTags (.named m ref) tags o = o := by
      intro o
      induction tags with
      | nil => rfl
      | cons tag tags ih =>
        rw [List.forall_mem_cons] at hd
        have hnil := keywords_named_eq_nil.2 hd.1
        have hstep : applyTag (.named m ref) tag.1 tag.2 o = o := by
          rw [applyTag_eq]
          simp [sizeKeys?, hnil, Ty.changeItems, Json.setAll]
        show applyTags _ tags (applyTag _ _ _ o) = o
        rw [hstep, ih hd.2]
    rw [hid, hid]

/-! ## Displaced tags -/

variable {a b : Json} {name key argument : String} {comment : Option String}

theorem not_alike_of_member? (hname : name ≠ "description") (ha : a.member? name = none)
    (hb : (b.member? name).isSome = true) :
    ¬ Json.Alike (describe comment a) (describe comment b) := by
  intro h
  have hboth : ((describe comment a).member? name).isSome = true :=
    h.member?_isSome.2 (by rwa [member?_describe hname])
  rw [member?_describe hname, ha] at hboth
  cases hboth

theorem mem_allKeywords {sizes : Option (String × String)} {e : String × Json} :
    e ∈ ty.allKeywords sizes tags ↔ ∃ tag ∈ tags, e ∈ ty.keywords sizes tag.1 tag.2 := by
  rw [Ty.allKeywords, List.mem_flatMap]

theorem member?_applyTags_isSome {tag : String × String} {e : String × Json} (ho : o.IsObject)
    (htag : tag ∈ tags) (he : e ∈ ty.keywords (sizeKeys? ty o) tag.1 tag.2) :
    ((applyTags ty tags o).member? e.1).isSome = true := by
  have hkeys : e.1 ∈ Assoc.keys (ty.allKeywords (sizeKeys? ty o) tags).reverse := by
    rw [Assoc.keys, List.map_reverse, List.mem_reverse]
    exact List.mem_map.2 ⟨e, mem_allKeywords.2 ⟨tag, htag, he⟩, rfl⟩
  rw [member?_applyTags ho (ne_of_mem_keywords he (by decide)), Option.isSome_or,
    Assoc.find?_isSome.2 hkeys, Bool.true_or]

theorem member?_applyTags_of_not_mem (hname : name ≠ "items")
    (hkeys : ∀ tag ∈ tags, name ∉ Assoc.keys (ty.keywords (sizeKeys? ty o) tag.1 tag.2)) :
    (applyTags ty tags o).member? name = o.member? name := by
  induction tags generalizing o with
  | nil => rfl
  | cons tag tags ih =>
    rw [List.forall_mem_cons] at hkeys
    refine (ih ?_).trans (member?_applyTag_of_not_mem hname hkeys.1)
    rw [sizeKeys?_congr member?_type_applyTag]
    exact hkeys.2

/-- A list of values with null. -/
def addNull : Json → Json
  | .array vs => .array (vs ++ [.null])
  | other => other

theorem member?_wrapNull {t : String} (htype : o.member? "type" = some (.string t))
    (hname : name ≠ "type") : (wrapNull o).member? name =
      if name = "enum" then (o.member? name).map addNull else o.member? name := by
  have hwrap : wrapNull o = (withNull t o).update "enum" addNull := by
    simp only [wrapNull, htype]
    rfl
  rw [hwrap, Json.member?_update, withNull, Json.member?_set_of_ne hname]

/-- Behind a choice the keywords of a named type stand outside. -/
theorem not_alike_named {m : Mark} {ref : TypeRef} {tag : String × String} (htag : tag ∈ tags)
    (hd : (Ty.named m ref).displaces tag.1 tag.2 = true) :
    ¬ Json.Alike
      (describe comment (wrapNull (applyTags (.named m ref) tags ((Ty.named m ref).unmarked s))))
      (describe comment
        (applyTags (.named m ref) tags (wrapNull ((Ty.named m ref).unmarked s)))) := by
  have hbase : ((Ty.named m ref).unmarked s).member? "type" = none := by cases ref <;> rfl
  have hwrap : ∀ o : Json, o.member? "type" = none →
      wrapNull o = .object [("oneOf", .array [o, .object [("type", .string "null")]])] := by
    intro o ho
    simp only [wrapNull, ho]
  rw [hwrap _ hbase, hwrap _ (member?_type_applyTags.trans hbase)]
  have hset : (Ty.named m ref).keywords none tag.1 tag.2 ≠ [] := by
    intro hnil
    rw [keywords_named_eq_nil.1 hnil] at hd
    cases hd
  obtain ⟨e, he⟩ := List.exists_mem_of_ne_nil _ hset
  have hne : "oneOf" ≠ e.1 := (ne_of_mem_keywords (o := .null) he (by decide)).symm
  refine not_alike_of_member? (ne_of_mem_keywords (o := .null) he (by decide)) ?_
    (member?_applyTags_isSome ⟨_, rfl⟩ htag he)
  simp [Json.member?, Assoc.find?, hne]

/-- Behind a list of types the sizes of a map in object notation are those of a list. -/
theorem not_alike_map {m : Mark} {k v : Ty} {tag : String × String} (htag : tag ∈ tags)
    (hd : (Ty.map m k v).displaces tag.1 tag.2 = true) :
    ¬ Json.Alike
      (describe comment (wrapNull (applyTags (.map m k v) tags ((Ty.map m k v).unmarked s))))
      (describe comment (applyTags (.map m k v) tags (wrapNull ((Ty.map m k v).unmarked s)))) := by
  simp only [Ty.displaces, Bool.and_eq_true, beq_iff_eq] at hd
  obtain ⟨⟨htext, hkey⟩, hbounded⟩ := hd
  obtain ⟨t, hshapes⟩ : ∃ t, (Ty.map m k v).Shapes t ((Ty.map m k v).unmarked s) :=
    shapes_unmarked nofun
  obtain rfl := (hshapes.text rfl).2 htext
  rw [hshapes.wrapNull_eq]
  have hlist : (withNull "object" ((Ty.map m k v).unmarked s)).member? "type" =
      some (.array [.string "object", .string "null"]) := by
    obtain ⟨ms, hms⟩ := Json.isObject_of_member? hshapes.type
    rw [hms]
    exact Assoc.find?_insert_self ..
  have hin : sizeKeys? (.map m k v) ((Ty.map m k v).unmarked s) =
      some ("minProperties", "maxProperties") := by
    simp only [sizeKeys?, hshapes.type]
  have hout : sizeKeys? (.map m k v) (withNull "object" ((Ty.map m k v).unmarked s)) =
      some ("minItems", "maxItems") := by
    simp only [sizeKeys?, hlist]
  have hset : (Ty.map m k v).keywords (some ("minItems", "maxItems")) "size" tag.2 ≠ [] := by
    intro hnil
    rw [keywords_size_eq_nil.1 hnil] at hbounded
    cases hbounded
  obtain ⟨e, he⟩ := List.exists_mem_of_ne_nil _ hset
  have hname := mem_keywords_size he
  rw [← hout, ← hkey] at he
  have hoff : ∀ name, name = "minItems" ∨ name = "maxItems" →
      (wrapNull (applyTags (.map m k v) tags ((Ty.map m k v).unmarked s))).member? name = none := by
    intro name hname
    rw [member?_wrapNull (member?_type_applyTags.trans hshapes.type)
      (by rcases hname with rfl | rfl <;> decide),
      if_neg (by rcases hname with rfl | rfl <;> decide), member?_applyTags_of_not_mem]
    · simp only [Ty.unmarked, htext, if_true, objectMapSchema]
      rcases hname with rfl | rfl <;> split <;> rfl
    · rcases hname with rfl | rfl <;> decide
    · intro tag _
      rw [hin]
      refine not_mem_keys_keywords ?_ (fun _ _ => rfl) fun names hnames => ?_
      · rcases hname with rfl | rfl <;> decide
      · cases hnames
        rcases hname with rfl | rfl <;> decide
  refine not_alike_of_member? (ne_of_mem_keywords he (by decide)) (hoff e.1 hname) ?_
  exact member?_applyTags_isSome (Json.isObject_of_member? hlist) htag he

/-- Where some tag lists values, the last such list counts. -/
theorem exists_last_list {tag : String × String} (htag : tag ∈ tags) (hkey : tag.1 = "set")
    (hvalues : (listValues? ty tag.2).isSome = true) :
    ∃ vs, Assoc.find? "enum" (ty.allKeywords (sizeKeys? ty o) tags).reverse =
      some (.array vs) := by
  obtain ⟨vs, hvs⟩ := Option.isSome_iff_exists.1 hvalues
  have hfirst : ("enum", Json.array vs) ∈ ty.keywords (sizeKeys? ty o) tag.1 tag.2 := by
    rw [hkey]
    exact mem_optional.2 ⟨rfl, by rw [hvs]; rfl⟩
  have hsome : "enum" ∈ Assoc.keys (ty.allKeywords (sizeKeys? ty o) tags).reverse := by
    rw [Assoc.keys, List.map_reverse, List.mem_reverse]
    exact List.mem_map.2 ⟨_, mem_allKeywords.2 ⟨tag, htag, hfirst⟩, rfl⟩
  obtain ⟨y, hy⟩ := Option.isSome_iff_exists.1 (Assoc.find?_isSome.2 hsome)
  obtain ⟨other, -, hmem⟩ := mem_allKeywords.1 (List.mem_reverse.1 (Assoc.mem_of_find? hy))
  rcases mem_keywords hmem with h | ⟨-, -, ws, -, rfl⟩ | ⟨names, hnames, h⟩
  · exact absurd (show "enum" ∈ plainKeywords from h) (by decide)
  · exact ⟨ws, hy⟩
  · rcases sizeKeys?_eq_some hnames with rfl | rfl | rfl <;> simp at h

/-- Behind null a list of values has no null. -/
theorem not_alike_scalar {m : Mark} {k : Scalar} {tag : String × String} (htag : tag ∈ tags)
    (hd : (Ty.scalar m k).displaces tag.1 tag.2 = true) :
    ¬ Json.Alike
      (describe comment (wrapNull (applyTags (.scalar m k) tags ((Ty.scalar m k).unmarked s))))
      (describe comment
        (applyTags (.scalar m k) tags (wrapNull ((Ty.scalar m k).unmarked s)))) := by
  simp only [Ty.displaces, Bool.and_eq_true, beq_iff_eq] at hd
  obtain ⟨hkey, hvalues⟩ := hd
  obtain ⟨t, hshapes⟩ : ∃ t, (Ty.scalar m k).Shapes t ((Ty.scalar m k).unmarked s) :=
    shapes_unmarked nofun
  have hobj : ((Ty.scalar m k).unmarked s).IsObject := Json.isObject_of_member? hshapes.type
  have hobj' : (withNull t ((Ty.scalar m k).unmarked s)).IsObject := by
    obtain ⟨ms, hms⟩ := hobj
    rw [hms]
    exact ⟨_, rfl⟩
  have hsizes : sizeKeys? (.scalar m k) (withNull t ((Ty.scalar m k).unmarked s)) =
      sizeKeys? (.scalar m k) ((Ty.scalar m k).unmarked s) := by cases k <;> rfl
  -- both have the same last list of values, the inner one with null
  obtain ⟨vs, hlast⟩ : ∃ vs, Assoc.find? "enum" ((Ty.scalar m k).allKeywords
      (sizeKeys? (.scalar m k) ((Ty.scalar m k).unmarked s)) tags).reverse = some (.array vs) :=
    exists_last_list htag hkey hvalues
  intro h
  have hinner : (describe comment (wrapNull (applyTags (.scalar m k) tags
      ((Ty.scalar m k).unmarked s)))).member? "enum" = some (.array (vs ++ [.null])) := by
    rw [member?_describe (by decide), member?_wrapNull (member?_type_applyTags.trans hshapes.type)
      (by decide), if_pos rfl, member?_applyTags hobj (by decide), hlast]
    rfl
  have houter : (describe comment (applyTags (.scalar m k) tags
      (wrapNull ((Ty.scalar m k).unmarked s)))).member? "enum" = some (.array vs) := by
    rw [member?_describe (by decide), hshapes.wrapNull_eq, member?_applyTags hobj' (by decide),
      hsizes, hlast]
    rfl
  have hlength := (h.member? hinner houter).length_eq
  simp at hlength

theorem not_alike_of_displaces {tag : String × String} (htag : tag ∈ tags)
    (hd : ty.displaces tag.1 tag.2 = true) :
    ¬ Json.Alike (describe comment (wrapNull (applyTags ty tags (ty.unmarked s))))
      (describe comment (applyTags ty tags (wrapNull (ty.unmarked s)))) := by
  cases ty with
  | scalar m k => exact not_alike_scalar htag hd
  | named m ref => exact not_alike_named htag hd
  | seq m k e => cases hd
  | map m k v => exact not_alike_map htag hd

theorem schemaOf_tagsOnType (f : Field) : (f.tagsOnType tags).schemaOf s =
    describe f.comment (if f.ty.nullable then wrapNull (applyTags f.ty tags (f.ty.unmarked s))
      else applyTags f.ty tags (f.ty.unmarked s)) := by
  show describe f.comment (applyTags _ [] ((f.ty.withMark ⟨f.ty.nullable, tags⟩).schemaOf s)) = _
  rw [schemaOf_withMark]
  rfl

theorem schemaOf_tagsOnField (f : Field) : (f.tagsOnField tags).schemaOf s =
    describe f.comment (applyTags f.ty tags
      (if f.ty.nullable then wrapNull (f.ty.unmarked s) else f.ty.unmarked s)) := by
  show describe f.comment (applyTags (f.ty.withMark ⟨f.ty.nullable, []⟩) tags
    ((f.ty.withMark ⟨f.ty.nullable, []⟩).schemaOf s)) = _
  rw [schemaOf_withMark, applyTags_withMark]
  rfl

/-- The schemas for both places are equal unless a tag is displaced, and not even alike if one
    is. -/
theorem alike_iff (s : Schema) (f : Field) (tags : Tags) :
    (Json.Alike ((f.tagsOnType tags).schemaOf s) ((f.tagsOnField tags).schemaOf s) ↔
      (f.ty.nullable = true → ∀ tag ∈ tags, f.ty.displaces tag.1 tag.2 = false)) ∧
    ((f.ty.nullable = true → ∀ tag ∈ tags, f.ty.displaces tag.1 tag.2 = false) →
      (f.tagsOnType tags).schemaOf s = (f.tagsOnField tags).schemaOf s) := by
  have heq : (f.ty.nullable = true → ∀ tag ∈ tags, f.ty.displaces tag.1 tag.2 = false) →
      (f.tagsOnType tags).schemaOf s = (f.tagsOnField tags).schemaOf s := by
    intro hd
    rw [schemaOf_tagsOnType, schemaOf_tagsOnField]
    cases hnull : f.ty.nullable with
    | false => rfl
    | true => rw [if_pos rfl, if_pos rfl, applyTags_wrapNull (hd hnull)]
  refine ⟨⟨fun h hnull tag htag => ?_, fun hd => ?_⟩, heq⟩
  · rw [schemaOf_tagsOnType, schemaOf_tagsOnField, if_pos hnull, if_pos hnull] at h
    by_contra hd
    exact not_alike_of_displaces htag (Bool.not_eq_false _ ▸ hd) h
  · rw [heq hd]
    exact .refl _

end

/-- **Tags of a field and tags of its type**: the schemas for both places are equal up to the order
    of members exactly if the type does not allow null or no tag is displaced, and then in that
    order as well; the rules are the same in any case. -/
theorem alike_placement_iff (s : Schema) (f : Field) (tags : Tags) :
    (Json.Alike ((f.tagsOnType tags).schemaOf s) ((f.tagsOnField tags).schemaOf s) ↔
      (f.ty.nullable = true → ∀ tag ∈ tags, f.ty.displaces tag.1 tag.2 = false)) ∧
    (Json.Alike ((f.tagsOnType tags).schemaOf s) ((f.tagsOnField tags).schemaOf s) →
      (f.tagsOnType tags).schemaOf s = (f.tagsOnField tags).schemaOf s) ∧
    ∀ (b : BeanDef) (registry : Registry) (tree : RuleTree),
      RuleTree.ofField ⟨s, b, f.tagsOnType tags⟩ registry = .ok tree ↔
        RuleTree.ofField ⟨s, b, f.tagsOnField tags⟩ registry = .ok tree := by
  obtain ⟨hiff, heq⟩ := alike_iff s f tags
  exact ⟨hiff, fun h => heq (hiff.1 h), fun _ _ _ => RuleTree.ofField_placement f tags⟩

/-- A count that may be absent. -/
def count : Field := ⟨"count", none, [], .scalar ⟨true, []⟩ (.integer .int), [], none⟩

/-- The same count twice, with a list of its values on the type and on the field. -/
def counts : Descriptor where
  enums := []
  beans := [
    ⟨"Listed", none, none, none, [⟨"count", "int?#set=1,2", none, [], [], none⟩]⟩,
    ⟨"Tagged", none, none, none, [⟨"count", "int?", none, [], [("set", "1,2")], none⟩]⟩]
  tables := []

def countsSchema : Schema :=
  let listed := count.tagsOnType [("set", "1,2")]
  let tagged := count.tagsOnField [("set", "1,2")]
  { beans := [
      ⟨"Listed", none, none, [listed], none, [listed], [], [0], [0]⟩,
      ⟨"Tagged", none, none, [tagged], none, [tagged], [], [1], [1]⟩]
    enums := []
    tables := []
    names := [("Listed", .bean 0), ("Tagged", .bean 1)] }

/-- The list on the type has null among its values, the list on the field has not. -/
theorem not_alike_counts : counts.build = .ok countsSchema ∧
    (countsSchema.bean 0).fields = [count.tagsOnType [("set", "1,2")]] ∧
    (countsSchema.bean 1).fields = [count.tagsOnField [("set", "1,2")]] ∧
    ¬ Json.Alike ((count.tagsOnType [("set", "1,2")]).schemaOf countsSchema)
      ((count.tagsOnField [("set", "1,2")]).schemaOf countsSchema) := by
  refine ⟨by cbv, rfl, rfl, fun h => ?_⟩
  have hfree := (alike_iff _ count _).1.1 h rfl ("set", "1,2") (by decide)
  revert hfree
  decide

end GameConfig
