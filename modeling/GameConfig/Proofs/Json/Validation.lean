import GameConfig.Json.Basic
import GameConfig.Text.Cut
import Mathlib.Data.List.Basic

/-
  When a JSON value is accepted by a JSON Schema (draft-07).

  A schema is `true`, `false` or an object, each member of which is a keyword
  with its argument.  A keyword makes a `Demand` on a value: a plain condition, or
  one on how schemas inside the schema judge the value or parts of it.  A schema
  accepts what meets all demands; members that are no keywords make none, and a
  reference takes the place of the schema that it stands in.

  References may be circular, so `check` judges with a bound on the depth and may
  give no verdict.  More depth never changes one (`check_mono`), so a value is
  accepted, or rejected, if it is at some depth (`Accepts`, `Rejects`), never both.

  * `accepts_object`, `rejects_object`: an object by the demands of its members;
  * `accepts_ref`, `rejects_ref`: a reference judges like its target;
  * `meets_all`, `meets_any`, …: demands by how the parts are judged.

  The keywords are those for types, numbers, texts, arrays, objects and for
  combining schemas, with references to definitions of the document.  The other
  keywords that demand something are known as such and lead to no verdict.
-/

namespace GameConfig

/-! ## Values -/

namespace Json

/-- A number as a numerator and a denominator. -/
def Number.fraction : Number → Int × Nat
  | .int i => (i, 1)
  | .double x =>
    let m := x.magnitude
    (if x.isNegative then -(m.num : Int) else m.num, m.den)

def Number.le (a b : Number) : Bool := a.fraction.1 * b.fraction.2 ≤ b.fraction.1 * a.fraction.2

def Number.lt (a b : Number) : Bool := a.fraction.1 * b.fraction.2 < b.fraction.1 * a.fraction.2

def Number.isWhole (a : Number) : Bool := a.fraction.1 % a.fraction.2 == 0

mutual

/-- The values are equal: numbers by value, objects without regard to order. -/
def alike : Json → Json → Bool
  | null, null => true
  | bool a, bool b => a == b
  | number a, number b => a.le b && b.le a
  | string a, string b => a == b
  | array as, array bs => alikeItems as bs
  | object as, object bs => as.length == bs.length && alikeMembers as bs
  | _, _ => false

def alikeItems : List Json → List Json → Bool
  | [], [] => true
  | a :: as, b :: bs => alike a b && alikeItems as bs
  | _, _ => false

/-- Every member on the left is found on the right, with an equal value. -/
def alikeMembers : List (String × Json) → List (String × Json) → Bool
  | [], _ => true
  | (k, a) :: as, bs =>
    (match Assoc.find? k bs with
      | some b => alike a b
      | none => false) && alikeMembers as bs

end

/-- No two items are equal. -/
def distinct : List Json → Bool
  | [] => true
  | x :: xs => !xs.any (alike x) && distinct xs

/-- The value is of the type with this name. -/
def hasType (v : Json) (name : String) : Bool :=
  match v with
  | null => name == "null"
  | bool _ => name == "boolean"
  | number n => name == "number" || name == "integer" && n.isWhole
  | string _ => name == "string"
  | array _ => name == "array"
  | object _ => name == "object"

/-- A list of texts. -/
def strings? : Json → Option (List String)
  | array xs => xs.mapM string?
  | _ => none

end Json

/-! ## Demands -/

/-- What a keyword demands of a value; parts are schemas with the values that they judge. -/
inductive Demand where
  | plain (met : Bool)
  | all (parts : List (Json × Json))
  | any (parts : List (Json × Json))
  /-- Exactly one of the schemas accepts. -/
  | one (parts : List (Json × Json))
  /-- One schema decides which of two others has to accept. -/
  | ifThen (value condition consequent alternative : Json)

/-- No demand. -/
def Demand.nothing : Demand := .all []

namespace Keyword

/-- The names of types that a value may be of: one or several. -/
def type (v arg : Json) : Option Demand :=
  match arg with
  | .string t => some (.plain (v.hasType t))
  | arg => arg.strings?.map fun ts => .plain (ts.any v.hasType)

/-- A bound on numbers. -/
def bound (ok : Json.Number → Json.Number → Bool) (v arg : Json) : Option Demand :=
  match arg with
  | .number b =>
    some <| .plain <| match v with
      | .number n => ok b n
      | _ => true
  | _ => none

/-- A bound on sizes, for values that have the size. -/
def size (ok : Nat → Nat → Bool) (size? : Option Nat) (arg : Json) : Option Demand :=
  match arg with
  | .number (.int i) => if i < 0 then none else some (.plain (size?.all (ok i.toNat)))
  | _ => none

/-- The schema of all items, or the schemas of the first ones. -/
def items (v arg : Json) : Demand :=
  match v, arg with
  | .array xs, .array schemas => .all (schemas.zip xs)
  | .array xs, schema => .all (xs.map fun x => (schema, x))
  | _, _ => .nothing

/-- The schemas of members by key. -/
def properties (v : Json) (schemas : Assoc Json) : Demand :=
  match v with
  | .object ms => .all (ms.filterMap fun m => (Assoc.find? m.1 schemas).map fun o => (o, m.2))
  | _ => .nothing

/-- The schema of the members that `properties` has no schema for. -/
def additional (ms : Assoc Json) (v schema : Json) : Demand :=
  let known (key : String) : Bool :=
    match Assoc.find? "properties" ms with
    | some (.object schemas) => Assoc.has key schemas
    | _ => false
  match v with
  | .object vs => .all ((vs.filter fun m => !known m.1).map fun m => (schema, m.2))
  | _ => .nothing

/-- The keys that have to be there. -/
def required (v : Json) (keys : List String) : Demand :=
  match v with
  | .object ms => .plain (keys.all fun k => Assoc.has k ms)
  | _ => .nothing

/-- The schema of the keys. -/
def propertyNames (v schema : Json) : Demand :=
  match v with
  | .object ms => .all (ms.map fun m => (schema, .string m.1))
  | _ => .nothing

/-- A condition, with the schemas that it chooses among. -/
def choice (ms : Assoc Json) (v condition : Json) : Demand :=
  .ifThen v condition ((Assoc.find? "then" ms).getD (.bool true))
    ((Assoc.find? "else" ms).getD (.bool true))

/-- Several schemas for one value. -/
def several (combine : List (Json × Json) → Demand) (v arg : Json) : Option Demand :=
  arg.array?.map fun schemas => combine (schemas.map fun o => (o, v))

/-- Keywords that demand something else. -/
def others : List String :=
  ["not", "multipleOf", "contains", "additionalItems", "patternProperties", "dependencies"]

end Keyword

/-! ## Judging -/

/-- What judging depends on: the document that references point into and which texts have a match
    of which pattern. -/
structure Validator where
  document : Json
  search : String → String → Bool

namespace Validator

open Keyword

/-- The demand of one member of a schema: `key` is the keyword and `arg` its argument. -/
def demand? (j : Validator) (ms : Assoc Json) (v : Json) (key : String) (arg : Json) :
    Option Demand :=
  match key with
  | "type" => type v arg
  | "enum" => arg.array?.map fun xs => .plain (xs.any v.alike)
  | "const" => some (.plain (v.alike arg))
  | "minimum" => bound (fun b n => b.le n) v arg
  | "maximum" => bound (fun b n => n.le b) v arg
  | "exclusiveMinimum" => bound (fun b n => b.lt n) v arg
  | "exclusiveMaximum" => bound (fun b n => n.lt b) v arg
  | "minLength" => size (fun b n => b ≤ n) (v.string?.map String.length) arg
  | "maxLength" => size (fun b n => n ≤ b) (v.string?.map String.length) arg
  | "minItems" => size (fun b n => b ≤ n) (v.array?.map List.length) arg
  | "maxItems" => size (fun b n => n ≤ b) (v.array?.map List.length) arg
  | "minProperties" => size (fun b n => b ≤ n) (v.object?.map List.length) arg
  | "maxProperties" => size (fun b n => n ≤ b) (v.object?.map List.length) arg
  | "pattern" => arg.string?.map fun p => .plain (v.string?.all (j.search p))
  | "items" => some (items v arg)
  | "uniqueItems" => arg.bool?.map fun unique => .plain (!unique || v.array?.all Json.distinct)
  | "properties" => arg.object?.map (properties v)
  | "additionalProperties" => some (additional ms v arg)
  | "required" => arg.strings?.map (required v)
  | "propertyNames" => some (propertyNames v arg)
  | "allOf" => several .all v arg
  | "anyOf" => several .any v arg
  | "oneOf" => several .one v arg
  | "if" => some (choice ms v arg)
  | key => if others.contains key then none else some .nothing

/-- The definition that a reference points to; names that would have to be escaped are not
    resolved. -/
def target? (j : Validator) (ref : String) : Option Json :=
  match Text.dropFront? "#/definitions/".toList ref.toList with
  | some name =>
    if name.any fun c => ['/', '~', '%'].contains c then none
    else (j.document.member? "definitions").bind (Json.member? (String.ofList name))
  | none => none

end Validator

/-- Verdicts, none standing for an open one. -/
abbrev Verdict := Option Bool

namespace Verdict

/-- All accept: one rejection decides. -/
def every (rs : List Verdict) : Verdict :=
  if rs.contains (some false) then some false else if rs.contains none then none else some true

/-- One accepts at least. -/
def any (rs : List Verdict) : Verdict :=
  if rs.contains (some true) then some true else if rs.contains none then none else some false

/-- One accepts and the others reject. -/
def one (rs : List Verdict) : Verdict :=
  if rs.contains none then none else some (rs.count (some true) == 1)

end Verdict

/-- Whether a demand is met, where `judge` judges the parts. -/
def Demand.verdict (judge : Json → Json → Verdict) : Demand → Verdict
  | plain met => some met
  | all parts => .every (parts.map fun p => judge p.1 p.2)
  | any parts => .any (parts.map fun p => judge p.1 p.2)
  | one parts => .one (parts.map fun p => judge p.1 p.2)
  | ifThen v condition consequent alternative =>
    match judge condition v with
    | some true => judge consequent v
    | some false => judge alternative v
    | none => none

namespace Validator

/-- How a schema judges a value, if that shows within a depth. -/
def check (j : Validator) : Nat → Json → Json → Verdict
  | 0, _, _ => none
  | depth + 1, schema, v =>
    match schema with
    | .bool b => some b
    | .object ms =>
      match Assoc.find? "$ref" ms with
      | some ref =>
        match ref.string?.bind j.target? with
        | some target => check j depth target v
        | none => none
      | none =>
        .every (ms.map fun m =>
          (j.demand? ms v m.1 m.2).bind fun demand =>
            demand.verdict fun schema v => check j depth schema v)
    | _ => none

end Validator

/-! ## More depth -/

namespace Verdict

/-- A verdict that is settled by a single part, and the other way only by all of them. -/
theorem settled_eq_some {rs : List Verdict} {b : Bool} :
    (if some b ∈ rs then some b else if none ∈ rs then none else some !b) = some b ↔
      some b ∈ rs := by
  split
  case isTrue h => simp [h]
  case isFalse h =>
    refine iff_of_false ?_ h
    split <;> simp

theorem settled_eq_some_not {rs : List Verdict} {b : Bool} :
    (if some b ∈ rs then some b else if none ∈ rs then none else some !b) = some !b ↔
      ∀ r ∈ rs, r = some !b := by
  constructor
  · intro h r hr
    split at h
    · simp at h
    split at h
    · cases h
    rename_i hsettled hnone
    rcases r with _ | r
    · exact absurd hr hnone
    · by_cases hb : r = b
      · exact absurd (hb ▸ hr) hsettled
      · rw [Bool.eq_not.2 hb]
  · intro h
    have hne : ∀ r, r ≠ some !b → r ∉ rs := fun r hr hmem => hr (h r hmem)
    rw [if_neg (hne _ (by simp)), if_neg (hne _ (by simp))]

theorem every_eq_true {rs : List Verdict} : every rs = some true ↔ ∀ r ∈ rs, r = some true := by
  unfold every
  simp only [List.contains_iff_mem]
  exact settled_eq_some_not (b := false)

theorem every_eq_false {rs : List Verdict} : every rs = some false ↔ some false ∈ rs := by
  unfold every
  simp only [List.contains_iff_mem]
  exact settled_eq_some (b := false)

theorem any_eq_true {rs : List Verdict} : any rs = some true ↔ some true ∈ rs := by
  unfold any
  simp only [List.contains_iff_mem]
  exact settled_eq_some (b := true)

theorem any_eq_false {rs : List Verdict} : any rs = some false ↔ ∀ r ∈ rs, r = some false := by
  unfold any
  simp only [List.contains_iff_mem]
  exact settled_eq_some_not (b := true)

/-- What keeps all verdicts on the parts keeps the one on the whole. -/
theorem map_mono {α : Type} {combine : List Verdict → Verdict} {f g : α → Verdict}
    (hcombine : combine = every ∨ combine = any ∨ combine = one)
    (h : ∀ a b, f a = some b → g a = some b) {as : List α} {b : Bool}
    (hf : combine (as.map f) = some b) : combine (as.map g) = some b := by
  rcases hcombine with rfl | rfl | rfl
  · cases b with
    | true =>
      simp only [every_eq_true, List.forall_mem_map] at hf ⊢
      exact fun a ha => h a _ (hf a ha)
    | false =>
      simp only [every_eq_false, List.mem_map] at hf ⊢
      obtain ⟨a, ha, hfa⟩ := hf
      exact ⟨a, ha, h a _ hfa⟩
  · cases b with
    | true =>
      simp only [any_eq_true, List.mem_map] at hf ⊢
      obtain ⟨a, ha, hfa⟩ := hf
      exact ⟨a, ha, h a _ hfa⟩
    | false =>
      simp only [any_eq_false, List.forall_mem_map] at hf ⊢
      exact fun a ha => h a _ (hf a ha)
  · -- no verdict is open, so none changes
    have hall : as.map g = as.map f := by
      refine List.map_congr_left fun a ha => ?_
      cases hfa : f a with
      | none =>
        have hopen : (as.map f).contains none = true := by
          rw [List.contains_iff_mem, List.mem_map]
          exact ⟨a, ha, hfa⟩
        rw [one, if_pos hopen] at hf
        cases hf
      | some b => exact h a b hfa
    rwa [hall]

end Verdict

theorem Demand.verdict_mono {f g : Json → Json → Verdict}
    (h : ∀ schema v b, f schema v = some b → g schema v = some b) {x : Demand} {b : Bool}
    (hf : x.verdict f = some b) : x.verdict g = some b := by
  have hpart : ∀ (p : Json × Json) b, f p.1 p.2 = some b → g p.1 p.2 = some b :=
    fun p b => h p.1 p.2 b
  cases x with
  | plain met => exact hf
  | all parts => exact Verdict.map_mono (.inl rfl) hpart hf
  | any parts => exact Verdict.map_mono (.inr (.inl rfl)) hpart hf
  | one parts => exact Verdict.map_mono (.inr (.inr rfl)) hpart hf
  | ifThen v condition consequent alternative =>
    rw [verdict] at hf ⊢
    cases hc : f condition v with
    | none => rw [hc] at hf; cases hf
    | some accepted =>
      rw [hc] at hf
      rw [h _ _ _ hc]
      cases accepted with
      | true => exact h _ _ _ hf
      | false => exact h _ _ _ hf

namespace Validator

variable {j : Validator} {schema v : Json} {ms : List (String × Json)}

theorem check_succ {n : Nat} {b : Bool} (h : j.check n schema v = some b) :
    j.check (n + 1) schema v = some b := by
  induction n generalizing schema v b with
  | zero => cases h
  | succ n ih =>
    cases schema with
    | bool => exact h
    | object ms =>
      rw [check] at h ⊢
      cases hr : Assoc.find? "$ref" ms with
      | some ref =>
        rw [hr] at h
        dsimp only at h ⊢
        cases ht : ref.string?.bind j.target? with
        | none => rw [ht] at h; cases h
        | some target =>
          rw [ht] at h
          exact ih h
      | none =>
        rw [hr] at h
        refine Verdict.map_mono (.inl rfl) (fun m b hm => ?_) h
        obtain ⟨x, hx, hverdict⟩ := Option.bind_eq_some_iff.1 hm
        exact Option.bind_eq_some_iff.2 ⟨x, hx, Demand.verdict_mono (fun _ _ _ => ih) hverdict⟩
    | _ => cases h

/-- **More depth keeps a verdict.** -/
theorem check_mono {n m : Nat} (hnm : n ≤ m) {b : Bool} (h : j.check n schema v = some b) :
    j.check m schema v = some b := by
  induction hnm with
  | refl => exact h
  | step _ ih => exact check_succ ih

/-! ## Accepting and rejecting -/

/-- The schema accepts the value. -/
def Accepts (j : Validator) (schema v : Json) : Prop := ∃ n, j.check n schema v = some true

/-- The schema rejects the value. -/
def Rejects (j : Validator) (schema v : Json) : Prop := ∃ n, j.check n schema v = some false

/-- The demand is met. -/
def Meets (j : Validator) (x : Demand) : Prop := ∃ n, x.verdict (j.check n) = some true

/-- The demand is not met. -/
def Fails (j : Validator) (x : Demand) : Prop := ∃ n, x.verdict (j.check n) = some false

/-- What holds of each of some things from some depth on holds of all of them at one depth. -/
theorem exists_depth {α : Type} {p : Nat → α → Prop} (mono : ∀ n m a, n ≤ m → p n a → p m a)
    {as : List α} : (∃ n, ∀ a ∈ as, p n a) ↔ ∀ a ∈ as, ∃ n, p n a := by
  constructor
  · rintro ⟨n, h⟩ a ha
    exact ⟨n, h a ha⟩
  · intro h
    induction as with
    | nil => exact ⟨0, by simp⟩
    | cons a as ih =>
      obtain ⟨n, hn⟩ := h a (List.mem_cons_self ..)
      obtain ⟨m, hm⟩ := ih fun a' ha' => h a' (List.mem_cons_of_mem _ ha')
      refine ⟨max n m, List.forall_mem_cons.2 ⟨mono _ _ _ (Nat.le_max_left n m) hn, ?_⟩⟩
      exact fun a' ha' => mono _ _ _ (Nat.le_max_right n m) (hm a' ha')

theorem verdict_check_mono {n m : Nat} (hnm : n ≤ m) {x : Demand} {b : Bool}
    (h : x.verdict (j.check n) = some b) : x.verdict (j.check m) = some b :=
  Demand.verdict_mono (fun _ _ _ => check_mono hnm) h

@[simp]
theorem accepts_bool {b : Bool} : j.Accepts (.bool b) v ↔ b = true := by
  constructor
  · rintro ⟨_ | n, h⟩
    · cases h
    · exact Option.some.inj h
  · rintro rfl
    exact ⟨1, rfl⟩

/-- The value meets the demands of some members of a schema, `ms` being all of them. -/
def MeetsAll (j : Validator) (ms rest : List (String × Json)) (v : Json) : Prop :=
  ∀ m ∈ rest, ∃ x, j.demand? ms v m.1 m.2 = some x ∧ j.Meets x

@[simp]
theorem meetsAll_nil : j.MeetsAll ms [] v := by
  simp [MeetsAll]

@[simp]
theorem meetsAll_cons {rest : List (String × Json)} {key : String} {arg : Json} :
    j.MeetsAll ms ((key, arg) :: rest) v ↔
      (∃ x, j.demand? ms v key arg = some x ∧ j.Meets x) ∧ j.MeetsAll ms rest v := by
  simp [MeetsAll]

@[simp]
theorem meetsAll_append {rest rest' : List (String × Json)} :
    j.MeetsAll ms (rest ++ rest') v ↔ j.MeetsAll ms rest v ∧ j.MeetsAll ms rest' v :=
  List.forall_mem_append

/-- Of the members beside it only some matter to a keyword. -/
theorem demand?_congr {ms' : Assoc Json}
    (h : ∀ k ∈ ["properties", "then", "else"], Assoc.find? k ms = Assoc.find? k ms')
    (key : String) (arg : Json) : j.demand? ms v key arg = j.demand? ms' v key arg := by
  simp only [List.mem_cons, List.not_mem_nil, or_false, forall_eq_or_imp, forall_eq] at h
  obtain ⟨hproperties, hthen, helse⟩ := h
  unfold demand? Keyword.additional Keyword.choice
  rw [hproperties, hthen, helse]

/-- **An object accepts what meets the demands of all its members.** -/
theorem accepts_object (hr : Assoc.find? "$ref" ms = none) :
    j.Accepts (.object ms) v ↔ j.MeetsAll ms ms v := by
  have hcheck : ∀ n, j.check (n + 1) (.object ms) v = some true ↔
      ∀ m ∈ ms, ∃ x, j.demand? ms v m.1 m.2 = some x ∧ x.verdict (j.check n) = some true := by
    intro n
    rw [check]
    simp only [hr, Verdict.every_eq_true, List.forall_mem_map, Option.bind_eq_some_iff]
  have hdepth : j.Accepts (.object ms) v ↔ ∃ n, j.check (n + 1) (.object ms) v = some true :=
    ⟨fun ⟨n, h⟩ => ⟨n, check_succ h⟩, fun ⟨n, h⟩ => ⟨n + 1, h⟩⟩
  simp only [hdepth, hcheck, MeetsAll, Meets]
  rw [exists_depth]
  · exact forall₂_congr fun m _ =>
      ⟨fun ⟨n, x, hx, h⟩ => ⟨x, hx, n, h⟩, fun ⟨x, hx, n, h⟩ => ⟨n, x, hx, h⟩⟩
  · rintro n m _ hnm ⟨x, hx, h⟩
    exact ⟨x, hx, verdict_check_mono hnm h⟩

/-- **It rejects what fails one of them.** -/
theorem rejects_object (hr : Assoc.find? "$ref" ms = none) :
    j.Rejects (.object ms) v ↔
      ∃ m ∈ ms, ∃ x, j.demand? ms v m.1 m.2 = some x ∧ j.Fails x := by
  have hcheck : ∀ n, j.check (n + 1) (.object ms) v = some false ↔
      ∃ m ∈ ms, ∃ x, j.demand? ms v m.1 m.2 = some x ∧ x.verdict (j.check n) = some false := by
    intro n
    rw [check]
    simp only [hr, Verdict.every_eq_false, List.mem_map, Option.bind_eq_some_iff]
  constructor
  · rintro ⟨n, h⟩
    obtain ⟨m, hm, x, hx, h⟩ := (hcheck n).1 (check_succ h)
    exact ⟨m, hm, x, hx, n, h⟩
  · rintro ⟨m, hm, x, hx, n, h⟩
    exact ⟨n + 1, (hcheck n).2 ⟨m, hm, x, hx, h⟩⟩

/-- A reference judges like its target. -/
theorem check_ref {ref : String} {target : Json} (hr : Assoc.find? "$ref" ms = some (.string ref))
    (ht : j.target? ref = some target) (n : Nat) :
    j.check (n + 1) (.object ms) v = j.check n target v := by
  rw [check]
  simp only [hr, Json.string?, Option.bind_some, ht]

theorem accepts_ref {ref : String} {target : Json}
    (hr : Assoc.find? "$ref" ms = some (.string ref)) (ht : j.target? ref = some target) :
    j.Accepts (.object ms) v ↔ j.Accepts target v := by
  constructor
  · rintro ⟨n, h⟩
    exact ⟨n, by rw [← check_ref hr ht]; exact check_succ h⟩
  · rintro ⟨n, h⟩
    exact ⟨n + 1, by rwa [check_ref hr ht]⟩

theorem rejects_ref {ref : String} {target : Json}
    (hr : Assoc.find? "$ref" ms = some (.string ref)) (ht : j.target? ref = some target) :
    j.Rejects (.object ms) v ↔ j.Rejects target v := by
  constructor
  · rintro ⟨n, h⟩
    exact ⟨n, by rw [← check_ref hr ht]; exact check_succ h⟩
  · rintro ⟨n, h⟩
    exact ⟨n + 1, by rwa [check_ref hr ht]⟩

/-! ## Meeting and failing -/

variable {parts : List (Json × Json)}

@[simp]
theorem meets_plain {met : Bool} : j.Meets (.plain met) ↔ met = true := by
  simp [Meets, Demand.verdict]

@[simp]
theorem fails_plain {met : Bool} : j.Fails (.plain met) ↔ met = false := by
  simp [Fails, Demand.verdict]

@[simp]
theorem meets_all : j.Meets (.all parts) ↔ ∀ p ∈ parts, j.Accepts p.1 p.2 := by
  simp only [Meets, Demand.verdict, Verdict.every_eq_true, List.forall_mem_map]
  exact exists_depth (p := fun n (q : Json × Json) => j.check n q.1 q.2 = some true)
    fun _ _ _ hnm => check_mono hnm

@[simp]
theorem fails_all : j.Fails (.all parts) ↔ ∃ p ∈ parts, j.Rejects p.1 p.2 := by
  simp only [Fails, Demand.verdict, Verdict.every_eq_false, List.mem_map]
  exact ⟨fun ⟨n, p, hp, h⟩ => ⟨p, hp, n, h⟩, fun ⟨p, hp, n, h⟩ => ⟨n, p, hp, h⟩⟩

@[simp]
theorem meets_nothing : j.Meets .nothing := by
  simp [Demand.nothing]

@[simp]
theorem meets_any : j.Meets (.any parts) ↔ ∃ p ∈ parts, j.Accepts p.1 p.2 := by
  simp only [Meets, Demand.verdict, Verdict.any_eq_true, List.mem_map]
  exact ⟨fun ⟨n, p, hp, h⟩ => ⟨p, hp, n, h⟩, fun ⟨p, hp, n, h⟩ => ⟨n, p, hp, h⟩⟩

/-- Of two schemas exactly one accepts. -/
theorem meets_one {p q : Json × Json} (hp : j.Accepts p.1 p.2) (hq : j.Rejects q.1 q.2) :
    j.Meets (.one [p, q]) ∧ j.Meets (.one [q, p]) := by
  obtain ⟨n, hn⟩ := hp
  obtain ⟨m, hm⟩ := hq
  have hp' := check_mono (Nat.le_max_left n m) hn
  have hq' := check_mono (Nat.le_max_right n m) hm
  constructor <;>
    exact ⟨max n m, by simp [Demand.verdict, Verdict.one, hp', hq']⟩

/-- Where one of two schemas rejects, exactly one accepts if the other does. -/
theorem meets_one_iff {p q : Json × Json} (hq : j.Rejects q.1 q.2) :
    j.Meets (.one [p, q]) ↔ j.Accepts p.1 p.2 := by
  refine ⟨fun ⟨n, hn⟩ => ?_, fun hp => (meets_one hp hq).1⟩
  obtain ⟨m, hm⟩ := hq
  have hone := verdict_check_mono (Nat.le_max_left n m) hn
  have hq' := check_mono (Nat.le_max_right n m) hm
  refine ⟨max n m, ?_⟩
  simp only [Demand.verdict, List.map_cons, List.map_nil, hq'] at hone
  cases hp : j.check (max n m) p.1 p.2 with
  | none => simp [hp, Verdict.one] at hone
  | some b =>
    cases b with
    | true => rfl
    | false => simp [hp, Verdict.one] at hone

theorem meets_then {condition consequent alternative : Json} (hc : j.Accepts condition v)
    (h : j.Accepts consequent v) : j.Meets (.ifThen v condition consequent alternative) := by
  obtain ⟨n, hn⟩ := hc
  obtain ⟨m, hm⟩ := h
  refine ⟨max n m, ?_⟩
  rw [Demand.verdict, check_mono (Nat.le_max_left n m) hn]
  exact check_mono (Nat.le_max_right n m) hm

theorem meets_else {condition consequent alternative : Json} (hc : j.Rejects condition v)
    (h : j.Accepts alternative v) : j.Meets (.ifThen v condition consequent alternative) := by
  obtain ⟨n, hn⟩ := hc
  obtain ⟨m, hm⟩ := h
  refine ⟨max n m, ?_⟩
  rw [Demand.verdict, check_mono (Nat.le_max_left n m) hn]
  exact check_mono (Nat.le_max_right n m) hm

end Validator

end GameConfig
