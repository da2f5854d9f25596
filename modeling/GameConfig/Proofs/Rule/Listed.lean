import GameConfig.Proofs.Load.Single
import GameConfig.Proofs.Rule.Compile

/-
  Values from a list.

  A rule about lists of values holds what the items of its argument stand for,
  rounded and resolved as the type asks for.  Loading does the same to raw data:
  an item is an integer, a number or a text there, and loads as some value of the
  type.  So a value is in the list if and only if an item loads as an equal one
  (`RuleKind.faults_set_iff`).
-/

namespace GameConfig

/-! ## Items as raw data -/

/-- What an item of a list is in raw data: the integer or the number that it spells, or itself. -/
def Ty.rawItem? (ty : Ty) (item : String) : Option Json :=
  match ty with
  | .scalar _ (.integer _) => (Numeral.readInt64? item.toList).map .ofInt
  | .scalar _ .float | .scalar _ .double => (Numeral.readDouble? item.toList).map .ofDouble
  | .scalar _ .string | .named _ (.enum _) => some (.string item)
  | _ => none

/-- The values of the type are floating-point numbers. -/
def Ty.isReal : Ty → Bool
  | .scalar _ .float | .scalar _ .double => true
  | _ => false

/-- An item of a list, given as raw data, loads as this value. -/
def Loader.ItemLoads (l : Loader) (ty : Ty) (item : String) (d : Datum) : Prop :=
  ∃ raw, ty.rawItem? item = some raw ∧ l.load ty raw = .ok d

namespace Rule

/-- All items are read, each as one value. -/
theorem readItems_eq_ok {α : Type} {read : String → Option α} {items : List String} {as : List α} :
    readItems read items = .ok as ↔ List.Forall₂ (fun item a => read item = some a) items as := by
  induction items generalizing as with
  | nil => cases as <;> simp [readItems]
  | cons item items ih =>
    rw [List.forall₂_cons_left_iff, readItems]
    cases hread : read item with
    | none => simp
    | some a =>
      dsimp only
      cases hrest : readItems read items with
      | error bad =>
        refine iff_of_false (by simp) ?_
        rintro ⟨_, rest, -, h, -⟩
        cases hrest.symm.trans (ih.2 h)
      | ok rest =>
        constructor
        · intro h
          cases h
          exact ⟨a, rest, rfl, ih.1 hrest, rfl⟩
        · rintro ⟨a', rest', ha, h, rfl⟩
          cases ha
          cases hrest.symm.trans (ih.2 h)
          rfl

/-- The values that were read are those of the items. -/
theorem mem_of_readItems {α : Type} {read : String → Option α} {items : List String} {as : List α}
    (h : readItems read items = .ok as) {a : α} :
    a ∈ as ↔ ∃ item ∈ items, read item = some a := by
  have hall := readItems_eq_ok.1 h
  constructor
  · exact exists_of_mem_right hall
  · rintro ⟨item, hitem, hread⟩
    obtain ⟨a', ha', hread'⟩ := exists_of_mem_right hall.flip hitem
    cases hread.symm.trans hread'
    exact ha'

theorem exists_mem_of_readItems {α : Type} {read : String → Option α} {items : List String}
    {as : List α} (h : readItems read items = .ok as) {p : α → Prop} :
    (∃ a ∈ as, p a) ↔ ∃ item ∈ items, ∃ a, read item = some a ∧ p a := by
  constructor
  · rintro ⟨a, ha, hp⟩
    obtain ⟨item, hitem, hread⟩ := (mem_of_readItems h).1 ha
    exact ⟨item, hitem, a, hread, hp⟩
  · rintro ⟨item, hitem, a, hread, hp⟩
    exact ⟨a, (mem_of_readItems h).2 ⟨item, hitem, hread⟩, hp⟩

end Rule

/-! ## One kind of type after the other -/

/-- A number is the same as one that is a number if they are equal by value. -/
theorem Binary.eqv_iff_same {lay : Layout} {x y : Binary lay} (hy : y.isFinite = true) :
    x.eqv y = true ↔ y.same x = true := by
  cases y with
  | nan => cases hy
  | ranked negative rank =>
    cases x with
    | nan => simp [eqv, same, key]
    | ranked negative' rank' =>
      simp only [eqv, same, key, beq_iff_eq, Option.some.injEq]
      exact eq_comm

namespace Loader

variable {l : Loader} {m : Mark} {item : String} {d : Datum}

theorem itemLoads_integer_iff {w : IntWidth} : l.ItemLoads (.scalar m (.integer w)) item d ↔
    ∃ i, Numeral.readInt64? item.toList = some i ∧ w.holds i = true ∧ d = .integer w i := by
  have hfits : ∀ i, Numeral.readInt64? item.toList = some i → (Json.ofInt i).int64? = some i := by
    intro i hi
    unfold Numeral.readInt64? at hi
    split at hi
    · split at hi
      · rename_i hfits
        cases hi
        exact if_pos hfits
      · cases hi
    · cases hi
  unfold ItemLoads Ty.rawItem?
  simp only [Option.map_eq_some_iff, load_scalar, scalar, integer_eq_ok]
  constructor
  · rintro ⟨_, ⟨i, hi, rfl⟩, k, hk, hw, rfl⟩
    cases (hfits i hi).symm.trans hk
    exact ⟨i, hi, hw, rfl⟩
  · rintro ⟨i, hi, hw, rfl⟩
    exact ⟨_, ⟨i, hi, rfl⟩, i, hfits i hi, hw, rfl⟩

theorem itemLoads_float_iff : l.ItemLoads (.scalar m .float) item d ↔
    ∃ x : Double, Numeral.readDouble? item.toList = some x ∧
      (x.isFinite = true ∧ x.abs.le Single.greatest.widen = true) ∧ d = .float x.narrow := by
  unfold ItemLoads Ty.rawItem?
  simp only [Option.map_eq_some_iff, load_scalar, scalar, single_eq_ok]
  constructor
  · rintro ⟨_, ⟨x, hx, rfl⟩, y, hy, hin, rfl⟩
    unfold Json.ofDouble at hy
    split at hy
    · cases hy
      exact ⟨x, hx, hin, rfl⟩
    · cases hy
  · rintro ⟨x, hx, hin, rfl⟩
    refine ⟨_, ⟨x, hx, rfl⟩, x, ?_, hin, rfl⟩
    rw [Json.ofDouble, if_pos hin.1]
    rfl

theorem itemLoads_double_iff : l.ItemLoads (.scalar m .double) item d ↔
    ∃ x : Double, Numeral.readDouble? item.toList = some x ∧ x.isFinite = true ∧ d = .double x := by
  unfold ItemLoads Ty.rawItem?
  simp only [Option.map_eq_some_iff, load_scalar, double_eq_ok]
  constructor
  · rintro ⟨_, ⟨x, hx, rfl⟩, n, hn, rfl⟩
    unfold Json.ofDouble at hn
    split at hn
    · rename_i hfin
      cases hn
      exact ⟨x, hx, hfin, rfl⟩
    · cases hn
  · rintro ⟨x, hx, hfin, rfl⟩
    exact ⟨_, ⟨x, hx, rfl⟩, .double x, if_pos hfin, rfl⟩

theorem itemLoads_string_iff : l.ItemLoads (.scalar m .string) item d ↔ d = .string item := by
  simp [ItemLoads, Ty.rawItem?, load_scalar, string_eq_ok]

theorem itemLoads_enum_iff {id : Nat} : l.ItemLoads (.named m (.enum id)) item d ↔
    ∃ i, (l.schema.enum id).findItem? item = some i ∧ d = .enum id i := by
  simp [ItemLoads, Ty.rawItem?, load_enum, item_eq_ok]

end Loader

namespace Allowed

variable {l : Loader} {m : Mark} {items : List String} {v : Datum}

theorem admits_integers_iff {w : IntWidth} {xs : List ℤ}
    (hxs : Rule.readItems (fun i => Numeral.readInt64? i.toList) items = .ok xs) {i : ℤ}
    (hi : w.holds i = true) : (integers xs).admits (.integer w i) = true ↔
      ∃ item ∈ items, ∃ d, l.ItemLoads (.scalar m (.integer w)) item d ∧
        Datum.same d (.integer w i) = true := by
  have hadmits : (integers xs).admits (.integer w i) = xs.contains i := rfl
  rw [hadmits, List.contains_iff_mem, Rule.mem_of_readItems hxs]
  refine exists_congr fun item => and_congr_right fun _ => ?_
  simp only [Loader.itemLoads_integer_iff]
  constructor
  · intro hread
    exact ⟨_, ⟨i, hread, hi, rfl⟩, by simp [Datum.same]⟩
  · rintro ⟨_, ⟨k, hread, -, rfl⟩, hsame⟩
    obtain rfl : k = i := by simpa [Datum.same] using hsame
    exact hread

/-- Floating-point numbers that were read from items are equal by value to what the items load as. -/
theorem any_eqv_iff {lay : Layout} {ty : Ty} {read : String → Option (Binary lay)}
    {xs : List (Binary lay)} {value : Binary lay → Datum} {x : Binary lay}
    (hxs : Rule.readItems read items = .ok xs)
    (hall : ∀ item ∈ items, ∃ y, read item = some y ∧ y.isFinite = true ∧
      ∀ d, l.ItemLoads ty item d ↔ d = value y)
    (hsame : ∀ y, Datum.same (value y) (value x) = y.same x) : xs.any x.eqv = true ↔
      ∃ item ∈ items, ∃ d, l.ItemLoads ty item d ∧ d.same (value x) = true := by
  rw [List.any_eq_true, Rule.exists_mem_of_readItems hxs]
  refine exists_congr fun item => and_congr_right fun hitem => ?_
  obtain ⟨y, hy, hfin, hloads⟩ := hall item hitem
  simp only [hy, hloads, Option.some.injEq, exists_eq_left, exists_eq_left', hsame]
  exact Binary.eqv_iff_same hfin

theorem admits_singles_iff {xs : List Single}
    (hxs : Rule.readItems (fun i => (Numeral.readDouble? i.toList).map Binary.narrow) items =
      .ok xs) (hall : ∀ item ∈ items, ∃ d, l.ItemLoads (.scalar m .float) item d) {x : Single} :
    (singles xs).admits (.float x) = true ↔
      ∃ item ∈ items, ∃ d, l.ItemLoads (.scalar m .float) item d ∧
        Datum.same d (.float x) = true := by
  refine any_eqv_iff hxs ?_ fun y => by simp [Datum.same]
  intro item hitem
  obtain ⟨_, hd⟩ := hall item hitem
  obtain ⟨y, hy, hin, rfl⟩ := Loader.itemLoads_float_iff.1 hd
  exact ⟨y.narrow, by simp [hy], Binary.isFinite_narrow hin.1 hin.2,
    fun d => by simp [Loader.itemLoads_float_iff, hy, hin]⟩

theorem admits_doubles_iff {xs : List Double}
    (hxs : Rule.readItems (fun i => Numeral.readDouble? i.toList) items = .ok xs)
    (hall : ∀ item ∈ items, ∃ d, l.ItemLoads (.scalar m .double) item d) {x : Double} :
    (doubles xs).admits (.double x) = true ↔
      ∃ item ∈ items, ∃ d, l.ItemLoads (.scalar m .double) item d ∧
        Datum.same d (.double x) = true := by
  refine any_eqv_iff hxs ?_ fun y => by simp [Datum.same]
  intro item hitem
  obtain ⟨_, hd⟩ := hall item hitem
  obtain ⟨y, hy, hfin, rfl⟩ := Loader.itemLoads_double_iff.1 hd
  exact ⟨y, hy, hfin, fun d => by simp [Loader.itemLoads_double_iff, hy, hfin]⟩

theorem admits_texts_iff {text : String} : (texts items).admits (.string text) = true ↔
    ∃ item ∈ items, ∃ d, l.ItemLoads (.scalar m .string) item d ∧
      Datum.same d (.string text) = true := by
  have hadmits : (texts items).admits (.string text) = items.contains text := rfl
  rw [hadmits, List.contains_iff_mem]
  simp [Loader.itemLoads_string_iff, Datum.same]

theorem admits_items_iff {id : ℕ} {xs : List ℕ}
    (hxs : Rule.readItems (l.schema.enum id).findItem? items = .ok xs) {i : ℕ} :
    (Allowed.items id xs).admits (.enum id i) = true ↔
      ∃ item ∈ items, ∃ d, l.ItemLoads (.named m (.enum id)) item d ∧
        Datum.same d (.enum id i) = true := by
  have hadmits : (Allowed.items id xs).admits (.enum id i) = (id != id || xs.contains i) := rfl
  rw [hadmits, bne_self_eq_false, Bool.false_or, List.contains_iff_mem, Rule.mem_of_readItems hxs]
  refine exists_congr fun item => and_congr_right fun _ => ?_
  simp only [Loader.itemLoads_enum_iff]
  constructor
  · intro hread
    exact ⟨_, ⟨i, hread, rfl⟩, by simp [Datum.same]⟩
  · rintro ⟨_, ⟨k, hread, rfl⟩, hsame⟩
    obtain rfl : k = i := by simpa [Datum.same] using hsame
    exact hread

end Allowed

/-! ## The rule -/

/-- A list that is allowed for a type admits the values of it that an item loads as. -/
theorem Rule.admits_iff {l : Loader} {ty : Ty} {items : List String} {allowed : Allowed}
    (ha : Rule.allowed? l.schema items ty = some (.ok allowed))
    (hreal : ty.isReal = true → ∀ item ∈ items, ∃ d, l.ItemLoads ty item d) {raw : Json} {v : Datum}
    (hv : l.load ty raw = .ok v) : allowed.admits v = true ↔
      ∃ item ∈ items, ∃ d, l.ItemLoads ty item d ∧ d.same v = true := by
  have hread : ∀ {α : Type} {r : Except String (List α)} {f : List α → Allowed},
      some (r.map f) = some (.ok allowed) → ∃ xs, r = .ok xs ∧ f xs = allowed := by
    intro α r f h
    cases r with
    | error bad => cases h
    | ok xs => exact ⟨xs, rfl, Except.ok.inj (Option.some.inj h)⟩
  cases ty with
  | scalar m k =>
    rw [Loader.load_scalar] at hv
    cases k with
    | integer w =>
      obtain ⟨xs, hxs, rfl⟩ := hread ha
      obtain ⟨i, -, hi, rfl⟩ := Loader.integer_eq_ok.1 hv
      exact Allowed.admits_integers_iff hxs hi
    | float =>
      obtain ⟨xs, hxs, rfl⟩ := hread ha
      obtain ⟨x, -, -, rfl⟩ := Loader.single_eq_ok.1 hv
      exact Allowed.admits_singles_iff hxs (hreal rfl)
    | double =>
      obtain ⟨xs, hxs, rfl⟩ := hread ha
      obtain ⟨n, -, rfl⟩ := Loader.double_eq_ok.1 hv
      exact Allowed.admits_doubles_iff hxs (hreal rfl)
    | string =>
      cases ha
      obtain ⟨text, -, rfl⟩ := Loader.string_eq_ok.1 hv
      exact Allowed.admits_texts_iff
    | bool => cases ha
    | datetime => cases ha
  | named m ref =>
    cases ref with
    | bean id => cases ha
    | enum id =>
      rw [Loader.load_enum] at hv
      obtain ⟨xs, hxs, rfl⟩ := hread ha
      obtain ⟨word, i, -, -, rfl⟩ := Loader.item_eq_ok.1 hv
      exact Allowed.admits_items_iff hxs
  | seq m k e => cases ha
  | map m k v => cases ha

/-- **A value is in a list if and only if an item of it loads as an equal value.**  Items of lists of
    floating-point numbers have to be finite and in range: that is, to load. -/
theorem RuleKind.faults_set_iff {l : Loader} {b : BeanDef} {f : Field} {ty : Ty} {argument : String}
    {rule : Rule} (hc : RuleKind.set.compile ⟨l.schema, b, f⟩ ty argument = .ok rule)
    (hreal : ty.isReal = true → ∀ item ∈ Rule.listed argument, ∃ d, l.ItemLoads ty item d)
    {raw : Json} {v : Datum} (hv : l.load ty raw = .ok v) :
    rule.faults l.schema v = [] ↔
      ∃ item ∈ Rule.listed argument, ∃ d, l.ItemLoads ty item d ∧ d.same v = true := by
  obtain ⟨-, allowed, ha, rfl⟩ := Rule.compileSet_eq_ok.1 hc
  rw [← Rule.admits_iff ha hreal hv, Rule.faults]
  split
  · rename_i hadmits
    exact iff_of_true rfl hadmits
  · rename_i hadmits
    exact iff_of_false (List.cons_ne_nil _ _) hadmits

/-- One tenth is in a list as the double nearest to it, which rounds to the single that loads. -/
theorem RuleKind.faults_set_tenth :
    let l : Loader := ⟨.empty, none⟩
    let site : Site := ⟨.empty, default, ⟨"share", none, [], .scalar .plain .float, [], none⟩⟩
    let share : Datum := .float (.ofRank false 0x3DCCCCCD)
    let rule : Rule := .oneOf (.singles [.ofInt 2, .ofRank false 0x3DCCCCCD]) "2, 1e-1"
    RuleKind.set.compile site (.scalar .plain .float) "2, ,1e-1" = .ok rule ∧
      (∀ item ∈ Rule.listed "2, ,1e-1", ∃ d, l.ItemLoads (.scalar .plain .float) item d) ∧
      l.load (.scalar .plain .float) (.number (.double Loader.tenth)) = .ok share ∧
      rule.faults .empty share = [] := by
  intro l site share rule
  have hcompile : RuleKind.set.compile site (.scalar .plain .float) "2, ,1e-1" = .ok rule := by rfl
  have hlisted : Rule.listed "2, ,1e-1" = ["2", "1e-1"] := by decide
  have htwo : l.ItemLoads (.scalar .plain .float) "2" (.float (.ofInt 2)) := ⟨_, rfl, rfl⟩
  have htenth : l.ItemLoads (.scalar .plain .float) "1e-1" share := ⟨_, rfl, rfl⟩
  have hload : l.load (.scalar .plain .float) (.number (.double Loader.tenth)) = .ok share := rfl
  have hitems : ∀ item ∈ Rule.listed "2, ,1e-1", ∃ d,
      l.ItemLoads (.scalar .plain .float) item d := by
    rw [hlisted]
    simp only [List.forall_mem_cons, List.not_mem_nil, false_implies, implies_true, and_true]
    exact ⟨⟨_, htwo⟩, _, htenth⟩
  refine ⟨hcompile, hitems, hload, (faults_set_iff hcompile (fun _ => hitems) hload).2 ?_⟩
  rw [hlisted]
  exact ⟨"1e-1", by simp, share, htenth, by simp [share, Datum.same, Binary.same]⟩

end GameConfig
