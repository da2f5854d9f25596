import GameConfig.Json.Document
import GameConfig.Proofs.Number.Rounding

/-
  What numbers a JSON value holds.

  An integer has 64 bits, with a sign or without, and a double is finite
  (`Json.Number.Fits`).  Whatever is read from text is such a value
  (`read?_fits`): digits that do not fit are rounded, and what grows too large
  by its exponent is a fault.
-/

namespace GameConfig

/-- An integer of 64 bits, signed or not, or a finite double. -/
def Json.Number.Fits : Json.Number → Prop
  | .int i => Numeral.minInt64 ≤ i ∧ i ≤ Numeral.maxNat64
  | .double x => x.isFinite = true

/-- Every number inside the value fits. -/
inductive Json.Fits : Json → Prop
  | null : Fits .null
  | bool {b} : Fits (.bool b)
  | number {n} : n.Fits → Fits (.number n)
  | string {s} : Fits (.string s)
  | array {xs} : (∀ x ∈ xs, Fits x) → Fits (.array xs)
  | object {ms} : (∀ m ∈ ms, Fits m.2) → Fits (.object ms)

/-- **Any number that fits is finite as a double.** -/
theorem Json.Number.Fits.toDouble {n : Json.Number} (h : n.Fits) : n.toDouble.isFinite = true := by
  cases n with
  | int i =>
    obtain ⟨hlo, hhi⟩ := h
    unfold Numeral.minInt64 at hlo
    unfold Numeral.maxNat64 at hhi
    exact (Binary.ofNat_finite _ (show i.natAbs ≤ 2 ^ 64 by omega)).1
  | double x => exact h

namespace Document

/-- The powers of ten are at least one, and none of them is infinite. -/
theorem tenTo_ge : ∀ e < 309, (tenTo e).magnitude.den ≤ (tenTo e).magnitude.num := by
  decide +kernel

/-! ## Numbers -/

theorem absorb_le {acc : ℕ} (h : acc ≤ Numeral.maxNat64) (ds : List Text.Symbol) :
    (absorb acc ds).1 ≤ Numeral.maxNat64 := by
  induction ds generalizing acc with
  | nil => exact h
  | cons d ds ih =>
    unfold absorb
    dsimp only
    split
    · exact h
    · exact ih (by omega)

theorem scaleByTen_finite {negative : Bool} {digits : ℕ} (hd : digits ≤ Numeral.maxNat64) {e : ℤ}
    {x : Double} (h : scaleByTen negative digits e = .ok x) : x.isFinite = true := by
  unfold Numeral.maxNat64 at hd
  obtain ⟨hfin, hle⟩ := Binary.ofNat_finite negative (show digits ≤ 2 ^ 64 by omega)
  unfold scaleByTen at h
  dsimp only at h
  split at h
  · cases h
    exact hfin
  split at h
  · cases h
  split at h
  · -- what is multiplied is looked at again
    split at h
    · cases h
    · rename_i hinf
      cases h
      simpa [Binary.isInfinite, Binary.mul, Binary.ofRatio, Binary.ofRank, Binary.isNaN] using hinf
  split at h
  · cases h
    exact (Binary.div_finite (tenTo_ge _ (by omega)) (by omega) hle).1
  split at h
  · cases h
    have hfirst := (Binary.div_finite (tenTo_ge 308 (by omega)) (by omega) hle).2
    exact (Binary.div_finite (tenTo_ge _ (by omega)) (by omega) hfirst).1
  · cases h
    simp [Binary.ofRank, Binary.isFinite, Layout.top, Layout.double]

/-! ## Documents -/

/-- Every number inside what was read fits. -/
inductive Fits : Document → Prop
  | null : Fits .null
  | bool {b} : Fits (.bool b)
  | number {n} : n.Fits → Fits (.number n)
  | string {s} : Fits (.string s)
  | array {ds e} : (∀ d ∈ ds, Fits d) → Fits (.array ds e)
  | object {ms e} : (∀ m ∈ ms, Fits m.2) → Fits (.object ms e)
  | broken {f} : Fits (.broken f)

/-- Whichever way it was read. -/
theorem fits_ite {c : Prop} [Decidable c] {a b : Document × List Text.Symbol} (ha : a.1.Fits)
    (hb : b.1.Fits) : (if c then a else b).1.Fits := by
  split
  · exact ha
  · exact hb

theorem readWord_fits {found : Document} (h : found.Fits) (ws : List Char)
    (input : List Text.Symbol) : (readWord found ws input).1.Fits := by
  induction ws generalizing input with
  | nil => exact h
  | cons w ws ih =>
    cases input with
    | nil => exact .broken
    | cons s rest =>
      exact fits_ite (ih rest) .broken

theorem numberResult_fits {negative : Bool} {digits : ℕ} (hd : digits ≤ Numeral.maxNat64) (e : ℤ)
    (rest : List Text.Symbol) : (numberResult rest (scaleByTen negative digits e)).1.Fits := by
  cases h : scaleByTen negative digits e with
  | error f => exact .broken
  | ok x => exact .number (scaleByTen_finite hd h)

theorem readExponent_fits {negative : Bool} {digits : ℕ} (hd : digits ≤ Numeral.maxNat64) (e : ℤ)
    (input : List Text.Symbol) : (readExponent negative digits e input).1.Fits := by
  unfold readExponent
  split
  split
  · exact .broken
  · exact fits_ite (numberResult_fits hd _ _) .broken

theorem readFraction_fits {negative : Bool} {digits : ℕ} (hd : digits ≤ Numeral.maxNat64) (e : ℤ)
    (input : List Text.Symbol) : (readFraction negative digits e input).1.Fits := by
  unfold readFraction
  cases input with
  | nil => exact .broken
  | cons d more =>
    have hall := absorb_le hd ((d :: more).takeWhile isDigit)
    dsimp only
    refine fits_ite ?_ .broken
    split
    · exact readExponent_fits hall _ _
    · exact readExponent_fits hall _ _
    · exact numberResult_fits hall _ _

theorem wholeNumber_fits (negative : Bool) {digits : ℕ} (hd : digits ≤ Numeral.maxNat64) :
    (wholeNumber negative digits).Fits := by
  unfold Numeral.maxNat64 at hd
  unfold wholeNumber
  split
  · simp only [Json.Number.Fits, Numeral.minInt64, Numeral.maxNat64]
    omega
  split
  · exact (Binary.ofNat_finite true (by omega)).1
  · rename_i h
    simp only [Bool.or_eq_true, decide_eq_true_eq] at h
    simp only [Json.Number.Fits, Numeral.minInt64, Numeral.maxNat64]
    omega

theorem readNumber_fits (negative : Bool) (input : List Text.Symbol) :
    (readNumber negative input).1.Fits := by
  unfold readNumber
  cases input with
  | nil => exact .broken
  | cons d more =>
    have hall := absorb_le (Nat.zero_le Numeral.maxNat64) ((d :: more).takeWhile isDigit)
    dsimp only
    refine fits_ite .broken (fits_ite .broken ?_)
    split
    · exact readFraction_fits hall _ _
    · exact readExponent_fits hall _ _
    · exact readExponent_fits hall _ _
    · exact fits_ite (.number (wholeNumber_fits negative hall)) (numberResult_fits hall _ _)

/-- With this much fuel, whatever is read fits. -/
structure ReadsFit (fuel : ℕ) : Prop where
  value : ∀ depth input, (readValue fuel depth input).1.Fits
  items : ∀ depth first input, ∀ d ∈ (readItems fuel depth first input).1, d.Fits
  item : ∀ depth input, ∀ d ∈ (readItem fuel depth input).1, d.Fits
  members : ∀ depth first input, ∀ m ∈ (readMembers fuel depth first input).1, m.2.Fits
  member : ∀ depth input, ∀ m ∈ (readMember fuel depth input).1, m.2.Fits

namespace ReadsFit

variable {fuel : ℕ} (h : ReadsFit fuel)
include h

theorem readValue (depth : ℕ) (input : List Text.Symbol) :
    (readValue (fuel + 1) depth input).1.Fits := by
  unfold Document.readValue
  split
  · exact .broken
  · exact readWord_fits .null _ _
  · exact readWord_fits .bool _ _
  · exact readWord_fits .bool _ _
  · exact readNumber_fits true _
  · split
    · exact .string
    · exact .broken
  · cases depth with
    | zero => exact .broken
    | succ depth => exact .array (h.items depth true _)
  · cases depth with
    | zero => exact .broken
    | succ depth => exact .object (h.members depth true _)
  · split
    · exact readNumber_fits false _
    · exact .broken

theorem readItems (depth : ℕ) (first : Bool) (input : List Text.Symbol) :
    ∀ d ∈ (readItems (fuel + 1) depth first input).1, d.Fits := by
  unfold Document.readItems
  split
  · simp
  · simp
  split
  · exact h.item depth _
  split
  · split
    · simp
    · simp
    · exact h.item depth _
  · simp

theorem readItem (depth : ℕ) (input : List Text.Symbol) :
    ∀ d ∈ (readItem (fuel + 1) depth input).1, d.Fits := by
  have hv := h.value depth input
  unfold Document.readItem
  dsimp only
  split
  · simpa using hv
  · exact List.forall_mem_cons.2 ⟨hv, h.items depth false _⟩

theorem readMembers (depth : ℕ) (first : Bool) (input : List Text.Symbol) :
    ∀ m ∈ (readMembers (fuel + 1) depth first input).1, m.2.Fits := by
  unfold Document.readMembers
  split
  · simp
  · simp
  split
  · split
    · exact h.member depth _
    · simp
  split
  · split
    · simp
    · exact h.member depth _
    · simp
    · simp
  · simp

theorem readMember (depth : ℕ) (input : List Text.Symbol) :
    ∀ m ∈ (readMember (fuel + 1) depth input).1, m.2.Fits := by
  unfold Document.readMember
  split
  · simp
  split
  · simp
  · rename_i rest _
    have hv := h.value depth rest
    dsimp only
    split
    · simpa using hv
    · exact List.forall_mem_cons.2 ⟨hv, h.members depth false _⟩
  · simp

end ReadsFit

/-- **Whatever is read fits, however much fuel there is.** -/
theorem reads_fit (fuel : ℕ) : ReadsFit fuel := by
  induction fuel with
  | zero => exact ⟨by simp [readValue, Fits.broken], by simp [readItems], by simp [readItem],
      by simp [readMembers], by simp [readMember]⟩
  | succ fuel ih => exact ⟨ih.readValue, ih.readItems, ih.readItem, ih.readMembers, ih.readMember⟩

/-! ## Values -/

theorem insert_fits {ms : Assoc Json} (hms : ∀ m ∈ ms, m.2.Fits) (k : String) {x : Json}
    (hx : x.Fits) : ∀ m ∈ Assoc.insert k x ms, m.2.Fits := by
  induction ms with
  | nil => simpa [Assoc.insert] using hx
  | cons m ms ih =>
    rw [List.forall_mem_cons] at hms
    unfold Assoc.insert
    split
    · exact List.forall_mem_cons.2 ⟨hx, hms.2⟩
    · exact List.forall_mem_cons.2 ⟨hms.1, ih hms.2⟩

theorem ofEntries_fits {ms : List (String × Json)} (hms : ∀ m ∈ ms, m.2.Fits) :
    ∀ m ∈ Assoc.ofEntries ms, m.2.Fits := by
  exact List.foldlRecOn (motive := fun d : Assoc Json => ∀ m ∈ d, m.2.Fits) ms _ (by simp)
    fun d hd m hm => insert_fits hd m.1 (hms m hm)

theorem toItems?_fits {ds : List Document} {xs : List Json} (h : toItems? ds = .ok xs)
    (hd : ∀ d ∈ ds, ∀ x, d.toJson? = .ok x → x.Fits) : ∀ x ∈ xs, x.Fits := by
  induction ds generalizing xs with
  | nil => cases h; simp
  | cons d ds ih =>
    rw [List.forall_mem_cons] at hd
    unfold toItems? at h
    split at h
    · cases h
    rename_i x hx
    split at h
    · cases h
    rename_i hxs
    cases h
    exact List.forall_mem_cons.2 ⟨hd.1 x hx, ih hxs hd.2⟩

theorem toMembers?_fits {ds : List (String × Document)} {ms : List (String × Json)}
    (h : toMembers? ds = .ok ms) (hd : ∀ d ∈ ds, ∀ x, d.2.toJson? = .ok x → x.Fits) :
    ∀ m ∈ ms, m.2.Fits := by
  induction ds generalizing ms with
  | nil => cases h; simp
  | cons d ds ih =>
    rw [List.forall_mem_cons] at hd
    unfold toMembers? at h
    split at h
    · cases h
    rename_i x hx
    split at h
    · cases h
    rename_i hxs
    cases h
    exact List.forall_mem_cons.2 ⟨hd.1 x hx, ih hxs hd.2⟩

theorem Fits.toJson? {d : Document} (h : d.Fits) : ∀ {x : Json}, d.toJson? = .ok x → x.Fits := by
  induction h with
  | array _ ih =>
    intro x hx
    unfold Document.toJson? at hx
    split at hx
    · cases hx
    · cases hx
    · rename_i hxs
      cases hx
      exact .array (toItems?_fits hxs fun d hd x => ih d hd)
  | object _ ih =>
    intro x hx
    unfold Document.toJson? at hx
    split at hx
    · cases hx
    · cases hx
    · rename_i hms _
      cases hx
      exact .object (ofEntries_fits (toMembers?_fits hms fun d hd x => ih d hd))
  | number hn =>
    intro x hx
    cases hx
    exact .number hn
  | broken =>
    intro x hx
    cases hx
  | _ =>
    intro x hx
    cases hx
    constructor

end Document

/-- **Whatever is read from text fits.** -/
theorem Json.read?_fits {s : String} {x : Json} (h : Json.read? s = .ok x) : x.Fits := by
  unfold Json.read? at h
  dsimp only at h
  split at h
  · cases h
  · rename_i hx
    split at h
    · cases h
      exact ((Document.reads_fit _).value _ _).toJson? hx
    · cases h

end GameConfig
