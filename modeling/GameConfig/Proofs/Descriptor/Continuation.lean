import GameConfig.Proofs.Descriptor.History
import GameConfig.Proofs.Descriptor.RoundTrip

/-
  The values of enum items.

  An item without a value continues the values before it, texts left out.  The
  counter that is carried along stops at the greatest integer of 64 bits, so
  there, and only there, the continuation is no new value.

  * `getElem?_values_of_lowerItems`: every item gets its value from what is
    written and from the counter after the values before it;
  * `foldl_nextValue_of_nearest`: the counter comes from the nearest integer;
  * `EnumEntry.continuation_fresh_iff`: a continuation is one above the nearest
    integer before it exactly if that is not the greatest.
-/

namespace GameConfig

open Numeral

/-- The values of the items, in order. -/
def EnumDef.values (d : EnumDef) : List ItemValue := d.items.map (·.value)

/-- The value at place `k` is the integer `v`, and between it and place `j` there are only texts. -/
structure Nearest (vs : List ItemValue) (j k : Nat) (v : Int) : Prop where
  before : k < j
  integer : vs[k]? = some (.int v)
  between : ∀ m, k < m → m < j → ∀ w, vs[m]? ≠ some (.int w)

theorem fitsInt64_iff {i : Int} : fitsInt64 i = true ↔ minInt64 ≤ i ∧ i ≤ maxInt64 := by
  simp [fitsInt64]

/-! ## The counter -/

/-- The counter stays within 64 bits. -/
theorem fitsInt64_nextValue {next : Int} {w : ItemValue} (hn : fitsInt64 next = true)
    (hw : ∀ v, w = .int v → fitsInt64 v = true) : fitsInt64 (nextValue next w) = true := by
  cases w with
  | int v =>
    have hv := fitsInt64_iff.1 (hw v rfl)
    rw [fitsInt64_iff]
    simp only [nextValue, minInt64, maxInt64] at hv ⊢
    omega
  | text s => exact hn

/-- Texts leave the counter alone. -/
theorem foldl_nextValue_of_texts {vs : List ItemValue} (h : ∀ v, .int v ∉ vs) (next : Int) :
    vs.foldl nextValue next = next := by
  induction vs generalizing next with
  | nil => rfl
  | cons w vs ih =>
    rw [List.foldl_cons, ih fun v hv => h v (List.mem_cons_of_mem _ hv)]
    cases w with
    | int v => exact absurd (List.mem_cons_self ..) (h v)
    | text s => rfl

/-- After the nearest integer the counter stands one above it, as far as 64 bits go. -/
theorem foldl_nextValue_of_nearest {vs : List ItemValue} {j k : Nat} {v : Int}
    (h : Nearest vs j k v) (next : Int) :
    (vs.take j).foldl nextValue next = min (v + 1) maxInt64 := by
  have hv : (vs.take j)[k]? = some (.int v) := by
    rw [List.getElem?_take, if_pos h.before, h.integer]
  obtain ⟨hk, hv⟩ := List.getElem?_eq_some_iff.1 hv
  have htexts : ∀ w, .int w ∉ (vs.take j).drop (k + 1) := by
    intro w hw
    obtain ⟨m, hm⟩ := List.getElem?_of_mem hw
    rw [List.getElem?_drop, List.getElem?_take] at hm
    split at hm
    · rename_i hlt
      exact h.between (k + 1 + m) (by omega) hlt w hm
    · cases hm
  rw [← List.take_append_drop k (vs.take j), List.drop_eq_getElem_cons hk, hv,
    List.foldl_append, List.foldl_cons, foldl_nextValue_of_texts htexts]
  rfl

/-- Without an integer before it the counter stands where it began. -/
theorem foldl_nextValue_of_none {vs : List ItemValue} {j : Nat}
    (h : ∀ k < j, ∀ v, vs[k]? ≠ some (.int v)) (next : Int) :
    (vs.take j).foldl nextValue next = next := by
  refine foldl_nextValue_of_texts (fun v hv => ?_) next
  obtain ⟨k, hk⟩ := List.getElem?_of_mem hv
  rw [List.getElem?_take] at hk
  split at hk
  · rename_i hlt
    exact h k hlt v hk
  · cases hk

/-! ## The items -/

theorem fitsInt64_of_readInt64? {cs : List Char} {v : Int} (h : readInt64? cs = some v) :
    fitsInt64 v = true := by
  unfold readInt64? at h
  split at h
  · split at h
    · rename_i hfits
      cases h
      exact hfits
    · cases h
  · cases h

theorem fitsInt64_lowerValue {next : Int} {e : ItemEntry} (hn : fitsInt64 next = true)
    (he : e.Proper) : ∀ v, e.lowerValue next = .int v → fitsInt64 v = true := by
  intro v hv
  unfold ItemEntry.lowerValue at hv
  split at hv
  case h_1 w hw =>
    cases hv
    exact he v hw
  case h_2 s hs =>
    split at hv
    · rename_i w hread
      cases hv
      exact fitsInt64_of_readInt64? hread
    · cases hv
  case h_3 =>
    cases hv
    exact hn

/-- **Every item gets its value from what is written and from the values before it.** -/
theorem getElem?_values_of_lowerItems {path : String} {next : Int} {j : Nat}
    {es : List ItemEntry} {items : List EnumItem} (h : lowerItems path next j es = .ok items)
    {k : Nat} {e : ItemEntry} (he : es[k]? = some e) :
    (items.map (·.value))[k]? =
      some (e.lowerValue (((items.map (·.value)).take k).foldl nextValue next)) := by
  induction es generalizing next j items k with
  | nil => cases he
  | cons e' es ih =>
    obtain ⟨-, rest, hrest, rfl⟩ := lowerItems_cons_eq_ok.1 h
    cases k with
    | zero => cases he; rfl
    | succ k => exact ih hrest he

/-- The values of items are within 64 bits if those written are. -/
theorem fitsInt64_of_lowerItems {path : String} {next : Int} {j : Nat} {es : List ItemEntry}
    {items : List EnumItem} (h : lowerItems path next j es = .ok items)
    (hn : fitsInt64 next = true) (hes : ∀ e ∈ es, e.Proper) :
    ∀ v, .int v ∈ items.map (·.value) → fitsInt64 v = true := by
  induction es generalizing next j items with
  | nil => cases h; simp
  | cons e es ih =>
    obtain ⟨-, rest, hrest, rfl⟩ := lowerItems_cons_eq_ok.1 h
    rw [List.forall_mem_cons] at hes
    have hvalue := fitsInt64_lowerValue hn hes.1
    intro v hv
    rcases List.mem_cons.1 hv with hv | hv
    · exact hvalue v hv.symm
    · exact ih hrest (fitsInt64_nextValue hn hvalue) hes.2 v hv

/-- What is written settles the value, whatever comes before. -/
inductive ItemEntry.Declares (i : ItemEntry) : ItemValue → Prop
  | int {v : Int} : i.value = some (.int v) → Declares i (.int v)
  | spelled {s : String} {v : Int} : i.value = some (.text s) →
      readInt64? (Text.trim s.toList) = some v → Declares i (.int v)
  | text {s : String} : i.value = some (.text s) →
      readInt64? (Text.trim s.toList) = none → Declares i (.text s)

theorem ItemEntry.Declares.lowerValue_eq {i : ItemEntry} {w : ItemValue} (h : i.Declares w)
    (next : Int) : i.lowerValue next = w := by
  cases h with
  | int hv => simp only [ItemEntry.lowerValue, hv]
  | spelled hs hread => simp only [ItemEntry.lowerValue, hs, hread]
  | text hs hread => simp only [ItemEntry.lowerValue, hs, hread]

theorem EnumEntry.lower_items {e : EnumEntry} {i : Nat} {d : EnumDef} (h : e.lower i = .ok d) :
    lowerItems s!"enums[{i}]" 0 0 e.items = .ok d.items := by
  unfold lower at h
  split at h
  · cases h
  · rename_i hitems
    cases h
    exact hitems

/-- **A continuation is fresh exactly if the nearest integer before it is not the greatest.**
    Every item has the value that it declares.  An item without a value has an integer: zero if
    no integer comes before, else one above the nearest, unless that is the greatest of 64 bits;
    then, and only then, it repeats it. -/
theorem EnumEntry.continuation_fresh_iff {e : EnumEntry} {index : Nat} {d : EnumDef}
    (hp : ∀ i ∈ e.items, i.Proper) (h : e.lower index = .ok d) {j : Nat} {i : ItemEntry}
    (hi : e.items[j]? = some i) :
    (∀ w, i.Declares w → d.values[j]? = some w) ∧
      (i.value = none → ∃ x, d.values[j]? = some (.int x) ∧
        ((∀ k < j, ∀ v, d.values[k]? ≠ some (.int v)) → x = 0) ∧
        ∀ k v, Nearest d.values j k v →
          (x = v + 1 ↔ v ≠ maxInt64) ∧ (x ≠ v ↔ v ≠ maxInt64)) := by
  have hitems := EnumEntry.lower_items h
  have hvalue : d.values[j]? = some (i.lowerValue ((d.values.take j).foldl nextValue 0)) :=
    getElem?_values_of_lowerItems hitems hi
  refine ⟨fun w hw => ?_, fun hnone => ?_⟩
  · rw [hvalue, hw.lowerValue_eq]
  · refine ⟨(d.values.take j).foldl nextValue 0, ?_, fun hk => foldl_nextValue_of_none hk 0, ?_⟩
    · rw [hvalue, ItemEntry.lowerValue, hnone]
    · intro k v hnear
      have hfits : fitsInt64 v = true :=
        fitsInt64_of_lowerItems hitems (by decide) hp v (List.mem_of_getElem? hnear.integer)
      have hmax := (fitsInt64_iff.1 hfits).2
      rw [foldl_nextValue_of_nearest hnear]
      omega

/-- Levels with a number left out, a number spelled as a text, a word, and one next to the last. -/
def levels : EnumEntry where
  name := "Level"
  flags := false
  comment := none
  items := [⟨"Low", none, none, none⟩, ⟨"Mid", some (.text " 7 "), none, none⟩,
    ⟨"Wild", some (.text "w"), none, none⟩, ⟨"High", none, none, none⟩,
    ⟨"Top", some (.int 9223372036854775806), none, none⟩, ⟨"Peak", none, none, none⟩]

/-- What the levels are declared as. -/
def levelsDef : EnumDef where
  fullName := "Level"
  isFlags := false
  comment := none
  items := [⟨"Low", .int 0, none, none⟩, ⟨"Mid", .int 7, none, none⟩,
    ⟨"Wild", .text "w", none, none⟩, ⟨"High", .int 8, none, none⟩,
    ⟨"Top", .int 9223372036854775806, none, none⟩,
    ⟨"Peak", .int 9223372036854775807, none, none⟩]

theorem continuation_fresh_levels :
    (∀ i ∈ levels.items, i.Proper) ∧ levels.lower 0 = .ok levelsDef ∧
      levels.items[3]? = some ⟨"High", none, none, none⟩ ∧ Nearest levelsDef.values 3 1 7 ∧
      ∃ x, levelsDef.values[3]? = some (.int x) ∧ x = 7 + 1 ∧ x ≠ 7 := by
  have hp : ∀ i ∈ levels.items, i.Proper := by
    simp [levels, ItemEntry.Proper, fitsInt64, minInt64, maxInt64]
  have hlower : levels.lower 0 = .ok levelsDef := by decide +kernel
  have hnear : Nearest levelsDef.values 3 1 7 := by
    refine ⟨by decide, rfl, fun m h₁ h₂ w => ?_⟩
    obtain rfl : m = 2 := by omega
    simp [levelsDef, EnumDef.values]
  obtain ⟨x, hx, -, hfresh⟩ :=
    (EnumEntry.continuation_fresh_iff hp hlower (j := 3) (i := ⟨"High", none, none, none⟩) rfl).2 rfl
  have hne : (7 : Int) ≠ maxInt64 := by decide
  exact ⟨hp, hlower, rfl, hnear, x, hx, (hfresh 1 7 hnear).1.2 hne, (hfresh 1 7 hnear).2.2 hne⟩

/-- An item with the greatest integer, and one behind it without a value. -/
def brink : EnumEntry where
  name := "Brink"
  flags := false
  comment := none
  items := [⟨"Last", some (.int 9223372036854775807), none, none⟩, ⟨"Beyond", none, none, none⟩]

theorem not_continuation_fresh :
    ¬ ∀ (e : EnumEntry) (index : Nat) (d : EnumDef), (∀ i ∈ e.items, i.Proper) →
      e.lower index = .ok d → ∀ j i, e.items[j]? = some i → i.value = none →
        ∃ x, d.values[j]? = some (.int x) ∧
          ((∀ k < j, ∀ v, d.values[k]? ≠ some (.int v)) → x = 0) ∧
          ∀ k v, Nearest d.values j k v → x = v + 1 ∧ x ≠ v := by
  intro hall
  have hp : ∀ i ∈ brink.items, i.Proper := by
    simp [brink, ItemEntry.Proper, fitsInt64, minInt64, maxInt64]
  have hlower : brink.lower 0 = .ok ⟨"Brink", [⟨"Last", .int 9223372036854775807, none, none⟩,
      ⟨"Beyond", .int 9223372036854775807, none, none⟩], false, none⟩ := by decide +kernel
  obtain ⟨x, hx, -, hfresh⟩ := hall brink 0 _ hp hlower 1 _ rfl rfl
  obtain rfl : 9223372036854775807 = x := by simpa [EnumDef.values] using hx
  exact (hfresh 0 _ ⟨by decide, rfl, fun m h₁ h₂ => by omega⟩).2 rfl

end GameConfig
