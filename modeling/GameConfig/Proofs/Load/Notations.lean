import GameConfig.Proofs.Json.Text
import GameConfig.Proofs.Load.Reorder
import GameConfig.Proofs.Load.RoundTrip

/-
  The two notations of maps.

  Raw data writes a map as an array of pairs, or as an object whose names are
  read again as keys.  For keys that are strings, enum items or integers the
  two say the same.

  * `pairs?` writes an object as pairs, with the nodes that its names stand for;
  * `load_object_iff`: an object loads exactly as its pairs do, since a name
    loads as a key as its node does (`loadKey_eq_ok`);
  * `Datum.keyName` is the name of a key: it loads as that key again, so no two
    keys of a map have one name and every map has an object that loads as it
    (`exists_object_of_pairs`).
-/

namespace GameConfig

open Text

/-- Keys of this type have a name: strings, enum items and integers. -/
def Ty.isNameKey : Ty → Bool
  | .scalar _ .string | .named _ (.enum _) => true
  | ty => ty.isInteger

/-- The name of a key: its text, the name of its item or its decimal text. -/
def Datum.keyName (s : Schema) : Datum → String
  | .string text => text
  | .enum id i => (s.enum id).itemName i
  | .integer _ i => integerText i
  | _ => ""

namespace Loader

/-- The members of an object as pairs, unless a name stands for no key. -/
def pairs? (key : Ty) : List (String × Json) → Option (List Json)
  | [] => some []
  | (name, x) :: ms => do
    let k ← keyNode? key name
    let xs ← pairs? key ms
    some (.array [k, x] :: xs)

variable {l : Loader} {key value : Ty}

/-! ## Objects as pairs -/

/-- The members of an object load as entries exactly if its pairs do. -/
theorem memberLoads_iff (hk : key.isTextKey = true) {ms : List (String × Json)} {es : Entries} :
    List.Forall₂ (l.MemberLoads key value) ms es ↔
      ∃ xs, pairs? key ms = some xs ∧ List.Forall₂ (l.PairLoads key value) xs es := by
  induction ms generalizing es with
  | nil => simp [pairs?]
  | cons m ms ih =>
    obtain ⟨name, x⟩ := m
    constructor
    · rintro (_ | ⟨⟨hkey, hvalue⟩, hes⟩)
      obtain ⟨-, k, hnode, hload⟩ := loadKey_eq_ok.1 hkey
      obtain ⟨xs, hxs, hpairs⟩ := ih.1 hes
      exact ⟨.array [k, x] :: xs, by simp [pairs?, hnode, hxs],
        .cons ⟨k, x, rfl, hload, hvalue⟩ hpairs⟩
    · rintro ⟨xs, hxs, hpairs⟩
      obtain ⟨k, hnode, hxs⟩ := Option.bind_eq_some_iff.1 hxs
      obtain ⟨xs, hrest, hxs⟩ := Option.bind_eq_some_iff.1 hxs
      cases hxs
      cases hpairs with
      | cons hpair hpairs =>
        obtain ⟨k', x', heq, hload, hvalue⟩ := hpair
        cases heq
        exact .cons ⟨loadKey_eq_ok.2 ⟨hk, k, hnode, hload⟩, hvalue⟩ (ih.2 ⟨xs, hrest, hpairs⟩)

/-- **An object loads as a map exactly if its pairs do**, as the same value. -/
theorem load_object_iff (hk : key.isTextKey = true) {m : Mark} {ms : List (String × Json)}
    {d : Datum} : l.load (.map m key value) (.object ms) = .ok d ↔
      ∃ xs, pairs? key ms = some xs ∧ l.load (.map m key value) (.array xs) = .ok d := by
  constructor
  · intro h
    obtain ⟨es, hfresh, rfl, -, hes⟩ := load_members_eq_ok.1 h
    obtain ⟨xs, hxs, hpairs⟩ := (memberLoads_iff hk).1 hes
    exact ⟨xs, hxs, load_pairs_eq_ok.2 ⟨es, hfresh, rfl, hpairs⟩⟩
  · rintro ⟨xs, hxs, h⟩
    obtain ⟨es, hfresh, rfl, hpairs⟩ := load_pairs_eq_ok.1 h
    exact load_members_eq_ok.2 ⟨es, hfresh, rfl, hk, (memberLoads_iff hk).2 ⟨xs, hxs, hpairs⟩⟩

/-! ## Pairs as objects -/

theorem isTextKey_of_isNameKey (hk : key.isNameKey = true) : key.isTextKey = true := by
  rcases key with ⟨m, _ | _ | _ | _ | _ | _⟩ | ⟨m, _ | _⟩ | _ | _ <;> first | rfl | cases hk

theorem trimmed_integerText (i : Int) : trimmed (integerText i) = integerText i := by
  have hchars : ∀ c ∈ (integerText i).toList, isBlank c = false := by
    intro c hc
    rw [Document.integerText_toList] at hc
    split at hc
    · rcases List.mem_cons.1 hc with rfl | hc
      · rfl
      · exact isBlank_of_isDigit (isDigit_of_mem_digitsOf hc)
    · exact isBlank_of_isDigit (isDigit_of_mem_digitsOf hc)
  rw [trimmed, trim_of_free hchars, String.ofList_toList]

/-- An integer of any width is read from its decimal text. -/
theorem read?_integerText {w : IntWidth} {i : Int} (hi : w.holds i = true) :
    Json.read? (integerText i) = .ok (.number (.int i)) := by
  have hcompact : (Json.number (.int i)).compact = integerText i := String.ofList_toList
  have hbounds : Numeral.minInt64 ≤ i ∧ i ≤ Numeral.maxNat64 := by
    simp only [IntWidth.holds, Bool.and_eq_true, decide_eq_true_eq] at hi
    cases w <;> simp only [IntWidth.least, IntWidth.greatest] at hi <;>
      simp only [Numeral.minInt64, Numeral.maxNat64] <;> omega
  rw [← hcompact]
  exact Json.read?_compact (.int hbounds.1 hbounds.2)

/-- A key loads again from its name. -/
theorem loadKey_keyName (hs : l.schema.Sound) (hk : key.isNameKey = true) {x : Json} {d : Datum}
    (h : l.load key x = .ok d) : l.loadKey key (d.keyName l.schema) = .ok d := by
  cases key with
  | scalar m kind =>
    rw [load_scalar] at h
    cases kind with
    | string =>
      obtain ⟨text, rfl, rfl⟩ := string_eq_ok.1 h
      rfl
    | integer w =>
      obtain ⟨i, hi, hw, rfl⟩ := integer_eq_ok.1 h
      refine loadKey_eq_ok.2 ⟨rfl, .number (.int i), ?_, ?_⟩
      · simp [keyNode?, Ty.isNumeric, Datum.keyName, trimmed_integerText, read?_integerText hw]
      · rw [load_scalar]
        exact integer_eq_ok.2 ⟨i, int64?_ofInt hi, hw, rfl⟩
    | bool | float | double | datetime => cases hk
  | named m ref =>
    cases ref with
    | bean id => cases hk
    | enum id =>
      rw [load_enum] at h
      obtain ⟨word, i, -, hi, rfl⟩ := item_eq_ok.1 h
      exact item_eq_ok.2 ⟨_, i, rfl, findItem?_itemName (hs.items id) (findItem?_lt hi), rfl⟩
  | seq | map => cases hk

/-- The names of different keys differ. -/
theorem keyName_nodup (hs : l.schema.Sound) (hk : key.isNameKey = true) {es : Entries}
    (hfresh : es.Fresh) (hload : ∀ e ∈ es, ∃ x, l.load key x = .ok e.1) :
    (es.map fun e => e.1.keyName l.schema).Nodup := by
  refine List.pairwise_map.2 (hfresh.imp_of_mem fun {e f} he hf hdiff hname => ?_)
  obtain ⟨x, hx⟩ := hload e he
  obtain ⟨y, hy⟩ := hload f hf
  have hkey := loadKey_keyName hs hk hx
  rw [hname, loadKey_keyName hs hk hy] at hkey
  rw [Except.ok.inj hkey, Datum.same_refl (load_distinct hx)] at hdiff
  cases hdiff

/-- Pairs that load as entries can be written as members that do, under the names of the keys. -/
theorem exists_members (hs : l.schema.Sound) (hk : key.isNameKey = true) {xs : List Json}
    {es : Entries} (h : List.Forall₂ (l.PairLoads key value) xs es) :
    ∃ ms, Assoc.keys ms = es.map (fun e => e.1.keyName l.schema) ∧
      List.Forall₂ (fun x p => ∃ k, x = .array [k, p.2]) xs ms ∧
      List.Forall₂ (l.MemberLoads key value) ms es := by
  induction h with
  | nil => exact ⟨[], rfl, .nil, .nil⟩
  | @cons x e xs es hpair _ ih =>
    obtain ⟨ms, hkeys, hvalues, hloads⟩ := ih
    obtain ⟨k, v, rfl, hkey, hvalue⟩ := hpair
    exact ⟨(e.1.keyName l.schema, v) :: ms, congrArg (_ :: ·) hkeys, .cons ⟨k, rfl⟩ hvalues,
      .cons ⟨loadKey_keyName hs hk hkey, hvalue⟩ hloads⟩

/-- **Whatever loads from pairs has an object that loads as the same map**: every key stands there
    under its name, with the value that it had. -/
theorem exists_object_of_pairs (hs : l.schema.Sound) (hk : key.isNameKey = true) {m : Mark}
    {xs : List Json} {d : Datum} (h : l.load (.map m key value) (.array xs) = .ok d) :
    ∃ (es : Entries) (ms : List (String × Json)), d = .map es ∧
      Assoc.keys ms = es.map (fun e => e.1.keyName l.schema) ∧ (Assoc.keys ms).Nodup ∧
      List.Forall₂ (fun x p => ∃ k, x = .array [k, p.2]) xs ms ∧
      l.load (.map m key value) (.object ms) = .ok d := by
  obtain ⟨es, hfresh, rfl, hpairs⟩ := load_pairs_eq_ok.1 h
  obtain ⟨ms, hkeys, hvalues, hloads⟩ := exists_members hs hk hpairs
  have hload : ∀ e ∈ es, ∃ x, l.load key x = .ok e.1 := by
    intro e he
    obtain ⟨x, -, k, v, -, hkey, -⟩ := exists_of_mem_right hpairs he
    exact ⟨k, hkey⟩
  refine ⟨es, ms, rfl, hkeys, hkeys ▸ keyName_nodup hs hk hfresh hload, hvalues, ?_⟩
  exact load_members_eq_ok.2 ⟨es, hfresh, rfl, isTextKey_of_isNameKey hk, hloads⟩

end Loader

/-- **The two notations of maps agree**, over every accepted schema and under every variant, for
    keys that are strings, enum items or integers.  An object loads exactly if the pairs of its
    members do, as an equal value; and whatever loads from pairs has an object that loads as an
    equal value, with the keys under their names. -/
theorem load_notations_of_build {h : History} {s : Schema} (hs : (Builder.run h).build = .ok s)
    (v : Option String) (m : Mark) {key : Ty} (hk : key.isNameKey = true) (value : Ty) :
    (∀ ms d, Loader.load ⟨s, v⟩ (.map m key value) (.object ms) = .ok d ↔
      ∃ xs, Loader.pairs? key ms = some xs ∧
        Loader.load ⟨s, v⟩ (.map m key value) (.array xs) = .ok d) ∧
    (∀ xs d, Loader.load ⟨s, v⟩ (.map m key value) (.array xs) = .ok d →
      ∃ (es : Entries) (ms : List (String × Json)), d = .map es ∧
        Assoc.keys ms = es.map (fun e => e.1.keyName s) ∧ (Assoc.keys ms).Nodup ∧
        List.Forall₂ (fun x p => ∃ k, x = .array [k, p.2]) xs ms ∧
        Loader.load ⟨s, v⟩ (.map m key value) (.object ms) = .ok d) ∧
    ∀ x d, Loader.load ⟨s, v⟩ (.map m key value) x = .ok d → d.same d = true := by
  have hsound := Schema.sound_of_build hs
  refine ⟨fun ms d => ?_, fun xs d hload => ?_, fun x d hload => ?_⟩
  · exact Loader.load_object_iff (Loader.isTextKey_of_isNameKey hk)
  · exact Loader.exists_object_of_pairs (l := ⟨s, v⟩) hsound hk hload
  · exact Datum.same_refl (Loader.load_distinct hload)

/-- Titles by level. -/
def titlesByLevel : Ty :=
  .map .plain (.scalar .plain (.integer .short)) (.scalar .plain .string)

def titles : Datum :=
  .map [(.integer .short 20, .string "adept"), (.integer .short (-1), .string "imp")]

/-- Levels with blanks around them, and the pairs that they stand for; written from these, the
    names are the decimal texts. -/
theorem load_notations_titles :
    let load := Loader.load ⟨.empty, none⟩ titlesByLevel
    load (.object [(" 20 ", .string "adept"), ("-1", .string "imp")]) = .ok titles ∧
      load (.array [.array [.ofInt 20, .string "adept"], .array [.ofInt (-1), .string "imp"]]) =
        .ok titles ∧
      (∃ ms, Assoc.keys ms = ["20", "-1"] ∧ load (.object ms) = .ok titles) ∧
      titles.same titles = true := by
  have hload : Loader.load ⟨.empty, none⟩ titlesByLevel (.array [.array [.ofInt 20,
      .string "adept"], .array [.ofInt (-1), .string "imp"]]) = .ok titles := by cbv
  have hpairs : Loader.pairs? (.scalar .plain (.integer .short))
      [(" 20 ", .string "adept"), ("-1", .string "imp")] =
        some [.array [.ofInt 20, .string "adept"], .array [.ofInt (-1), .string "imp"]] := by cbv
  have hkey : Ty.isNameKey (.scalar .plain (.integer .short)) = true := rfl
  obtain ⟨hobject, hback, hsame⟩ := load_notations_of_build (h := []) (s := .empty) rfl none .plain
    hkey (.scalar .plain .string)
  obtain ⟨es, ms, hd, hkeys, -, -, hms⟩ := hback _ titles hload
  cases hd
  exact ⟨(hobject _ titles).2 ⟨_, hpairs, hload⟩, hload, ⟨ms, hkeys, hms⟩, hsame _ titles hload⟩

end GameConfig
