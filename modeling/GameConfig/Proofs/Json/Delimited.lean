import GameConfig.Proofs.Json.Fits
import GameConfig.Proofs.Json.Text
import GameConfig.Proofs.Number.Printed

/-
  Where the text of a value ends.

  The compact text of a value tells by its first character which kind of value
  it is, and each kind tells where its text ends: a number by the first
  character that no number has, a string by its closing quote, an array and an
  object by their closing brackets.  So out of a longer text a value can be cut
  in one way only (`Json.compactChars_append_inj`), and values with the same
  text are the same.

  * `Json.Number.chars_inj`: numbers;
  * `Json.quoted_append_inj`: strings.
-/

namespace GameConfig

/-- Words that end where no character of a word follows are told apart in front of anything. -/
theorem append_inj_of_ends {p : Char → Bool} {as bs x y : List Char} (has : ∀ c ∈ as, p c = true)
    (hbs : ∀ c ∈ bs, p c = true) (hx : ∀ c ∈ x.head?, p c = false)
    (hy : ∀ c ∈ y.head?, p c = false) (h : as ++ x = bs ++ y) : as = bs ∧ x = y := by
  have hcut : ∀ {cs z : List Char}, (∀ c ∈ cs, p c = true) → (∀ c ∈ z.head?, p c = false) →
      (cs ++ z).takeWhile p = cs := by
    intro cs z hcs hz
    have hend : z.takeWhile p = [] := by
      cases z with
      | nil => rfl
      | cons c z => simp [hz c rfl]
    rw [List.takeWhile_append_of_pos hcs, hend, List.append_nil]
  have hwords : as = bs := by rw [← hcut has hx, h, hcut hbs hy]
  rw [hwords] at h
  exact ⟨hwords, List.append_cancel_left h⟩

namespace Json

/-! ## Numbers -/

namespace Number

theorem chars_ofInt (i : ℤ) : (Numeral.ofInt i).chars = (integerText i).toList := by
  rw [Document.integerText_toList]
  simp only [Numeral.chars, Numeral.body, Numeral.exponentChars, Numeral.ofInt]
  split <;> simp [Sign.chars]

/-- The text of an integer is read as the integer. -/
theorem readInt?_integerText (i : ℤ) : Numeral.readInt? (integerText i).toList = some i := by
  obtain ⟨k, hk, hread⟩ := (Numeral.ofInt i).exists_readInt? rfl rfl
  rw [Numeral.value_ofInt, Int.cast_inj] at hk
  rw [← chars_ofInt, hread, hk]

/-- An integer of whatever size, or a finite double. -/
def IsFinite : Number → Prop
  | .int _ => True
  | .double x => x.isFinite = true

variable {n m : Number}

theorem Fits.isFinite (hn : n.Fits) : n.IsFinite := by
  cases n with
  | int i => trivial
  | double x => exact hn

/-- A number is written as a numeral. -/
theorem exists_numeral (hn : n.IsFinite) : ∃ k : Numeral, k.chars = n.chars := by
  cases n with
  | int i => exact ⟨.ofInt i, chars_ofInt i⟩
  | double x =>
    obtain ⟨k, hk, -⟩ := Double.exists_numeral hn
    exact ⟨k, hk⟩

/-- **The text of a number tells which one it is.** -/
theorem chars_inj (hn : n.IsFinite) (hm : m.IsFinite) (h : n.chars = m.chars) : n = m := by
  cases n with
  | int i =>
    have hi := readInt?_integerText i
    cases m with
    | int j =>
      have hj := readInt?_integerText j
      rw [show (integerText i).toList = (integerText j).toList from h, hj] at hi
      rw [Option.some.inj hi]
    | double y =>
      rw [show (integerText i).toList = y.jsonChars from h, Double.readInt?_jsonChars hm] at hi
      cases hi
  | double x =>
    cases m with
    | int j =>
      have hj := readInt?_integerText j
      rw [← show x.jsonChars = (integerText j).toList from h, Double.readInt?_jsonChars hn] at hj
      cases hj
    | double y =>
      have hx := Double.readDouble?_jsonChars hn
      rw [show x.jsonChars = y.jsonChars from h, Double.readDouble?_jsonChars hm] at hx
      rw [Option.some.inj hx]

end Number

/-- No number goes on in the text. -/
def EndsNumeral (rest : List Char) : Prop := ∀ c ∈ rest.head?, Numeral.isNumeralChar c = false

theorem endsNumeral_nil : EndsNumeral [] := by simp [EndsNumeral]

theorem endsNumeral_cons {c : Char} (h : Numeral.isNumeralChar c = false) (rest : List Char) :
    EndsNumeral (c :: rest) := by
  simp [EndsNumeral, h]

/-- A number ends where no character of a number follows. -/
theorem Number.chars_append_inj {n m : Number} (hn : n.IsFinite) (hm : m.IsFinite) {x y : List Char}
    (hx : EndsNumeral x) (hy : EndsNumeral y) (h : n.chars ++ x = m.chars ++ y) :
    n = m ∧ x = y := by
  have hall : ∀ {k : Number}, k.IsFinite → ∀ c ∈ k.chars, Numeral.isNumeralChar c = true := by
    intro k hk c hc
    obtain ⟨j, hj⟩ := Number.exists_numeral hk
    exact j.isNumeralChar_of_mem (hj ▸ hc)
  obtain ⟨hchars, hrest⟩ := append_inj_of_ends (hall hn) (hall hm) hx hy h
  exact ⟨Number.chars_inj hn hm hchars, hrest⟩

/-! ## Strings -/

/-- A string ends with its closing quote. -/
theorem quoted_append_inj {s t : String} {x y : List Char} (h : quoted s ++ x = quoted t ++ y) :
    s = t ∧ x = y := by
  have hs := Document.readText_quoted s (x.map some)
  have ht := Document.readText_quoted t (y.map some)
  rw [← List.map_append] at hs ht
  rw [quoted, quoted, List.cons_append, List.cons_append] at h
  rw [(List.cons.inj h).2, ht] at hs
  obtain ⟨rfl, hrest⟩ := Prod.mk.inj (Except.ok.inj hs)
  exact ⟨rfl, (List.map_inj_right (fun _ _ => Option.some.inj)).1 hrest.symm⟩

/-! ## Values -/

/-- The kinds of values. -/
inductive Kind where
  | null
  | bool
  | number
  | string
  | array
  | object
deriving DecidableEq

def kind : Json → Kind
  | .null => .null
  | .bool _ => .bool
  | .number _ => .number
  | .string _ => .string
  | .array _ => .array
  | .object _ => .object

/-- The kind of value that begins with a character. -/
def Kind.beginning (c : Char) : Kind :=
  if c = 'n' then .null
  else if c = 't' ∨ c = 'f' then .bool
  else if c = '"' then .string
  else if c = '[' then .array
  else if c = '\x7b' then .object
  else .number

theorem Kind.beginning_of_isNumeralChar {c : Char} (h : Numeral.isNumeralChar c = true) :
    Kind.beginning c = .number := by
  have hne : ∀ d, Numeral.isNumeralChar d = false → c ≠ d := by
    rintro d hd rfl
    rw [hd] at h
    cases h
  simp [Kind.beginning, hne 'n' rfl, hne 't' rfl, hne 'f' rfl, hne '"' rfl, hne '[' rfl,
    hne '\x7b' rfl]

/-- The first character of a text tells the kind of the value; it is not a closing bracket. -/
theorem exists_beginning {j : Json} (hj : j.Fits) :
    ∃ c cs, j.compactChars = c :: cs ∧ Kind.beginning c = j.kind ∧ c ≠ ']' := by
  cases hj with
  | null => exact ⟨_, _, rfl, rfl, by decide⟩
  | @bool b => cases b <;> exact ⟨_, _, rfl, rfl, by decide⟩
  | @number n hn =>
    obtain ⟨k, hk⟩ := Number.exists_numeral hn.isFinite
    obtain ⟨c, cs, hcs⟩ := List.exists_cons_of_ne_nil k.chars_ne_nil
    have hc : Numeral.isNumeralChar c = true := k.isNumeralChar_of_mem (by simp [hcs])
    refine ⟨c, cs, by rw [compactChars, ← hk, hcs], Kind.beginning_of_isNumeralChar hc, ?_⟩
    rintro rfl
    cases hc
  | string => exact ⟨_, _, rfl, rfl, by decide⟩
  | @array xs _ => cases xs <;> exact ⟨_, _, rfl, rfl, by decide⟩
  | @object ms _ => cases ms <;> exact ⟨_, _, rfl, rfl, by decide⟩

variable {x y : List Char}

theorem kind_eq_of_append {a b : Json} (ha : a.Fits) (hb : b.Fits)
    (h : a.compactChars ++ x = b.compactChars ++ y) : a.kind = b.kind := by
  obtain ⟨c, cs, hcs, hc, -⟩ := exists_beginning ha
  obtain ⟨d, ds, hds, hd, -⟩ := exists_beginning hb
  rw [hcs, hds] at h
  rw [← hc, (List.cons.inj h).1, hd]

/-- No value begins with a closing bracket. -/
theorem closing_cons_ne {j : Json} (hj : j.Fits) (x y : List Char) :
    ']' :: x ≠ j.compactChars ++ y := by
  obtain ⟨c, cs, hcs, -, hc⟩ := exists_beginning hj
  rw [hcs]
  intro h
  exact hc (List.cons.inj h).1.symm

/-- Arrays with the same text have the same text of items. -/
theorem compactItems_of_array {xs ys : List Json} (hxs : ∀ j ∈ xs, j.Fits) (hys : ∀ j ∈ ys, j.Fits)
    (h : (Json.array xs).compactChars ++ x = (Json.array ys).compactChars ++ y) :
    compactItems xs ++ x = compactItems ys ++ y := by
  cases xs with
  | nil =>
    cases ys with
    | nil => exact (List.cons.inj h).2
    | cons q ys =>
      refine absurd ((List.cons.inj h).2.trans (List.append_assoc _ _ _)) ?_
      exact closing_cons_ne (hys q List.mem_cons_self) _ _
  | cons p xs =>
    cases ys with
    | nil =>
      refine absurd ((List.cons.inj h).2.symm.trans (List.append_assoc _ _ _)) ?_
      exact closing_cons_ne (hxs p List.mem_cons_self) _ _
    | cons q ys => exact congrArg (List.cons ',') (List.cons.inj h).2

/-- Objects with the same text have the same text of members. -/
theorem compactMembers_of_object {ms ns : List (String × Json)}
    (h : (Json.object ms).compactChars ++ x = (Json.object ns).compactChars ++ y) :
    compactMembers ms ++ x = compactMembers ns ++ y := by
  cases ms with
  | nil =>
    cases ns with
    | nil => exact (List.cons.inj h).2
    | cons n ns => exact absurd (List.cons.inj (List.cons.inj h).2).1 (by decide)
  | cons m ms =>
    cases ns with
    | nil => exact absurd (List.cons.inj (List.cons.inj h).2).1 (by decide)
    | cons n ns => exact congrArg (List.cons ',') (List.cons.inj h).2

theorem endsNumeral_items (xs : List Json) (x : List Char) : EndsNumeral (compactItems xs ++ x) := by
  cases xs with
  | nil => exact endsNumeral_cons rfl _
  | cons p xs => exact endsNumeral_cons rfl _

theorem endsNumeral_members (ms : List (String × Json)) (x : List Char) :
    EndsNumeral (compactMembers ms ++ x) := by
  cases ms with
  | nil => exact endsNumeral_cons rfl _
  | cons m ms => exact endsNumeral_cons rfl _

mutual

/-- **The text of a value can be cut out of a longer text in one way only**, as long as no number
    goes on behind it. -/
theorem compactChars_append_inj : ∀ (a : Json) {b : Json} {x y : List Char}, a.Fits → b.Fits →
    EndsNumeral x → EndsNumeral y → a.compactChars ++ x = b.compactChars ++ y → a = b ∧ x = y
  | .null, b, x, y, ha, hb, _, _, h => by
    have hkind := kind_eq_of_append ha hb h
    cases b <;> cases hkind
    exact ⟨rfl, List.append_cancel_left h⟩
  | .bool u, b, x, y, ha, hb, _, _, h => by
    have hkind := kind_eq_of_append ha hb h
    cases b <;> cases hkind
    rename_i v
    cases u <;> cases v
    · exact ⟨rfl, List.append_cancel_left h⟩
    · exact absurd (List.cons.inj h).1 (by decide)
    · exact absurd (List.cons.inj h).1 (by decide)
    · exact ⟨rfl, List.append_cancel_left h⟩
  | .number n, b, x, y, ha, hb, hx, hy, h => by
    have hkind := kind_eq_of_append ha hb h
    cases b <;> cases hkind
    cases ha with
    | number hn =>
      cases hb with
      | number hm =>
        obtain ⟨rfl, hrest⟩ := Number.chars_append_inj hn.isFinite hm.isFinite hx hy h
        exact ⟨rfl, hrest⟩
  | .string s, b, x, y, ha, hb, _, _, h => by
    have hkind := kind_eq_of_append ha hb h
    cases b <;> cases hkind
    obtain ⟨rfl, hrest⟩ := quoted_append_inj h
    exact ⟨rfl, hrest⟩
  | .array xs, b, x, y, ha, hb, _, _, h => by
    have hkind := kind_eq_of_append ha hb h
    cases b <;> cases hkind
    cases ha with
    | array hxs =>
      cases hb with
      | array hys =>
        obtain ⟨rfl, hrest⟩ := compactItems_append_inj xs hxs hys (compactItems_of_array hxs hys h)
        exact ⟨rfl, hrest⟩
  | .object ms, b, x, y, ha, hb, _, _, h => by
    have hkind := kind_eq_of_append ha hb h
    cases b <;> cases hkind
    cases ha with
    | object hms =>
      cases hb with
      | object hns =>
        obtain ⟨rfl, hrest⟩ := compactMembers_append_inj ms hms hns (compactMembers_of_object h)
        exact ⟨rfl, hrest⟩

theorem compactItems_append_inj : ∀ (xs : List Json) {ys : List Json} {x y : List Char},
    (∀ j ∈ xs, j.Fits) → (∀ j ∈ ys, j.Fits) → compactItems xs ++ x = compactItems ys ++ y →
      xs = ys ∧ x = y
  | [], ys, x, y, _, _, h => by
    cases ys with
    | nil => exact ⟨rfl, List.append_cancel_left h⟩
    | cons q ys => exact absurd (List.cons.inj h).1 (by decide)
  | p :: xs, ys, x, y, hxs, hys, h => by
    cases ys with
    | nil => exact absurd (List.cons.inj h).1 (by decide)
    | cons q ys =>
      rw [List.forall_mem_cons] at hxs hys
      rw [compactItems, compactItems, List.cons_append, List.cons_append, List.append_assoc,
        List.append_assoc] at h
      obtain ⟨rfl, hitems⟩ := compactChars_append_inj p hxs.1 hys.1 (endsNumeral_items _ _)
        (endsNumeral_items _ _) (List.cons.inj h).2
      obtain ⟨rfl, hrest⟩ := compactItems_append_inj xs hxs.2 hys.2 hitems
      exact ⟨rfl, hrest⟩

theorem compactMembers_append_inj : ∀ (ms : List (String × Json)) {ns : List (String × Json)}
    {x y : List Char}, (∀ m ∈ ms, m.2.Fits) → (∀ n ∈ ns, n.2.Fits) →
    compactMembers ms ++ x = compactMembers ns ++ y → ms = ns ∧ x = y
  | [], ns, x, y, _, _, h => by
    cases ns with
    | nil => exact ⟨rfl, List.append_cancel_left h⟩
    | cons n ns => exact absurd (List.cons.inj h).1 (by decide)
  | (k, v) :: ms, ns, x, y, hms, hns, h => by
    cases ns with
    | nil => exact absurd (List.cons.inj h).1 (by decide)
    | cons n ns =>
      obtain ⟨l, w⟩ := n
      rw [List.forall_mem_cons] at hms hns
      simp only [compactMembers, List.cons_append, List.append_assoc] at h
      obtain ⟨rfl, hvalue⟩ := quoted_append_inj (List.cons.inj h).2
      obtain ⟨rfl, hmembers⟩ := compactChars_append_inj v hms.1 hns.1 (endsNumeral_members _ _)
        (endsNumeral_members _ _) (List.cons.inj hvalue).2
      obtain ⟨rfl, hrest⟩ := compactMembers_append_inj ms hms.2 hns.2 hmembers
      exact ⟨rfl, hrest⟩

end

/-- **Values with the same text are the same.** -/
theorem compact_inj {a b : Json} (ha : a.Fits) (hb : b.Fits) (h : a.compact = b.compact) : a = b := by
  have hchars : a.compactChars ++ [] = b.compactChars ++ [] := by
    rw [List.append_nil, List.append_nil]
    exact String.ofList_injective h
  exact (compactChars_append_inj a ha hb endsNumeral_nil endsNumeral_nil hchars).1

end Json

end GameConfig
