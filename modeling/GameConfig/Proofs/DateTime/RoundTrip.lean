import GameConfig.DateTime.Reader
import GameConfig.Proofs.Number.Digits

/-
  Dates and times are read as they are written.

  The written form fits the first spelling, part by part, whatever the year: it
  has four digits, or a sign that lets it have more.

  * `read?_toText`: reading the written form of a date and time that exists
    gives it back;
  * `isValid_of_read?`: whatever is read exists, also when an offset moves it
    over the end of a day;
  * `read?_canonical`: so every spelling has a canonical form.
-/

namespace GameConfig

open Numeral Text

-- powers are those of the core library, whatever algebra is imported
attribute [local instance (high)] instPowNat

namespace DateTime

/-! ## Digits -/

/-- Digits are read up to what is no digit, or up to the width. -/
theorem digits?_append {w : Nat} {ds : List Char} (rest : List Char) (hd : ∀ c ∈ ds, isDigit c = true)
    (hne : ds ≠ []) (hlen : ds.length ≤ w)
    (hr : ds.length = w ∨ ∀ c ∈ rest.head?, isDigit c = false) :
    digits? w (ds ++ rest) = some (ds, rest) := by
  have htake : ((ds ++ rest).take w).takeWhile isDigit = ds := by
    rw [List.take_append, List.take_of_length_le hlen, List.takeWhile_append_of_pos hd]
    have hnil : (rest.take (w - ds.length)).takeWhile isDigit = [] := by
      rcases hr with h | h
      · simp [h]
      · cases rest with
        | nil => simp
        | cons c rest =>
          cases w - ds.length with
          | zero => rfl
          | succ n => simp [h c rfl]
    rw [hnil, List.append_nil]
  simp [digits?, htake, hne]

/-- A number is read as it is written in a fixed width. -/
theorem number?_padded {w low high n : Nat} (rest : List Char) (hw : 0 < w) (hn : n < 10 ^ w)
    (hlow : low ≤ n) (hhigh : n ≤ high) :
    number? w low high (padded w n ++ rest) = some (n, rest) := by
  have hlen := length_padded hw hn
  have hds := digits?_append rest (fun c hc => isDigit_of_mem_padded hc)
    (padded_ne_nil w n) (Nat.le_of_eq hlen) (Or.inl hlen)
  simp [number?, hds, digitsValue_padded, hlow, hhigh]

/-- White space is not skipped in front of a number. -/
theorem trimStart_padded (w n : Nat) (rest : List Char) :
    trimStart (padded w n ++ rest) = padded w n ++ rest := by
  cases h : padded w n with
  | nil => exact absurd h (padded_ne_nil w n)
  | cons c cs =>
    exact trimStart_of_head _ (isBlank_of_isDigit (isDigit_of_mem_padded (h ▸ List.mem_cons_self ..)))

theorem trimStart_yearChars (y : Int) (rest : List Char) :
    trimStart (yearChars y ++ rest) = yearChars y ++ rest := by
  unfold yearChars
  split
  · exact trimStart_of_head _ (by decide)
  split
  · exact trimStart_of_head _ (by decide)
  · exact trimStart_padded 4 _ rest

/-- A year is read as it is written, however many digits it has. -/
theorem year?_yearChars (y : Int) {rest : List Char} (hr : ∀ c ∈ rest.head?, isDigit c = false) :
    year? (yearChars y ++ rest) = some (y, rest) := by
  have hdigits : ∀ cs : List Char, cs = padded 4 y.natAbs ++ rest →
      digits? cs.length cs = some (padded 4 y.natAbs, rest) := by
    rintro cs rfl
    exact digits?_append rest (fun c hc => isDigit_of_mem_padded hc) (padded_ne_nil 4 _) (by simp)
      (Or.inr hr)
  unfold yearChars
  split
  · rename_i hneg
    simp only [List.cons_append, year?, hdigits _ rfl, Option.map_some, digitsValue_padded,
      Option.some.injEq, Prod.mk.injEq, and_true]
    omega
  split
  · rename_i hpos hlarge
    simp only [List.cons_append, year?, hdigits _ rfl, Option.map_some, digitsValue_padded,
      Option.some.injEq, Prod.mk.injEq, and_true]
    omega
  · rename_i hpos hsmall
    have hlen : (padded 4 y.natAbs).length = 4 := length_padded (by decide) (by omega)
    have hds := digits?_append rest (fun c hc => isDigit_of_mem_padded hc)
      (padded_ne_nil 4 y.natAbs) (Nat.le_of_eq hlen) (Or.inl hlen)
    -- the first digit is no sign
    have hfirst : year? (padded 4 y.natAbs ++ rest) =
        (digits? 4 (padded 4 y.natAbs ++ rest)).map fun p =>
          ((digitsValue 0 p.1 : Int), p.2) := by
      cases h : padded 4 y.natAbs with
      | nil => exact absurd h (padded_ne_nil 4 _)
      | cons c cs =>
        have hc : isDigit c = true := isDigit_of_mem_padded (h ▸ List.mem_cons_self ..)
        unfold year?
        split
        · rename_i heq
          cases heq
          cases hc
        · rename_i heq
          cases heq
          cases hc
        · rfl
    rw [hfirst, hds]
    simp only [Option.map_some, digitsValue_padded, Option.some.injEq, Prod.mk.injEq, and_true]
    omega

theorem nano?_padded {k m : Nat} (hk : 0 < k) (hk' : k ≤ 9) (hm : m < 10 ^ k) :
    nano? (padded k m) = some (m * 10 ^ (9 - k), []) := by
  have hlen := length_padded hk hm
  have hds := digits?_append (w := 9) [] (fun c hc => isDigit_of_mem_padded hc)
    (padded_ne_nil k m) (by omega) (Or.inr (by simp))
  rw [List.append_nil] at hds
  simp [nano?, hds, digitsValue_padded, hlen]

/-! ## The written form -/

/-- What holds of a date and a time that exist. -/
structure Exists (t : DateTime) : Prop where
  year : minYear ≤ t.year ∧ t.year ≤ maxYear
  month : 1 ≤ t.month ∧ t.month ≤ 12
  day : 1 ≤ t.day ∧ t.day ≤ daysIn t.year t.month
  hour : t.hour < 24
  minute : t.minute < 60
  second : t.second ≤ 60
  nano : t.nano < 1000000000

theorem isValid_iff {t : DateTime} : t.isValid = true ↔ t.Exists := by
  simp only [isValid, isDate, Bool.and_eq_true, decide_eq_true_eq]
  constructor
  · rintro ⟨⟨⟨⟨⟨⟨⟨⟨⟨h₁, h₂⟩, h₃⟩, h₄⟩, h₅⟩, h₆⟩, h₇⟩, h₈⟩, h₉⟩, h₁₀⟩
    exact ⟨⟨h₁, h₂⟩, ⟨h₃, h₄⟩, ⟨h₅, h₆⟩, h₇, h₈, h₉, h₁₀⟩
  · rintro ⟨⟨h₁, h₂⟩, ⟨h₃, h₄⟩, ⟨h₅, h₆⟩, h₇, h₈, h₉, h₁₀⟩
    exact ⟨⟨⟨⟨⟨⟨⟨⟨⟨h₁, h₂⟩, h₃⟩, h₄⟩, h₅⟩, h₆⟩, h₇⟩, h₈⟩, h₉⟩, h₁₀⟩

theorem daysIn_le (y : Int) (m : Nat) : daysIn y m ≤ 31 := by
  unfold daysIn
  split
  · split <;> omega
  · split <;> omega

theorem daysIn_pos (y : Int) (m : Nat) : 28 ≤ daysIn y m := by
  unfold daysIn
  split
  · split <;> omega
  · split <;> omega

section
variable (t : DateTime) {n : Nat} (rest : List Char)

theorem readPart?_year (y : Int) (hr : ∀ c ∈ rest.head?, isDigit c = false) :
    readPart? t (yearChars y ++ rest) .year = some ({ t with year := y }, rest) := by
  rw [readPart?, trimStart_yearChars, year?_yearChars y hr]; rfl

theorem readPart?_month (h : 1 ≤ n ∧ n ≤ 12) :
    readPart? t (padded 2 n ++ rest) .month = some ({ t with month := n }, rest) := by
  rw [readPart?, trimStart_padded, number?_padded rest (by decide) (by omega) h.1 h.2]; rfl

theorem readPart?_day (h : 1 ≤ n ∧ n ≤ 31) :
    readPart? t (padded 2 n ++ rest) .day = some ({ t with day := n }, rest) := by
  rw [readPart?, trimStart_padded, number?_padded rest (by decide) (by omega) h.1 h.2]; rfl

theorem readPart?_hour (h : n < 24) :
    readPart? t (padded 2 n ++ rest) .hour = some ({ t with hour := n }, rest) := by
  rw [readPart?, trimStart_padded,
    number?_padded rest (by decide) (by omega) (Nat.zero_le n) (by omega)]; rfl

theorem readPart?_minute (h : n < 60) :
    readPart? t (padded 2 n ++ rest) .minute = some ({ t with minute := n }, rest) := by
  rw [readPart?, trimStart_padded,
    number?_padded rest (by decide) (by omega) (Nat.zero_le n) (by omega)]; rfl

theorem readPart?_second (h : n ≤ 60) :
    readPart? t (padded 2 n ++ rest) .second = some ({ t with second := n }, rest) := by
  rw [readPart?, trimStart_padded,
    number?_padded rest (by decide) (by omega) (Nat.zero_le n) h]; rfl

theorem readPart?_mark (c : Char) : readPart? t (c :: rest) (.mark c) = some (t, rest) := by
  simp [readPart?]

theorem readPart?_gap : readPart? t (' ' :: (padded 2 n ++ rest)) .gap =
    some (t, padded 2 n ++ rest) := by
  have h : trimStart (' ' :: (padded 2 n ++ rest)) = trimStart (padded 2 n ++ rest) := rfl
  rw [readPart?, h, trimStart_padded]

/-- A fraction is read as it is written; none means zero. -/
theorem readPart?_fraction (hz : t.nano = 0) (hn : n < 1000000000) :
    readPart? t (fractionChars n) .fraction = some ({ t with nano := n }, []) := by
  have hdigits : ∀ k m, 0 < k → k ≤ 9 → m < 10 ^ k → m * 10 ^ (9 - k) = n →
      readPart? t ('.' :: padded k m) .fraction = some ({ t with nano := n }, []) := by
    intro k m hk hk' hm he
    rw [readPart?, nano?_padded hk hk' hm, he]; rfl
  unfold fractionChars
  split
  · rename_i h
    obtain ⟨y, mo, d, ho, mi, se, na⟩ := t
    cases hz
    rw [h]; rfl
  split
  · exact hdigits 3 _ (by decide) (by decide) (by omega) (by omega)
  split
  · exact hdigits 6 _ (by decide) (by decide) (by omega) (by omega)
  · exact hdigits 9 _ (by decide) (by decide) (by omega) (by omega)

end

/-- **The written form fits the first spelling.** -/
theorem readParts?_chars {t : DateTime} (ht : t.isValid = true) :
    readParts? blank t.chars (fullParts '-') = some t := by
  have he := isValid_iff.1 ht
  have hday : 1 ≤ t.day ∧ t.day ≤ 31 := ⟨he.day.1, Nat.le_trans he.day.2 (daysIn_le t.year t.month)⟩
  have hyear : ∀ rest : List Char, ∀ c ∈ ('-' :: rest).head?, isDigit c = false := by
    rintro rest c ⟨⟩
    decide
  simp only [chars, dateChars, timeChars, fullParts, dateParts, List.append_assoc,
    List.cons_append, List.nil_append, readParts?, readPart?_year _ _ _ (hyear _), readPart?_mark,
    readPart?_month _ _ he.month, readPart?_day _ _ hday, readPart?_gap,
    readPart?_hour _ _ he.hour, readPart?_minute _ _ he.minute, readPart?_second _ _ he.second]
  have hfraction := readPart?_fraction
    ⟨t.year, t.month, t.day, t.hour, t.minute, t.second, blank.nano⟩ rfl he.nano
  simp [hfraction, ht]

/-- The written form begins and ends with what is no white space. -/
theorem trim_chars (t : DateTime) : trim t.chars = t.chars := by
  have hstart : trimStart t.chars = t.chars := by
    simp only [chars, dateChars, List.append_assoc]
    exact trimStart_yearChars t.year _
  have hend : ∃ cs w n, t.chars = cs ++ padded w n := by
    have hf : fractionChars t.nano = [] ∨ ∃ w n, fractionChars t.nano = '.' :: padded w n := by
      unfold fractionChars
      split
      · exact Or.inl rfl
      split
      · exact Or.inr ⟨_, _, rfl⟩
      split <;> exact Or.inr ⟨_, _, rfl⟩
    rcases hf with hf | ⟨w, n, hf⟩
    · exact ⟨t.dateChars ++ ' ' :: (padded 2 t.hour ++ ':' :: padded 2 t.minute ++ [':']), 2,
        t.second, by simp [chars, timeChars, hf]⟩
    · exact ⟨t.dateChars ++ ' ' :: (padded 2 t.hour ++ ':' :: padded 2 t.minute ++
        ':' :: padded 2 t.second ++ ['.']), w, n, by simp [chars, timeChars, hf]⟩
  obtain ⟨cs, w, n, hcs⟩ := hend
  obtain ⟨ds, c, hds⟩ := List.eq_nil_or_concat (padded w n) |>.resolve_left (padded_ne_nil w n)
  have hc : isBlank c = false :=
    isBlank_of_isDigit (isDigit_of_mem_padded (w := w) (n := n) (by simp [hds]))
  have hlast := trimEnd_of_last (cs ++ ds) hc
  rw [List.append_assoc, ← List.concat_eq_append, ← hds, ← hcs] at hlast
  rw [trim, hstart, hlast]

/-- **A date and time that exists is read as it is written.** -/
theorem read?_toText {t : DateTime} (ht : t.isValid = true) : read? t.toText = some t := by
  have h : readAny? timeSpellings t.chars = some t := by
    simp [readAny?, timeSpellings, readParts?_chars ht]
  simp [read?, toText, trim_chars, readTrimmed?, h]

/-! ## What is read exists -/

theorem daysIn_december (y : Int) : daysIn y 12 = 31 := rfl

theorem Exists.nextDay {t : DateTime} (h : t.Exists) (hy : t.year < maxYear) :
    t.nextDay.Exists := by
  obtain ⟨hyear, hmonth, hday, hh, hm, hs, hn⟩ := h
  unfold DateTime.nextDay
  split
  · refine ⟨hyear, hmonth, ?_, hh, hm, hs, hn⟩
    dsimp only
    omega
  split
  · have hlen := daysIn_pos t.year (t.month + 1)
    refine ⟨hyear, ?_, ?_, hh, hm, hs, hn⟩ <;> dsimp only <;> omega
  · have hlen := daysIn_pos (t.year + 1) 1
    refine ⟨?_, ?_, ?_, hh, hm, hs, hn⟩ <;> dsimp only <;> omega

theorem Exists.previousDay {t : DateTime} (h : t.Exists) (hy : minYear < t.year) :
    t.previousDay.Exists := by
  obtain ⟨hyear, hmonth, hday, hh, hm, hs, hn⟩ := h
  unfold DateTime.previousDay
  split
  · refine ⟨hyear, hmonth, ?_, hh, hm, hs, hn⟩
    dsimp only
    omega
  split
  · have hlen := daysIn_pos t.year (t.month - 1)
    refine ⟨hyear, ?_, ?_, hh, hm, hs, hn⟩ <;> dsimp only <;> omega
  · have hlen := daysIn_december (t.year - 1)
    refine ⟨?_, ?_, ?_, hh, hm, hs, hn⟩ <;> dsimp only <;> omega

/-- A shift within a day leads from a time that exists to one, away from the ends of the range
    of years. -/
theorem Exists.shift {t : DateTime} (h : t.Exists) (hlow : minYear < t.year)
    (hhigh : t.year < maxYear) (minutes : Int) : (t.shift minutes).Exists := by
  have hday : ∀ {u : DateTime}, u.Exists → ∀ n : Nat, n < 1440 →
      Exists { u with hour := n / 60, minute := n % 60 } := by
    intro u hu n hn
    exact ⟨hu.year, hu.month, hu.day, by show n / 60 < 24; omega,
      Nat.mod_lt _ (by decide), hu.second, hu.nano⟩
  unfold DateTime.shift
  dsimp only
  split
  · exact hday (h.previousDay hlow) _ (by omega)
  split
  · exact hday (h.nextDay hhigh) _ (by omega)
  · exact hday h _ (by omega)

theorem isValid_of_readParts? {t u : DateTime} {cs : List Char} {ps : List Part}
    (h : readParts? t cs ps = some u) : u.isValid = true := by
  induction ps generalizing t cs with
  | nil =>
    unfold readParts? at h
    split at h
    · rename_i hv
      cases h
      exact (Bool.and_eq_true_iff.1 hv).2
    · cases h
  | cons p ps ih =>
    unfold readParts? at h
    split at h
    · exact ih h
    · cases h

theorem isValid_of_readAny? {spellings : List (List Part)} {cs : List Char} {u : DateTime}
    (h : readAny? spellings cs = some u) : u.isValid = true := by
  obtain ⟨ps, -, hps⟩ := List.exists_of_findSome?_eq_some h
  exact isValid_of_readParts? hps

theorem fixed?_bounds {w low high n : Nat} {cs rest : List Char}
    (h : fixed? w low high cs = some (n, rest)) : low ≤ n ∧ n ≤ high := by
  unfold fixed? at h
  dsimp only at h
  split at h
  · split at h
    · rename_i hb
      cases h
      simpa using hb
    · cases h
  · cases h

theorem isValid_of_readWithOffset? {cs : List Char} {u : DateTime}
    (h : readWithOffset? cs = some u) : u.isValid = true := by
  unfold readWithOffset? at h
  obtain ⟨⟨year, cs⟩, hyear, h⟩ := Option.bind_eq_some_iff.1 h
  obtain ⟨cs, -, h⟩ := Option.bind_eq_some_iff.1 h
  obtain ⟨⟨month, cs⟩, -, h⟩ := Option.bind_eq_some_iff.1 h
  obtain ⟨cs, -, h⟩ := Option.bind_eq_some_iff.1 h
  obtain ⟨⟨day, cs⟩, -, h⟩ := Option.bind_eq_some_iff.1 h
  obtain ⟨cs, -, h⟩ := Option.bind_eq_some_iff.1 h
  obtain ⟨⟨hour, cs⟩, -, h⟩ := Option.bind_eq_some_iff.1 h
  obtain ⟨cs, -, h⟩ := Option.bind_eq_some_iff.1 h
  obtain ⟨⟨minute, cs⟩, -, h⟩ := Option.bind_eq_some_iff.1 h
  obtain ⟨cs, -, h⟩ := Option.bind_eq_some_iff.1 h
  obtain ⟨⟨second, cs⟩, -, h⟩ := Option.bind_eq_some_iff.1 h
  have hy := fixed?_bounds hyear
  have hend : ∀ (nano : Nat) (cs : List Char), ((offset? cs).bind fun o =>
      if (o.2.isEmpty && isValid ⟨year, month, day, hour, minute, second, nano⟩) = true then
        some (shift ⟨year, month, day, hour, minute, second, nano⟩ (-o.1)) else none) = some u →
      u.isValid = true := by
    intro nano cs ho
    obtain ⟨o, -, ho⟩ := Option.bind_eq_some_iff.1 ho
    split at ho
    · rename_i hv
      cases ho
      have he := isValid_iff.1 (Bool.and_eq_true_iff.1 hv).2
      refine isValid_iff.2 (he.shift ?_ ?_ _) <;> simp only [minYear, maxYear] <;> omega
    · cases ho
  dsimp only at h
  split at h
  · obtain ⟨n, -, ho⟩ := Option.bind_eq_some_iff.1 h
    exact hend n.1 n.2 ho
  · exact hend 0 cs h

/-- **Whatever is read exists.** -/
theorem isValid_of_read? {s : String} {u : DateTime} (h : read? s = some u) :
    u.isValid = true := by
  unfold read? readTrimmed? at h
  split at h
  · cases h
    exact isValid_of_readAny? ‹_›
  split at h
  · cases h
    exact isValid_of_readAny? ‹_›
  split at h
  · rename_i hh
    cases h
    unfold readHour? at hh
    split at hh
    · split at hh
      · exact isValid_of_readAny? hh
      · cases hh
    · cases hh
  · exact isValid_of_readWithOffset? h

/-! ## The canonical form -/

/-- **Every spelling has a stable canonical form.**  The written form of what was read is taken
    by the first spelling and read as the same date and time; two texts have the same one only
    if they are read as the same. -/
theorem read?_canonical {s : String} {t : DateTime} (h : read? s = some t) :
    readParts? blank (trim t.toText.toList) (fullParts '-') = some t ∧
      read? t.toText = some t ∧
      ∀ s' t', read? s' = some t' → t'.toText = t.toText → t' = t := by
  have hvalid := isValid_of_read? h
  refine ⟨?_, read?_toText hvalid, fun s' t' h' htext => ?_⟩
  · rw [toText, String.toList_ofList, trim_chars, readParts?_chars hvalid]
  · have hread := read?_toText (isValid_of_read? h')
    rw [htext, read?_toText hvalid] at hread
    exact (Option.some.inj hread).symm

/-- A leap second with an offset that leads to the year before the year zero. -/
theorem read?_canonical_offset :
    let t : DateTime := ⟨-1, 12, 31, 23, 30, 60, 500000000⟩
    read? "0000-01-01T00:30:60.5+01:00" = some t ∧ t.toText = "-0001-12-31 23:30:60.500" ∧
      read? "-0001-12-31 23:30:60.500" = some t := by
  intro t
  have h : read? "0000-01-01T00:30:60.5+01:00" = some t := by decide
  have htext : t.toText = "-0001-12-31 23:30:60.500" := by decide
  obtain ⟨-, hread, -⟩ := read?_canonical h
  exact ⟨h, htext, htext ▸ hread⟩

end DateTime

end GameConfig
