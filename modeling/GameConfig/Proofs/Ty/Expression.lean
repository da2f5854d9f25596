import GameConfig.Proofs.Builder.Numbers
import GameConfig.Proofs.Ty.Reading

/-
  Type expressions are read as they are written.

  The written form of a type puts the head of every container into parentheses,
  and the key type of a map as well, so nothing in tags is taken for the end of
  a part.

  * `Ty.written`: the written form, names of beans and enums given;
  * `Ty.Tidy`: tags do not contain what parts expressions, unless it is balanced;
  * `Notation.read_written`: reading the written form of such a type gives it
    back, tags in order;
  * `Builder.parse_expression`: so it does in every namespace of a builder.
-/

namespace GameConfig

open Text Notation

namespace Notation

/-! ## The written form -/

/-- A tag: key and value. -/
def tagText (t : String × String) : List Char := t.1.toList ++ '=' :: t.2.toList

/-- The tags, each behind its mark. -/
def tagsText : Tags → List Char
  | [] => []
  | t :: tags => '#' :: (tagText t ++ tagsText tags)

/-- What stands between a word and its tags. -/
def nullMark (m : Mark) : List Char := if m.nullable then ['?'] else []

/-- A word with what is written on its node. -/
def headText (word : String) (m : Mark) : List Char :=
  word.toList ++ (nullMark m ++ tagsText m.tags)

/-- Something in parentheses, a comma, and what follows. -/
def behind (inner rest : List Char) : List Char := '(' :: (inner ++ ')' :: ',' :: rest)

end Notation

/-- The written form of a type. -/
def Ty.written (nameOf : TypeRef → String) : Ty → List Char
  | .scalar m k => headText k.name m
  | .named m r => headText (nameOf r) m
  | .seq m k e => behind (headText k.name m) (e.written nameOf)
  | .map m k v => behind (headText "map" m) (behind (k.written nameOf) (v.written nameOf))

/-- The type as an expression. -/
def Ty.expression (nameOf : TypeRef → String) (ty : Ty) : String :=
  String.ofList (ty.written nameOf)

/-! ## Tags that can be written -/

/-- The key of a tag is there, trimmed and without the characters that part expressions. -/
structure TagKey (key : List Char) : Prop where
  ne_nil : key ≠ []
  trimmed : trim key = key
  free : ∀ c ∈ ['#', '=', ',', '[', ']', '(', ')'], c ∉ key

/-- The value of a tag is trimmed, begins no other tag and has balanced brackets. -/
structure TagValue (value : List Char) : Prop where
  trimmed : trim value = value
  free : '#' ∉ value
  level : Level value

instance (key : List Char) : Decidable (TagKey key) :=
  have := List.decidableBAll (· ∉ key) ['#', '=', ',', '[', ']', '(', ')']
  decidable_of_iff (key ≠ [] ∧ trim key = key ∧
      ∀ c ∈ ['#', '=', ',', '[', ']', '(', ')'], c ∉ key)
    ⟨fun h => ⟨h.1, h.2.1, h.2.2⟩, fun h => ⟨h.ne_nil, h.trimmed, h.free⟩⟩

instance (value : List Char) : Decidable (TagValue value) :=
  decidable_of_iff (trim value = value ∧ '#' ∉ value ∧ Level value)
    ⟨fun h => ⟨h.1, h.2.1, h.2.2⟩, fun h => ⟨h.trimmed, h.free, h.level⟩⟩

/-- The keys of the tags differ, and all of them can be written. -/
structure Mark.Tidy (m : Mark) : Prop where
  distinct : (Assoc.keys m.tags).Nodup
  tagKeys : ∀ t ∈ m.tags, TagKey t.1.toList
  tagValues : ∀ t ∈ m.tags, TagValue t.2.toList

instance (m : Mark) : Decidable m.Tidy :=
  decidable_of_iff ((Assoc.keys m.tags).Nodup ∧ (∀ t ∈ m.tags, TagKey t.1.toList) ∧
      ∀ t ∈ m.tags, TagValue t.2.toList)
    ⟨fun h => ⟨h.1, h.2.1, h.2.2⟩, fun h => ⟨h.distinct, h.tagKeys, h.tagValues⟩⟩

/-- The tags on every node can be written. -/
def Ty.Tidy : Ty → Prop
  | .scalar m _ | .named m _ => m.Tidy
  | .seq m _ e => m.Tidy ∧ e.Tidy
  | .map m k v => m.Tidy ∧ k.Tidy ∧ v.Tidy

instance Ty.decidableTidy : (ty : Ty) → Decidable ty.Tidy
  | .scalar m _ => inferInstanceAs (Decidable m.Tidy)
  | .named m _ => inferInstanceAs (Decidable m.Tidy)
  | .seq _ _ e =>
    have := e.decidableTidy
    inferInstanceAs (Decidable (_ ∧ _))
  | .map _ k v =>
    have := k.decidableTidy
    have := v.decidableTidy
    inferInstanceAs (Decidable (_ ∧ _ ∧ _))

namespace Notation

/-! ## Ends -/

/-- The text does not end with a blank. -/
def NoBlankEnd (cs : List Char) : Prop := ∀ c ∈ cs.getLast?, isBlank c = false

theorem noBlankEnd_of_trim {cs : List Char} (h : trim cs = cs) : NoBlankEnd cs := by
  intro c hc
  rw [← h] at hc
  exact trim_last hc

theorem NoBlankEnd.append {as bs : List Char} (ha : NoBlankEnd as) (hb : NoBlankEnd bs) :
    NoBlankEnd (as ++ bs) := by
  intro c hc
  rw [List.getLast?_append, Option.mem_def, Option.or_eq_some_iff] at hc
  rcases hc with hc | ⟨-, hc⟩
  · exact hb c hc
  · exact ha c hc

theorem NoBlankEnd.cons {c : Char} {cs : List Char} (hc : isBlank c = false) (h : NoBlankEnd cs) :
    NoBlankEnd (c :: cs) := by
  have hfirst : NoBlankEnd [c] := by
    intro d hd
    cases hd
    exact hc
  exact hfirst.append h

/-! ## Words -/

/-- Letters, digits, underscores and dots. -/
structure IsWord (w : List Char) : Prop where
  ne_nil : w ≠ []
  chars : ∀ c ∈ w, c = '.' ∨ isNameChar c = true

theorem IsWord.not_mem {w : List Char} (hw : IsWord w) {c : Char} (hdot : c ≠ '.')
    (hc : isNameChar c = false) : c ∉ w := by
  intro hmem
  rcases hw.chars c hmem with h | h
  · exact hdot h
  · rw [hc] at h
    cases h

theorem isBlank_of_isNameChar {c : Char} (h : isNameChar c = true) : isBlank c = false := by
  have hrange : 48 ≤ c.toNat ∧ c.toNat ≤ 122 := by
    simp only [isNameChar, isNameStart, Bool.or_eq_true, Bool.and_eq_true, decide_eq_true_eq,
      beq_iff_eq] at h
    rcases h with ((⟨h₁, h₂⟩ | ⟨h₁, h₂⟩) | rfl) | ⟨h₁, h₂⟩
    · have hlow : 65 ≤ c.toNat := h₁
      have hhigh : c.toNat ≤ 90 := h₂
      omega
    · have hlow : 97 ≤ c.toNat := h₁
      have hhigh : c.toNat ≤ 122 := h₂
      omega
    · decide
    · have hlow : 48 ≤ c.toNat := h₁
      have hhigh : c.toNat ≤ 57 := h₂
      omega
  simp only [isBlank, Bool.or_eq_false_iff, Bool.and_eq_false_iff, decide_eq_false_iff_not,
    beq_eq_false_iff_ne]
  omega

theorem IsWord.isBlank {w : List Char} (hw : IsWord w) {c : Char} (hc : c ∈ w) :
    isBlank c = false := by
  rcases hw.chars c hc with rfl | h
  · rfl
  · exact isBlank_of_isNameChar h

theorem IsWord.noBlankEnd {w : List Char} (hw : IsWord w) : NoBlankEnd w :=
  fun _ hc => hw.isBlank (List.mem_of_getLast? hc)

theorem IsWord.trim_append {w cs : List Char} (hw : IsWord w) (h : NoBlankEnd cs) :
    trim (w ++ cs) = w ++ cs := by
  refine trim_of_ends (fun c hc => hw.isBlank ?_) (hw.noBlankEnd.append h)
  rw [List.head?_append_of_ne_nil _ hw.ne_nil] at hc
  exact List.mem_of_head? hc

theorem IsWord.level {w : List Char} (hw : IsWord w) : Level w := by
  refine .of_free fun c hc => ?_
  simp only [List.mem_cons, List.not_mem_nil, or_false] at hc
  rcases hc with rfl | rfl | rfl | rfl <;> exact hw.not_mem (by decide) rfl

theorem isWord_of_all {w : List Char} (hne : w ≠ []) (h : w.all isNameChar = true) : IsWord w :=
  ⟨hne, fun c hc => Or.inr (List.all_eq_true.1 h c hc)⟩

theorem isWord_scalar (k : Scalar) : IsWord k.name.toList := by
  rcases k with _ | (_ | _ | _ | _) | _ | _ | _ | _ <;> exact isWord_of_all (by decide) rfl

theorem isWord_seq (k : SeqKind) : IsWord k.name.toList := by
  cases k <;> exact isWord_of_all (by decide) rfl

theorem isWord_map : IsWord "map".toList := isWord_of_all (by decide) rfl

theorem isWord_of_isFullName {w : List Char} (h : isFullName w = true) : IsWord w := by
  refine ⟨?_, fun c hc => isNameChar_of_isFullName h hc⟩
  rintro rfl
  revert h
  decide

/-! ## Tags -/

theorem level_tagsText {tags : Tags} (hk : ∀ t ∈ tags, TagKey t.1.toList)
    (hv : ∀ t ∈ tags, TagValue t.2.toList) : Level (tagsText tags) := by
  induction tags with
  | nil => exact .of_free (by simp [tagsText])
  | cons t tags ih =>
    rw [List.forall_mem_cons] at hk hv
    have hkey : Level t.1.toList := .of_free fun c hc => hk.1.free c (by simp at hc ⊢; tauto)
    have htag : Level (tagText t) := hkey.append (hv.1.level.cons (by decide))
    exact (htag.append (ih hk.2 hv.2)).cons (by decide)

theorem noBlankEnd_tagsText {tags : Tags} (hk : ∀ t ∈ tags, TagKey t.1.toList)
    (hv : ∀ t ∈ tags, TagValue t.2.toList) : NoBlankEnd (tagsText tags) := by
  induction tags with
  | nil => simp [NoBlankEnd, tagsText]
  | cons t tags ih =>
    rw [List.forall_mem_cons] at hk hv
    have hkey : NoBlankEnd t.1.toList := noBlankEnd_of_trim hk.1.trimmed
    have hvalue : NoBlankEnd ('=' :: t.2.toList) := (noBlankEnd_of_trim hv.1.trimmed).cons rfl
    exact ((hkey.append hvalue).append (ih hk.2 hv.2)).cons rfl

/-- Tags are told apart at their marks. -/
theorem pieces_tagsText {front : List Char} (hf : '#' ∉ front) {tags : Tags}
    (hk : ∀ t ∈ tags, TagKey t.1.toList) (hv : ∀ t ∈ tags, TagValue t.2.toList) :
    pieces '#' (front ++ tagsText tags) = front :: tags.map tagText := by
  induction tags generalizing front with
  | nil => simpa [tagsText] using pieces_of_not_mem hf
  | cons t tags ih =>
    rw [List.forall_mem_cons] at hk hv
    have htag : '#' ∉ tagText t := by
      simp [tagText, hk.1.free '#' (by simp), hv.1.free]
    rw [tagsText, pieces_append hf, ih htag hk.2 hv.2]
    rfl

theorem readTags_map {tags acc : Tags} (hk : ∀ t ∈ tags, TagKey t.1.toList)
    (hv : ∀ t ∈ tags, TagValue t.2.toList) (hd : (Assoc.keys (acc ++ tags)).Nodup) :
    readTags acc (tags.map tagText) = some (acc ++ tags) := by
  induction tags generalizing acc with
  | nil => simp [readTags]
  | cons t tags ih =>
    rw [List.forall_mem_cons] at hk hv
    have hcut : cut '=' (tagText t) = some (t.1.toList, t.2.toList) :=
      cut_append (hk.1.free '=' (by simp)) _
    have hnew : t.1 ∉ Assoc.keys acc := by
      rw [Assoc.keys, List.map_append, List.nodup_append] at hd
      intro hmem
      exact hd.2.2 _ hmem t.1 (by simp) rfl
    have hne : (t.1.toList).isEmpty = false := by
      simpa using hk.1.ne_nil
    rw [List.map_cons, readTags, hcut]
    simp only [hk.1.trimmed, hv.1.trimmed, hne, String.ofList_toList]
    rw [Assoc.insert_of_not_mem hnew]
    have hrest : readTags (acc ++ [t]) (tags.map tagText) = some (acc ++ [t] ++ tags) :=
      ih hk.2 hv.2 (by simpa using hd)
    simpa using hrest

/-! ## Heads -/

theorem level_nullMark (m : Mark) : Level (nullMark m) := by
  unfold nullMark
  split <;> exact .of_free (by simp)

theorem noBlankEnd_nullMark (m : Mark) : NoBlankEnd (nullMark m) := by
  intro c hc
  unfold nullMark at hc
  split at hc
  · cases hc
    rfl
  · cases hc

/-- A word ends where the marks begin. -/
theorem takeWhile_marks (m : Mark) :
    (nullMark m ++ tagsText m.tags).takeWhile (fun c => isNameChar c || c == '.') = [] := by
  unfold nullMark
  split
  · exact List.takeWhile_cons_of_neg (by decide)
  · cases m.tags with
    | nil => rfl
    | cons t tags => exact List.takeWhile_cons_of_neg (by decide)

section

variable {word : String} {m : Mark} (hw : IsWord word.toList)
include hw

theorem readName_word : readName (word.toList ++ nullMark m) = (word.toList, m.nullable) := by
  have hend : trimEnd word.toList = word.toList := trimEnd_of_getLast? hw.noBlankEnd
  unfold readName
  rw [hw.trim_append (noBlankEnd_nullMark m)]
  unfold nullMark
  cases m.nullable with
  | true => simp [hend]
  | false =>
    have hlast : word.toList.getLast? ≠ some '?' := fun h =>
      hw.not_mem (by decide) rfl (List.mem_of_getLast? h)
    rw [if_neg Bool.false_ne_true, List.append_nil]
    dsimp only
    split
    · rename_i h
      exact absurd h hlast
    · rfl

/-- The word at the start of a head is its word. -/
theorem leadingWord_headText : leadingWord (headText word m) = word.toList := by
  have hall : ∀ c ∈ word.toList, (isNameChar c || c == '.') = true := by
    intro c hc
    rcases hw.chars c hc with rfl | h
    · rfl
    · rw [h, Bool.true_or]
  show (word.toList ++ (nullMark m ++ tagsText m.tags)).takeWhile _ = _
  rw [List.takeWhile_append_of_pos hall, takeWhile_marks, List.append_nil]

variable (hm : m.Tidy)
include hm

omit hw in
theorem noBlankEnd_marks : NoBlankEnd (nullMark m ++ tagsText m.tags) :=
  (noBlankEnd_nullMark m).append (noBlankEnd_tagsText hm.tagKeys hm.tagValues)

theorem level_headText : Level (headText word m) :=
  hw.level.append ((level_nullMark m).append (level_tagsText hm.tagKeys hm.tagValues))

theorem noBlankEnd_headText : NoBlankEnd (headText word m) :=
  hw.noBlankEnd.append (noBlankEnd_marks hm)

/-- A head is read as it is written. -/
theorem readHead_headText : readHead (headText word m) = some ⟨word.toList, m⟩ := by
  have hmark : '#' ∉ word.toList ++ nullMark m := by
    rw [List.mem_append, not_or]
    refine ⟨hw.not_mem (by decide) rfl, ?_⟩
    unfold nullMark
    split <;> decide
  have hpieces : pieces '#' (headText word m) =
      (word.toList ++ nullMark m) :: m.tags.map tagText := by
    rw [headText, ← List.append_assoc]
    exact pieces_tagsText hmark hm.tagKeys hm.tagValues
  have htags : readTags [] (m.tags.map tagText) = some m.tags :=
    readTags_map hm.tagKeys hm.tagValues (by simpa using hm.distinct)
  rw [readHead, hpieces]
  simp only [readName_word hw, htags]

end

/-! ## Shapes -/

/-- A head alone has no elements. -/
theorem shape_headText {word : String} {m : Mark} (hw : IsWord word.toList)
    (hc : container? word.toList = none) :
    shape (headText word m) = .ok (.headed (headText word m) none) := by
  have hparen : '(' ∉ word.toList := hw.not_mem (by decide) rfl
  refine shape_eq_ok.2 (.alone (fun hfirst => ?_) ?_)
  · cases hword : word.toList with
    | nil => exact hw.ne_nil hword
    | cons c w =>
      rw [headText, hword] at hfirst
      cases hfirst
      exact hparen (hword ▸ List.mem_cons_self)
  · rw [leadingWord_headText hw, hc]

theorem shape_behind {inner : List Char} (h : Level inner) (rest : List Char) :
    shape (behind inner rest) = .ok (.headed inner (some rest)) :=
  shape_eq_ok.2 (.parens h.parens (trimStart_of_head _ rfl))

theorem behind_eq (inner rest : List Char) :
    behind inner rest = ('(' :: (inner ++ [')'])) ++ ',' :: rest := by
  simp [behind]

theorem level_behind {inner rest : List Char} (hi : Level inner) (hr : Level rest) :
    Level (behind inner rest) := by
  rw [behind_eq]
  exact hi.enclose.append (hr.cons (by decide))

theorem noBlankEnd_behind {inner rest : List Char} (hr : NoBlankEnd rest) :
    NoBlankEnd (behind inner rest) := by
  rw [behind_eq]
  exact (noBlankEnd_of_trim (trim_parens inner)).append (hr.cons rfl)

theorem trim_behind (inner : List Char) {rest : List Char} (hr : NoBlankEnd rest) :
    trim (behind inner rest) = behind inner rest := by
  refine trim_of_ends ?_ (noBlankEnd_behind hr)
  rintro _ ⟨⟩
  rfl

/-- A key in parentheses is split off. -/
theorem splitTop_behind {key value : List Char} (hk : Level key) (hv : trim value = value) :
    splitTop (behind key value) = some ('(' :: (key ++ [')']), value) := by
  rw [behind, splitTop, splitAt?_parens hk]
  simp only [trim_parens, hv]

/-! ## Expressions -/

section

variable {scope : Scope}

theorem read_headText {word : String} {m : Mark} (hw : IsWord word.toList) (hm : m.Tidy)
    (hc : container? word.toList = none) :
    read scope (headText word m) = leaf scope m word.toList := by
  have htrim : trim (headText word m) = headText word m :=
    hw.trim_append (noBlankEnd_marks hm)
  refine read_name (h := ⟨word.toList, m⟩) ?_ (readHead_headText hw hm) ?_
  · rw [htrim]
    exact shape_headText hw hc
  · rw [htrim, headText, ne_eq, List.append_eq_nil_iff]
    exact fun h => hw.ne_nil h.1

theorem shape_trim_behind {inner rest : List Char} (hi : Level inner) (hr : NoBlankEnd rest) :
    shape (trim (behind inner rest)) = .ok (.headed inner (some rest)) := by
  rw [trim_behind inner hr]
  exact shape_behind hi rest

theorem read_behind_seq {m : Mark} {k : SeqKind} {rest : List Char} {elem : Ty} (hm : m.Tidy)
    (hr : NoBlankEnd rest) (he : read scope rest = .ok elem) :
    read scope (behind (headText k.name m) rest) = .ok (.seq m k elem) := by
  have hs := shape_trim_behind (level_headText (isWord_seq k) hm) hr
  have hc : container? k.name.toList = some (.seq k) := by cases k <;> rfl
  exact read_seq hs (readHead_headText (isWord_seq k) hm) hc he

theorem read_behind_map {m : Mark} {key value : List Char} {k v : Ty} (hm : m.Tidy)
    (hk : Level key) (hv : trim value = value) (hrk : read scope key = .ok k)
    (hrv : read scope value = .ok v) :
    read scope (behind (headText "map" m) (behind key value)) = .ok (.map m k v) := by
  have hend : NoBlankEnd (behind key value) := noBlankEnd_behind (noBlankEnd_of_trim hv)
  have hs := shape_trim_behind (level_headText isWord_map hm) hend
  exact read_map hs (readHead_headText isWord_map hm) rfl (splitTop_behind hk hv)
    ((read_parens hk.parens).trans hrk) hrv

end

end Notation

/-! ## Types -/

/-- The beans and enums that a type names. -/
def Ty.refs : Ty → List TypeRef
  | .scalar _ _ => []
  | .named _ ref => [ref]
  | .seq _ _ e => e.refs
  | .map _ k v => k.refs ++ v.refs

namespace Notation

/-- The words that a type expression does not take for names. -/
def typeWords : List String := Scalar.all.map Scalar.name ++ ["array", "list", "set", "map"]

/-- A name can stand in a type expression. -/
structure IsTypeName (name : String) : Prop where
  full : isFullName name.toList = true
  free : name ∉ typeWords

instance (name : String) : Decidable (IsTypeName name) :=
  decidable_of_iff (isFullName name.toList = true ∧ name ∉ typeWords)
    ⟨fun h => ⟨h.1, h.2⟩, fun h => ⟨h.full, h.free⟩⟩

theorem IsTypeName.isWord {name : String} (h : IsTypeName name) : IsWord name.toList :=
  isWord_of_isFullName h.full

theorem IsTypeName.ne_word {name w : String} (h : IsTypeName name) (hw : w ∈ typeWords) :
    name.toList ≠ w.toList := by
  intro heq
  rw [String.toList_inj.1 heq] at h
  exact h.free hw

theorem IsTypeName.container? {name : String} (h : IsTypeName name) :
    container? name.toList = none := by
  have harray : name.toList ≠ ['a', 'r', 'r', 'a', 'y'] := h.ne_word (w := "array") (by decide)
  have hlist : name.toList ≠ ['l', 'i', 's', 't'] := h.ne_word (w := "list") (by decide)
  have hset : name.toList ≠ ['s', 'e', 't'] := h.ne_word (w := "set") (by decide)
  have hmap : name.toList ≠ ['m', 'a', 'p'] := h.ne_word (w := "map") (by decide)
  rw [Notation.container?, if_neg harray, if_neg hlist, if_neg hset, if_neg hmap]

theorem IsTypeName.scalar? {name : String} (h : IsTypeName name) : scalar? name.toList = none := by
  refine List.find?_eq_none.2 fun s hs hname => ?_
  have hword : s.name ∈ typeWords := List.mem_append_left _ (List.mem_map_of_mem hs)
  exact h.ne_word hword (of_decide_eq_true hname).symm

theorem leaf_scalar (scope : Scope) (m : Mark) (k : Scalar) :
    leaf scope m k.name.toList = .ok (.scalar m k) := by
  rcases k with _ | (_ | _ | _ | _) | _ | _ | _ | _ <;> rfl

theorem container?_scalar (k : Scalar) : container? k.name.toList = none := by
  rcases k with _ | (_ | _ | _ | _) | _ | _ | _ | _ <;> rfl

theorem leaf_named {scope : Scope} {name : String} {ref : TypeRef} (h : IsTypeName name)
    (hr : scope.resolve name = some ref) (m : Mark) :
    leaf scope m name.toList = .ok (.named m ref) := by
  refine leaf_eq_ok.2 (Or.inr ⟨h.scalar?, h.container?, h.full, ref, ?_, rfl⟩)
  rw [String.ofList_toList]
  exact hr

section

variable {nameOf : TypeRef → String} {ty : Ty}

/-- A written type closes what it opens and does not end with a blank. -/
theorem written_level (hn : ∀ r ∈ ty.refs, IsTypeName (nameOf r)) (ht : ty.Tidy) :
    Level (ty.written nameOf) ∧ NoBlankEnd (ty.written nameOf) := by
  induction ty with
  | scalar m k =>
    have hw := isWord_scalar k
    exact ⟨level_headText hw ht, noBlankEnd_headText hw ht⟩
  | named m r =>
    have hw := (hn r (List.mem_singleton_self r)).isWord
    exact ⟨level_headText hw ht, noBlankEnd_headText hw ht⟩
  | seq m k e ih =>
    obtain ⟨hlevel, hend⟩ := ih hn ht.2
    exact ⟨level_behind (level_headText (isWord_seq k) ht.1) hlevel, noBlankEnd_behind hend⟩
  | map m k v ihk ihv =>
    obtain ⟨hk, -⟩ := ihk (fun r hr => hn r (List.mem_append_left _ hr)) ht.2.1
    obtain ⟨hv, hend⟩ := ihv (fun r hr => hn r (List.mem_append_right _ hr)) ht.2.2
    exact ⟨level_behind (level_headText isWord_map ht.1) (level_behind hk hv),
      noBlankEnd_behind (noBlankEnd_behind hend)⟩

theorem trim_written (hn : ∀ r ∈ ty.refs, IsTypeName (nameOf r)) (ht : ty.Tidy) :
    trim (ty.written nameOf) = ty.written nameOf := by
  have hend := (written_level hn ht).2
  cases ty with
  | scalar m k => exact (isWord_scalar k).trim_append (noBlankEnd_marks ht)
  | named m r => exact (hn r (List.mem_singleton_self r)).isWord.trim_append (noBlankEnd_marks ht)
  | seq m k e =>
    refine trim_of_ends ?_ hend
    rintro _ ⟨⟩
    rfl
  | map m k v =>
    refine trim_of_ends ?_ hend
    rintro _ ⟨⟩
    rfl

/-- **A type is read as it is written**, tags in order, where the names of its beans and enums
    resolve to them. -/
theorem read_written {scope : Scope} (hn : ∀ r ∈ ty.refs, IsTypeName (nameOf r))
    (hr : ∀ r ∈ ty.refs, scope.resolve (nameOf r) = some r) (ht : ty.Tidy) :
    read scope (ty.written nameOf) = .ok ty := by
  induction ty with
  | scalar m k =>
    rw [Ty.written, read_headText (isWord_scalar k) ht (container?_scalar k), leaf_scalar]
  | named m r =>
    have hname := hn r (List.mem_singleton_self r)
    rw [Ty.written, read_headText hname.isWord ht hname.container?,
      leaf_named hname (hr r (List.mem_singleton_self r))]
  | seq m k e ih =>
    have hne : ∀ r ∈ e.refs, IsTypeName (nameOf r) := hn
    exact read_behind_seq ht.1 (written_level hne ht.2).2 (ih hne hr ht.2)
  | map m k v ihk ihv =>
    have hnk : ∀ r ∈ k.refs, IsTypeName (nameOf r) := fun r h => hn r (List.mem_append_left _ h)
    have hnv : ∀ r ∈ v.refs, IsTypeName (nameOf r) := fun r h => hn r (List.mem_append_right _ h)
    exact read_behind_map ht.1 (written_level hnk ht.2.1).1 (trim_written hnv ht.2.2)
      (ihk hnk (fun r h => hr r (List.mem_append_left _ h)) ht.2.1)
      (ihv hnv (fun r h => hr r (List.mem_append_right _ h)) ht.2.2)

end

end Notation

namespace Builder

/-- The name of a bean or enum that the builder has. -/
def nameOf (b : Builder) (ref : TypeRef) : String := (b.nameOf? ref).getD ""

theorem findType?_of_reserved {b : Builder} {n : String} {ref : TypeRef}
    (h : Assoc.find? n b.names = some ref) (space : Option String) :
    b.findType? n space = some ref := by
  unfold findType? Names.lookup
  rw [h]

/-- **Type expressions are read as they are written**: in every namespace of every builder, as
    long as no name it gave out is a word for a type. -/
theorem parse_expression (h : History)
    (hnames : ∀ n ref, Assoc.find? n (run h).names = some ref → IsTypeName n) {ty : Ty}
    (hrefs : ∀ r ∈ ty.refs, ∃ n, Assoc.find? n (run h).names = some r) (ht : ty.Tidy)
    (space context : String) :
    Ty.parse ((run h).scope space context) (ty.expression (run h).nameOf) = .ok ty := by
  have hname : ∀ r ∈ ty.refs, Assoc.find? ((run h).nameOf r) (run h).names = some r := by
    intro r hr
    obtain ⟨n, hn⟩ := hrefs r hr
    rw [nameOf, run_labelled h n r hn]
    exact hn
  rw [Ty.parse, Ty.expression, String.toList_ofList]
  exact Notation.read_written (fun r hr => hnames _ r (hname r hr))
    (fun r hr => findType?_of_reserved (hname r hr) (some space)) ht

/-- A map with tags on every node, from an enum in its namespace to lists of a bean. -/
theorem parse_expression_map :
    let h : History := [.enumId "item.Quality", .beanId "Reward"]
    let quality : Ty := .named ⟨false, [("set", "1,2"), ("note", "")]⟩ (.enum 0)
    let rewards : Ty :=
      .seq ⟨true, [("size", "[1,(2)]")]⟩ .list (.named ⟨true, [("ref", "x=y")]⟩ (.bean 0))
    let ty : Ty := .map ⟨true, [("index", "(a),[b]"), ("range", "[0,9]")]⟩ quality rewards
    ty.expression (run h).nameOf =
        "(map?#index=(a),[b]#range=[0,9]),(item.Quality#set=1,2#note=)," ++
          "(list?#size=[1,(2)]),Reward?#ref=x=y" ∧
      Ty.parse ((run h).scope "item" "") (ty.expression (run h).nameOf) = .ok ty := by
  intro h quality rewards ty
  have hnames : ∀ e ∈ (run h).names, IsTypeName e.1 := by decide
  have hrefs : ∀ r ∈ ty.refs, ∃ n, Assoc.find? n (run h).names = some r := by
    intro r hr
    rcases List.mem_cons.1 hr with rfl | hr
    · exact ⟨"item.Quality", rfl⟩
    · cases List.mem_singleton.1 hr
      exact ⟨"Reward", rfl⟩
  exact ⟨by decide, parse_expression h (fun n ref hn => hnames _ (Assoc.mem_of_find? hn)) hrefs
    (by decide) "item" ""⟩

end Builder

end GameConfig
