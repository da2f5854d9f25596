import GameConfig.Proofs.Ty.Nesting
import GameConfig.Proofs.Ty.Reading
import Mathlib

/-
  Parentheses around a whole type expression.

  The parenthesis that closes the first one is found by counting parentheses,
  those in the values of tags as well.  So parentheses around an expression are
  neutral if those in it are balanced (`read_parens`), and an expression that
  leaves one open, as a half-open interval does, cannot be put into parentheses
  at all (`read_parens_open`).

  Where one is closed too early, what stands before it is taken for the head of
  a container.  If no key of a tag comes twice in a head, a type has a tag for
  every `#` of its expression, and its tags tell where its head ended; so the
  type that comes out is another one (`Reads.balanced`).  `Ty.parse_parens` puts
  this together.
-/

namespace GameConfig

open Text

/-! ## Counting characters -/

namespace Text

variable {c : Char} (hc : isBlank c = false)
include hc

theorem count_of_blank {cs : List Char} (h : ∀ d ∈ cs, isBlank d = true) : cs.count c = 0 := by
  refine List.count_eq_zero_of_not_mem fun hm => ?_
  rw [h c hm] at hc
  cases hc

theorem count_trimStart (cs : List Char) : (trimStart cs).count c = cs.count c := by
  obtain ⟨front, hcs, hblank⟩ := exists_trimStart cs
  have hcount := congrArg (List.count c) hcs
  rw [List.count_append, count_of_blank hc hblank, Nat.zero_add] at hcount
  exact hcount.symm

theorem count_trim (cs : List Char) : (trim cs).count c = cs.count c := by
  obtain ⟨front, back, hcs, hfront, hback⟩ := exists_trim cs
  have hcount := congrArg (List.count c) hcs
  rw [List.count_append, List.count_append, count_of_blank hc hfront, count_of_blank hc hback,
    Nat.zero_add, Nat.add_zero] at hcount
  exact hcount.symm

theorem count_trimEnd (cs : List Char) : (trimEnd cs).count c = cs.count c := by
  rw [trimEnd, List.count_reverse]
  exact (count_trimStart hc cs.reverse).trans List.count_reverse

omit hc in
theorem length_pieces (sep : Char) (cs : List Char) :
    (pieces sep cs).length = cs.count sep + 1 := by
  induction cs with
  | nil => rfl
  | cons d cs ih =>
    by_cases hd : d = sep
    · simp [pieces, hd, ih]
    · rw [pieces, if_neg hd, List.count_cons_of_ne hd, ← ih]
      cases hp : pieces sep cs with
      | nil => simp [hp] at ih
      | cons p ps => rfl

omit hc in
/-- The pieces hold what is no separator. -/
theorem sum_count_pieces {sep : Char} (hsep : c ≠ sep) (cs : List Char) :
    ((pieces sep cs).map (List.count c)).sum = cs.count c := by
  induction cs with
  | nil => rfl
  | cons d cs ih =>
    by_cases hd : d = sep
    · subst hd
      simp [pieces, ih, List.count_cons_of_ne hsep.symm]
    · rw [pieces, if_neg hd]
      have hlen := length_pieces sep cs
      cases hp : pieces sep cs with
      | nil => simp [hp] at hlen
      | cons p ps =>
        rw [hp] at ih
        simp only [List.map_cons, List.sum_cons, List.count_cons] at ih ⊢
        omega

end Text

namespace Notation

/-! ## What a head holds -/

/-- How often a character stands in tags. -/
def countTags (c : Char) (tags : Tags) : Nat :=
  (tags.map fun t => t.1.toList.count c + t.2.toList.count c).sum

/-- The characters of expressions that are none of a head's marks. -/
structure IsPlain (c : Char) : Prop where
  blank : isBlank c = false
  hash : c ≠ '#'
  equals : c ≠ '='
  question : c ≠ '?'

theorem length_insert (k v : String) (tags : Tags) : (Assoc.insert k v tags).length =
    if k ∈ Assoc.keys tags then tags.length else tags.length + 1 := by
  have h := congrArg List.length (Assoc.keys_insert k v tags)
  split at h <;> simp_all [Assoc.keys]

/-- A head is read from the pieces between its marks. -/
theorem of_readHead {head : List Char} {h : Head} (hh : readHead head = some h) :
    ∃ first segments, pieces '#' head = first :: segments ∧ h.name = (readName first).1 ∧
      readTags [] segments = some h.mark.tags := by
  unfold readHead at hh
  split at hh
  · cases hh
  · rename_i first segments hp
    dsimp only at hh
    split at hh
    · rename_i tags ht
      cases hh
      exact ⟨first, segments, hp, rfl, ht⟩
    · cases hh

section
variable {c : Char} (hc : IsPlain c)
include hc

/-- The first segment is put in as a tag that holds its characters. -/
theorem exists_insert_of_readTags {acc tags : Tags} {segment : List Char}
    {segments : List (List Char)} (h : readTags acc (segment :: segments) = some tags) :
    ∃ key value : String, readTags (Assoc.insert key value acc) segments = some tags ∧
      key.toList.count c + value.toList.count c = segment.count c := by
  unfold readTags at h
  cases hcut : cut '=' segment with
  | none =>
    simp only [hcut] at h
    split at h
    · cases h
    · exact ⟨_, _, h, by simp [count_trim hc.blank]⟩
  | some p =>
    obtain ⟨key, value⟩ := p
    simp only [hcut] at h
    split at h
    · cases h
    · refine ⟨_, _, h, ?_⟩
      rw [eq_of_cut hcut]
      simp [count_trim hc.blank, List.count_cons_of_ne hc.equals.symm]

omit hc in
theorem length_of_readTags {acc tags : Tags} {segments : List (List Char)}
    (h : readTags acc segments = some tags) : tags.length ≤ acc.length + segments.length := by
  induction segments generalizing acc with
  | nil =>
    cases h
    exact Nat.le_refl _
  | cons segment segments ih =>
    obtain ⟨key, value, h, -⟩ :=
      exists_insert_of_readTags (c := ',') ⟨rfl, by decide, by decide, by decide⟩ h
    have hle := ih h
    rw [length_insert] at hle
    rw [List.length_cons]
    split at hle <;> omega

/-- If every segment became a tag of its own, the tags hold all their characters. -/
theorem countTags_of_readTags {acc tags : Tags} {segments : List (List Char)}
    (h : readTags acc segments = some tags) (hlen : tags.length = acc.length + segments.length) :
    countTags c tags = countTags c acc + (segments.map (List.count c)).sum := by
  induction segments generalizing acc with
  | nil =>
    cases h
    simp
  | cons segment segments ih =>
    obtain ⟨key, value, h, hcount⟩ := exists_insert_of_readTags hc h
    have hle := length_of_readTags h
    have hins := length_insert key value acc
    rw [List.length_cons] at hlen
    by_cases hk : key ∈ Assoc.keys acc
    · rw [if_pos hk] at hins
      omega
    · rw [if_neg hk] at hins
      rw [ih h (by omega), Assoc.insert_of_not_mem hk]
      simp [countTags, hcount, Nat.add_assoc]

theorem count_readName (segment : List Char) :
    (readName segment).1.count c = segment.count c := by
  rw [← count_trim hc.blank segment, readName]
  split
  · rename_i hlast
    obtain ⟨front, hfront⟩ := List.getLast?_eq_some_iff.1 hlast
    rw [hfront, List.dropLast_concat, count_trimEnd hc.blank]
    simp [List.count_cons_of_ne hc.question.symm]
  · rfl

omit hc in
/-- A head has at most one tag for each mark. -/
theorem length_tags_le {head : List Char} {h : Head} (hh : readHead head = some h) :
    h.mark.tags.length ≤ head.count '#' := by
  obtain ⟨first, segments, hp, -, ht⟩ := of_readHead hh
  have hlen := length_pieces '#' head
  have hle := length_of_readTags ht
  rw [hp, List.length_cons] at hlen
  rw [List.length_nil] at hle
  omega

/-- **A head in which no key comes twice is its name and its tags.** -/
theorem count_of_readHead {head : List Char} {h : Head} (hh : readHead head = some h)
    (hlen : h.mark.tags.length = head.count '#') :
    head.count c = h.name.count c + countTags c h.mark.tags := by
  obtain ⟨first, segments, hp, hname, ht⟩ := of_readHead hh
  have hpieces := length_pieces '#' head
  rw [hp, List.length_cons] at hpieces
  have htags := countTags_of_readTags hc ht (by rw [List.length_nil]; omega)
  rw [← sum_count_pieces hc.hash head, hp, hname, count_readName hc, htags]
  simp [countTags]

end

theorem count_container {name : List Char} {k : Container} (h : container? name = some k) {c : Char}
    (hc : isNameChar c = false) : name.count c = 0 := by
  have hall : name.all isNameChar = true := by
    unfold container? at h
    split_ifs at h with harray hlist hset hmap
    · rw [harray]; rfl
    · rw [hlist]; rfl
    · rw [hset]; rfl
    · rw [hmap]; rfl
  refine List.count_eq_zero_of_not_mem fun hm => ?_
  rw [List.all_eq_true.1 hall c hm] at hc
  cases hc

/-- So what else is in the head of a container is in its tags. -/
theorem count_of_container {head : List Char} {h : Head} (hh : readHead head = some h)
    {k : Container} (hk : container? h.name = some k)
    (hlen : h.mark.tags.length = head.count '#') {c : Char} (hc : IsPlain c)
    (hname : isNameChar c = false) : head.count c = countTags c h.mark.tags := by
  rw [count_of_readHead hc hh hlen, count_container hk hname, Nat.zero_add]

/-! ## Where a head ends -/

/-- The head and what follows it stand before and after a comma of the text, which either is
    behind balanced parentheses or behind nothing but the head. -/
structure Parted (cs head rest pre post : List Char) : Prop where
  text : cs = pre ++ ',' :: post
  headCount : ∀ c, isBlank c = false → c ≠ '(' → c ≠ ')' → head.count c = pre.count c
  restCount : ∀ c, isBlank c = false → rest.count c = post.count c
  closed : Balanced '(' ')' pre ∨ head.count ')' = pre.count ')'

theorem balanced_of_blank {cs : List Char} (h : ∀ c ∈ cs, isBlank c = true) :
    Balanced '(' ')' cs := by
  refine .of_free (fun hm => ?_) (fun hm => ?_)
  · exact absurd (h _ hm) (by decide)
  · exact absurd (h _ hm) (by decide)

section
variable {cs head rest inner : List Char}

theorem trimStart_eq_nil (h : trimStart cs = []) : ∀ c ∈ cs, isBlank c = true := by
  obtain ⟨front, hfront, hblank⟩ := exists_trimStart cs
  rw [h, List.append_nil] at hfront
  rw [hfront]
  exact hblank

theorem exists_parted_of_shaped (h : Shaped cs (.headed head (some rest))) :
    ∃ pre post, Parted cs head rest pre post := by
  cases h with
  | @parens _ after _ hinner hafter =>
    obtain ⟨front, hfront, hblank⟩ := exists_trimStart after
    rw [hafter] at hfront
    refine ⟨'(' :: (head ++ [')']) ++ front, rest, by simp [hfront], fun c hc ho hcl => ?_,
      fun c _ => rfl, Or.inl ((hinner.enclose (by decide)).append (balanced_of_blank hblank))⟩
    simp [count_of_blank hc hblank, List.count_cons_of_ne ho.symm, List.count_cons_of_ne hcl.symm]
  | container _ _ hsplit =>
    unfold splitTop at hsplit
    split at hsplit
    · rename_i before after hcut
      cases hsplit
      exact ⟨before, after, eq_of_splitAt? hcut, fun c hc _ _ => count_trim hc before,
        fun c hc => count_trim hc after, Or.inr (count_trim rfl before)⟩
    · cases hsplit

theorem exists_parted (h : shape (trim cs) = .ok (.headed head (some rest))) :
    ∃ pre post, Parted cs head rest pre post := by
  obtain ⟨pre, post, hp⟩ := exists_parted_of_shaped (shape_eq_ok.1 h)
  obtain ⟨front, back, hcs, hfront, hback⟩ := exists_trim cs
  refine ⟨front ++ pre, post ++ back, ?_, fun c hc ho hcl => ?_, fun c hc => ?_, ?_⟩
  · rw [hp.text] at hcs
    simpa using hcs
  · rw [List.count_append, count_of_blank hc hfront, Nat.zero_add, hp.headCount c hc ho hcl]
  · rw [List.count_append, count_of_blank hc hback, Nat.add_zero, hp.restCount c hc]
  · refine hp.closed.imp (balanced_of_blank hfront).append fun hclose => ?_
    rw [List.count_append, count_of_blank rfl hfront, Nat.zero_add, hclose]

/-- The head does not end at a parenthesis further in, if the part before that has its commas
    and closes as much. -/
theorem Parted.not_closed {pre post more : List Char} (hp : Parted cs head rest pre post)
    (hcs : cs = inner ++ ')' :: more) (hinner : Balanced '(' ')' inner)
    (hcomma : head.count ',' = inner.count ',') (hclose : head.count ')' = inner.count ')') :
    False := by
  have hpre : head.count ',' = pre.count ',' := hp.headCount ',' rfl (by decide) (by decide)
  rw [hp.text] at hcs
  rcases List.append_eq_append_iff.1 hcs with ⟨q, rfl, hq⟩ | ⟨q, rfl, hq⟩
  · -- the comma stands before the parenthesis
    rcases List.cons_eq_append_iff.1 hq with ⟨-, hq⟩ | ⟨q', rfl, -⟩
    · cases hq
    · simp at hcomma
      omega
  · -- the parenthesis does, and closes what is closed before the comma or one more
    rcases List.cons_eq_append_iff.1 hq with ⟨-, hq⟩ | ⟨q', rfl, -⟩
    · cases hq
    · rcases hp.closed with hbal | hcount
      · have hsane := hbal.sane (inner ++ [')']) ⟨q', by simp⟩
        have hsettled := hinner.settled
        simp at hsane
        omega
      · simp at hcount
        omega

theorem count_of_splitTop {key value : List Char} (h : splitTop cs = some (key, value)) {c : Char}
    (hc : isBlank c = false) (hcomma : c ≠ ',') : key.count c + value.count c = cs.count c := by
  unfold splitTop at h
  split at h
  · rename_i before after hcut
    cases h
    rw [eq_of_splitAt? hcut, count_trim hc, count_trim hc, List.count_append,
      List.count_cons_of_ne hcomma.symm]
  · cases h

end

end Notation

/-! ## The tags of a type -/

/-- How many tags the nodes of a type have. -/
def Ty.tagCount : Ty → Nat
  | .scalar m _ | .named m _ => m.tags.length
  | .seq m _ e => m.tags.length + e.tagCount
  | .map m k v => m.tags.length + (k.tagCount + v.tagCount)

namespace Notation

section
variable {scope : Scope} {cs : List Char} {ty : Ty}

theorem of_leaf {m : Mark} {name : List Char} (h : leaf scope m name = .ok ty) :
    ty.isCollection = false ∧ ty.tagCount = m.tags.length := by
  rcases leaf_eq_ok.1 h with ⟨k, -, rfl⟩ | ⟨-, -, -, ref, -, rfl⟩
  · exact ⟨rfl, rfl⟩
  · exact ⟨rfl, rfl⟩

theorem count_hash_of_shape {head rest : List Char}
    (h : shape (trim cs) = .ok (.headed head (some rest))) :
    head.count '#' + rest.count '#' = cs.count '#' := by
  obtain ⟨pre, post, hp⟩ := exists_parted h
  rw [hp.text, hp.headCount '#' rfl (by decide) (by decide), hp.restCount '#' rfl]
  simp

/-- A type has at most one tag for each mark in its expression. -/
theorem Reads.tagCount_le (h : Reads scope cs ty) : ty.tagCount ≤ cs.count '#' := by
  induction h with
  | @whole cs _ _ hs _ ih =>
    rw [← count_trim (c := '#') rfl cs]
    generalize trim cs = body at hs
    cases shape_eq_ok.1 hs with
    | whole _ _ =>
      simp only [List.count_cons, List.count_append]
      omega
  | @name cs _ _ _ hs hh hl =>
    rw [(of_leaf hl).2, ← count_trim (c := '#') rfl cs]
    generalize trim cs = body at hs
    cases shape_eq_ok.1 hs with
    | alone _ _ => exact length_tags_le hh
  | seq hs hh _ _ ih =>
    have hle := length_tags_le hh
    have hcount := count_hash_of_shape hs
    rw [Ty.tagCount]
    omega
  | map hs hh _ hr _ _ ihk ihv =>
    have hle := length_tags_le hh
    have hcount := count_hash_of_shape hs
    have hparts := count_of_splitTop hr (c := '#') rfl (by decide)
    rw [Ty.tagCount]
    omega

/-- **The tags of a container tell what its head holds**, if each was written once. -/
theorem Reads.head (h : Reads scope cs ty) (hcoll : ty.isCollection = true)
    (hfull : ty.tagCount = cs.count '#') :
    (∃ inner, shape (trim cs) = .ok (.whole inner)) ∨
      ∃ head rest, shape (trim cs) = .ok (.headed head (some rest)) ∧
        ∀ c, IsPlain c → isNameChar c = false → head.count c = countTags c ty.mark.tags := by
  cases h with
  | whole hs _ => exact Or.inl ⟨_, hs⟩
  | name _ _ hl =>
    rw [(of_leaf hl).1] at hcoll
    cases hcoll
  | seq hs hh hc he =>
    have hle := length_tags_le hh
    have hcount := count_hash_of_shape hs
    have helem := he.tagCount_le
    rw [Ty.tagCount] at hfull
    exact Or.inr ⟨_, _, hs, fun c => count_of_container hh hc (by omega)⟩
  | map hs hh hc hr hk hv =>
    have hle := length_tags_le hh
    have hcount := count_hash_of_shape hs
    have hparts := count_of_splitTop hr (c := '#') rfl (by decide)
    have hkey := hk.tagCount_le
    have hvalue := hv.tagCount_le
    rw [Ty.tagCount] at hfull
    exact Or.inr ⟨_, _, hs, fun c => count_of_container hh hc (by omega)⟩

end

/-! ## In parentheses -/

section
variable {scope : Scope} {e : List Char} {ty : Ty}

/-- A whole type in parentheses, with blanks around it, is balanced. -/
theorem balanced_of_shape_whole {inner : List Char} (h : shape (trim e) = .ok (.whole inner)) :
    Balanced '(' ')' e := by
  obtain ⟨front, back, htext, hfront, hback⟩ := exists_trim e
  generalize trim e = body at h htext
  cases shape_eq_ok.1 h with
  | whole hinner hafter =>
    have hbody := (hinner.enclose (by decide)).append (balanced_of_blank (trimStart_eq_nil hafter))
    rw [List.cons_append, List.append_assoc] at hbody
    rw [htext]
    exact (balanced_of_blank hfront).append (hbody.append (balanced_of_blank hback))

/-- What the first parenthesis is closed by is the last one or stands before it. -/
theorem of_append_paren {inner after : List Char} (h : e ++ [')'] = inner ++ ')' :: after) :
    (e = inner ∧ after = []) ∨ ∃ more, after = more ++ [')'] ∧ e = inner ++ ')' :: more := by
  rcases List.eq_nil_or_concat after with rfl | ⟨more, c, rfl⟩
  · exact Or.inl ⟨List.append_cancel_right h, rfl⟩
  · rw [List.concat_eq_append, ← List.cons_append, ← List.append_assoc] at h
    obtain ⟨rfl, hlast⟩ := List.append_inj' h rfl
    obtain rfl : ')' = c := List.singleton_inj.1 hlast
    exact Or.inr ⟨more, List.concat_eq_append, rfl⟩

/-- What stands in parentheses is a whole type, or the head of a container ends within it. -/
theorem of_shape_parens {s : Shape} (h : shape (trim ('(' :: (e ++ [')']))) = .ok s) :
    (s = .whole e ∧ Balanced '(' ')' e) ∨
      ∃ head rest more, s = .headed head (some rest) ∧ e = head ++ ')' :: more ∧
        Balanced '(' ')' head := by
  rw [trim_parens] at h
  generalize ht : '(' :: (e ++ [')']) = text at h
  cases shape_eq_ok.1 h with
  | @whole inner after hinner hafter =>
    rcases of_append_paren (List.cons.inj ht).2 with ⟨rfl, -⟩ | ⟨more, rfl, -⟩
    · exact Or.inl ⟨rfl, hinner⟩
    · exact absurd (trimStart_eq_nil hafter ')' (by simp)) (by decide)
  | @parens head after rest hhead hafter =>
    rcases of_append_paren (List.cons.inj ht).2 with ⟨-, rfl⟩ | ⟨more, -, he⟩
    · cases hafter
    · exact Or.inr ⟨head, rest, more, rfl, he, hhead⟩
  | container hp => exact absurd (ht ▸ rfl) hp
  | alone hp => exact absurd (ht ▸ rfl) hp

/-- A text that leaves a parenthesis open cannot be put into parentheses. -/
theorem read_parens_open (hsane : ∀ p, p <+: e → p.count ')' ≤ p.count '(')
    (hopen : ¬Balanced '(' ')' e) : read scope ('(' :: (e ++ [')'])) =
      .error (.invalidType (String.ofList ('(' :: (e ++ [')']))) .unbalanced) := by
  have hclosing : closing 1 (e ++ [')']) = none := by
    refine Option.eq_none_iff_forall_ne_some.2 fun ⟨inner, after⟩ h => ?_
    obtain ⟨hinner, htext⟩ := closing_eq_some.1 h
    rcases of_append_paren htext with ⟨rfl, -⟩ | ⟨more, -, rfl⟩
    · exact hopen hinner
    · have hle := hsane (inner ++ [')']) ⟨more, by simp⟩
      have hsettled := hinner.settled
      simp at hle
      omega
  have hshape : shape (trim ('(' :: (e ++ [')']))) = .error .unbalanced := by
    rw [trim_parens, shape, hclosing]
  exact read_fault hshape (by simp [trim_parens])

/-- **A type that is the same in parentheses has a balanced expression**, if the tags of a
    container were each written once. -/
theorem Reads.balanced (h : Reads scope e ty)
    (hfull : ty.isCollection = true → ty.tagCount = e.count '#')
    (hparens : Reads scope ('(' :: (e ++ [')'])) ty) : Balanced '(' ')' e := by
  by_cases hcoll : ty.isCollection = true
  · have hfull' : ty.tagCount = ('(' :: (e ++ [')'])).count '#' := by simp [hfull hcoll]
    rcases h.head hcoll (hfull hcoll) with ⟨inner, hs⟩ | ⟨head, rest, hs, hcount⟩
    · exact balanced_of_shape_whole hs
    rcases hparens.head hcoll hfull' with ⟨inner, hs'⟩ | ⟨head', rest', hs', hcount'⟩
    · exact (of_shape_parens hs').elim And.right (by simp)
    rcases of_shape_parens hs' with ⟨-, hbal⟩ | ⟨head'', rest'', more, hshape, he, hhead⟩
    · exact hbal
    cases hshape
    obtain ⟨pre, post, hparted⟩ := exists_parted hs
    have hsame : ∀ c, IsPlain c → isNameChar c = false → head.count c = head'.count c :=
      fun c hc hname => (hcount c hc hname).trans (hcount' c hc hname).symm
    have hcomma := hsame ',' ⟨rfl, by decide, by decide, by decide⟩ rfl
    have hclose := hsame ')' ⟨rfl, by decide, by decide, by decide⟩ rfl
    exact (hparted.not_closed he hhead hcomma hclose).elim
  · cases hparens with
    | whole hs _ => exact (of_shape_parens hs).elim And.right (by simp)
    | name hs => exact (of_shape_parens hs).elim And.right (by simp)
    | seq => exact absurd rfl hcoll
    | map => exact absurd rfl hcoll

end

end Notation

open Notation

theorem toList_parens (e : String) : ("(" ++ e ++ ")").toList = '(' :: (e.toList ++ [')']) := by
  simp

/-- **When parentheses around a type are neutral.**  They are if those in the expression are
    balanced; one that leaves a parenthesis open is refused in parentheses.  The type that an
    expression has alone it has in parentheses only if these are balanced, as long as the tags
    of a container were each written once. -/
theorem Ty.parse_parens (scope : Scope) (e : String) :
    (Balanced '(' ')' e.toList → parse scope ("(" ++ e ++ ")") = parse scope e) ∧
    ((∀ p, p <+: e.toList → p.count ')' ≤ p.count '(') → ¬Balanced '(' ')' e.toList →
      parse scope ("(" ++ e ++ ")") = .error (.invalidType ("(" ++ e ++ ")") .unbalanced)) ∧
    ∀ ty, parse scope e = .ok ty →
      (ty.isCollection = true → ty.tagCount = e.toList.count '#') →
      (parse scope ("(" ++ e ++ ")") = .ok ty ↔ Balanced '(' ')' e.toList) := by
  unfold parse
  rw [toList_parens]
  refine ⟨read_parens, fun hsane hopen => ?_, fun ty hty hfull => ⟨fun h => ?_, fun h => ?_⟩⟩
  · rw [read_parens_open hsane hopen, ← toList_parens, String.ofList_toList]
  · exact (reads_of_read hty).balanced hfull (reads_of_read h)
  · rw [read_parens h, hty]

/-- A list in parentheses, with an interval for its size, and an interval that is open at one
    end. -/
theorem Ty.parse_parens_interval :
    let scope : Scope := ⟨fun _ => none, ""⟩
    let ints : Ty := .seq ⟨true, [("size", "(0,3)")]⟩ .list (.scalar .plain (.integer .int))
    parse scope "(list?#size=(0,3)),int" = .ok ints ∧
      parse scope ("(" ++ "(list?#size=(0,3)),int" ++ ")") = .ok ints ∧
      parse scope ("(" ++ "int#range=(0,100]" ++ ")") =
        .error (.invalidType ("(" ++ "int#range=(0,100]" ++ ")") .unbalanced) := by
  intro scope ints
  have hlist : shape (trim "(list?#size=(0,3)),int".toList) =
      .ok (.headed "list?#size=(0,3)".toList (some "int".toList)) := rfl
  have hint : shape (trim "int".toList) = .ok (.headed "int".toList none) := rfl
  have hints : parse scope "(list?#size=(0,3)),int" = .ok ints :=
    read_seq hlist rfl rfl (read_name hint rfl (by decide))
  have hsane : ∀ p, p <+: "int#range=(0,100]".toList → p.count ')' ≤ p.count '(' := by
    simpa only [List.mem_inits] using
      (by decide : ∀ p ∈ "int#range=(0,100]".toList.inits, p.count ')' ≤ p.count '(')
  obtain ⟨-, -, hiff⟩ := parse_parens scope "(list?#size=(0,3)),int"
  obtain ⟨-, hopen, -⟩ := parse_parens scope "int#range=(0,100]"
  exact ⟨hints, (hiff ints hints fun _ => by decide).2 (by decide), hopen hsane (by decide)⟩

/-- An integer with an interval that is open at one end is no type in parentheses. -/
theorem Ty.not_parse_parens :
    let scope : Scope := ⟨fun _ => none, ""⟩
    parse scope "int#range=(0,100]" =
        .ok (.scalar ⟨false, [("range", "(0,100]")]⟩ (.integer .int)) ∧
      parse scope ("(" ++ "int#range=(0,100]" ++ ")") =
        .error (.invalidType "(int#range=(0,100])" .unbalanced) := by
  intro scope
  constructor
  · have hint : shape (trim "int#range=(0,100]".toList) =
        .ok (.headed "int#range=(0,100]".toList none) := rfl
    exact read_name hint rfl (by decide)
  · exact read_fault rfl (by decide)

end GameConfig
