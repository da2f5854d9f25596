import GameConfig.Json.Decode
import Mathlib.Data.List.Forall2

/-
  What decoders make of finished values.

  `Reads read j a` says that a decoder reads the value `j` as `a`.  Each way to
  build a decoder has its lemma: `reads_list`, `reads_dictionary`,
  `reads_choice` and, for records whose members all stand in their order,
  `Shape.reads_object`.

  A decoder of texts `Agrees` with one of values if whatever it reads is a
  whole value and the other reads that value as the same: the text has no fault
  and no repeated member in any part that was looked at.  The main statement is
  `Shape.Agrees.agrees_read`: records agree if their members do.
-/

namespace GameConfig

namespace Decode

variable {α σ : Type}

/-! ## Values that are read -/

/-- The decoder reads the value as `a`. -/
def Reads (read : Document → Result α) (j : Json) (a : α) : Prop := read (.ofJson j) = .ok a

/-- The decoder reads the value of an entry as that of the other, under the same key. -/
def EntryReads (read : Document → Result α) (e : String × Json) (f : String × α) : Prop :=
  e.1 = f.1 ∧ Reads read e.2 f.2

variable {read : Document → Result α}

theorem reads_text (t : String) : Reads text (.string t) t := rfl

theorem reads_flag (b : Bool) : Reads flag (.bool b) b := rfl

theorem reads_optional {j : Json} {a : α} (hj : j ≠ .null) (h : Reads read j a) :
    Reads (optional read) j (some a) := by
  rw [Reads] at h ⊢
  cases j with
  | null => exact absurd rfl hj
  | _ => rw [Document.ofJson] at h ⊢; simp only [optional, h]

theorem reads_ofString? (t : Option String) : Reads (optional text) (.ofString? t) t := by
  cases t <;> rfl

theorem items_ofItems {js : List Json} {as : List α} (h : List.Forall₂ (Reads read) js as)
    (i : Nat) : items read none i (Document.ofItems js) = .ok as := by
  induction h generalizing i with
  | nil => rfl
  | cons hja _ ih => simp only [Document.ofItems, items, show _ = _ from hja, within, ih]

theorem reads_list {js : List Json} {as : List α} (h : List.Forall₂ (Reads read) js as) :
    Reads (list read) (.array js) as :=
  items_ofItems h 0

theorem reads_list_map {write : α → Json} {as : List α} (h : ∀ a ∈ as, Reads read (write a) a) :
    Reads (list read) (.array (as.map write)) as := by
  refine reads_list ?_
  rw [List.forall₂_map_left_iff, List.forall₂_same]
  exact h

theorem entries_ofMembers {ms : List (String × Json)} {es : List (String × α)}
    (h : List.Forall₂ (EntryReads read) ms es) (acc : Assoc α) :
    entries read .closed acc (Document.ofMembers ms) =
      .ok (es.foldl (fun d e => Assoc.insert e.1 e.2 d) acc) := by
  induction h generalizing acc with
  | nil => rfl
  | @cons m e ms es hme _ ih =>
    obtain ⟨hkey, hvalue⟩ := hme
    rw [Reads] at hvalue
    simp only [Document.ofMembers, entries, hvalue, within, ih, hkey, List.foldl_cons]

theorem reads_dictionary {ms : List (String × Json)} {es : Assoc α}
    (h : List.Forall₂ (EntryReads read) ms es) (hkeys : (Assoc.keys es).Nodup) :
    Reads (dictionary read) (.object ms) es := by
  have hentries := entries_ofMembers h []
  rwa [show List.foldl _ _ es = Assoc.ofEntries es from rfl, Assoc.ofEntries_eq hkeys] at hentries

theorem reads_choice {origin : Origin} {known : List String} {find : String → Option α}
    {name : String} {a : α} (h : find name = some a) :
    Reads (choice origin known find) (.string name) a := by
  have hvariant : variant known find name = .ok a := by simp only [variant, h]
  cases origin <;> exact hvariant

/-! ## Records that are read -/

/-- Members that stand in their order and are put in one after the other. -/
inductive Fills : List (Member σ) → List (String × Json) → σ → σ → Prop
  | nil {s : σ} : Fills [] [] s s
  | cons {m : Member σ} {ms : List (Member σ)} {v : Json} {es : List (String × Json)} {s s' t : σ}
      (store : m.store (.ofJson v) s = .ok s') (rest : Fills ms es s' t) :
      Fills (m :: ms) ((m.key, v) :: es) s t

theorem Fills.of {key : String} {required : Bool} {put : α → σ → σ} {ms : List (Member σ)}
    {v : Json} {es : List (String × Json)} {s t : σ} {a : α} (h : Reads read v a)
    (rest : Fills ms es (put a s) t) :
    Fills (.of key required read put :: ms) ((key, v) :: es) s t := by
  refine .cons (m := .of key required read put) ?_ rest
  rw [Reads] at h
  simp only [Member.of, h]

namespace Shape

variable {shape : Shape σ}

theorem readMembers_of_fills (hkeys : shape.keys.Nodup) {ms : List (Member σ)}
    {es : List (String × Json)} {s t : σ} (h : Fills ms es s t) :
    ∀ (before : List (Member σ)), shape.members = before ++ ms →
      shape.readMembers (before.map (·.key)).reverse s (Document.ofMembers es) =
        .ok (t, shape.keys.reverse) := by
  induction h with
  | nil =>
    intro before hbefore
    rw [keys, hbefore, List.append_nil]
    rfl
  | @cons m ms v es s s' t hstore _ ih =>
    intro before hbefore
    -- the key of the member is not that of a member before it
    have hnew : ∀ n ∈ before, n.key ≠ m.key := by
      intro n hn
      rw [keys, hbefore, List.map_append, List.nodup_append] at hkeys
      exact hkeys.2.2 _ (List.mem_map_of_mem hn) _ (by simp)
    have hfind : (shape.members.find? fun n => n.key == m.key) = some m := by
      rw [hbefore, List.find?_append, List.find?_eq_none.2 (by simpa using hnew)]
      simp
    have hseen : ((before.map (·.key)).reverse.contains m.key) = false := by
      simpa [List.contains_iff_mem] using hnew
    have hnext := ih (before ++ [m]) (by rw [hbefore, List.append_cons])
    rw [List.map_append, List.reverse_append] at hnext
    simp only [Document.ofMembers, readMembers, hfind, hseen, hstore, within]
    exact hnext

/-- **An object with all members of a record in their order is read.** -/
theorem reads_object {origin : Origin} {es : List (String × Json)} {t : σ}
    (hkeys : shape.keys.Nodup) (h : Fills shape.members es shape.blank t) :
    Reads (shape.read origin) (.object es) t := by
  have hread := readMembers_of_fills hkeys h [] rfl
  rw [List.map_nil, List.reverse_nil] at hread
  have hcomplete : (shape.members.find? fun m => m.required && !shape.keys.reverse.contains m.key)
      = none := by
    refine List.find?_eq_none.2 fun m hm => ?_
    have hmem : m.key ∈ shape.keys.reverse := List.mem_reverse.2 (List.mem_map_of_mem hm)
    rw [List.contains_iff_mem.2 hmem, Bool.not_true, Bool.and_false]
    exact Bool.false_ne_true
  rw [Reads, Document.ofJson, read, ofObject, hread]
  simp only [endOf, complete, hcomplete]

end Shape

/-! ## Decoders that agree -/

/-- What the first decoder reads has no fault, and the second one reads its value as the same. -/
def Agrees (read read' : Document → Result α) : Prop :=
  ∀ {d : Document} {a : α}, read d = .ok a → ∃ j, d.toJson? = .ok j ∧ Reads read' j a

variable {read' : Document → Result α}

theorem mismatch_ne_ok {expected : String} {d : Document} {a : α} :
    mismatch expected d ≠ .ok a := by
  cases d <;> exact nofun

theorem agrees_text : Agrees text text := by
  intro d a h
  cases d with
  | string t => exact ⟨.string t, rfl, h⟩
  | _ => cases h

theorem agrees_flag : Agrees flag flag := by
  intro d a h
  cases d with
  | bool b => exact ⟨.bool b, rfl, h⟩
  | _ => cases h

/-- Only one document has the value `null`. -/
theorem toJson?_eq_null {d : Document} (h : d.toJson? = .ok .null) : d = .null := by
  unfold Document.toJson? at h
  split at h
  · rfl
  all_goals try cases h
  all_goals split at h <;> cases h

theorem agrees_optional (h : Agrees read read') : Agrees (optional read) (optional read') := by
  intro d a hread
  unfold optional at hread
  split at hread
  · exact ⟨.null, rfl, hread⟩
  rename_i hnull
  split at hread
  · rename_i b hb
    obtain ⟨j, hj, hreads⟩ := h hb
    refine ⟨j, hj, ?_⟩
    rw [← Except.ok.inj hread]
    exact reads_optional (fun hn => hnull (toJson?_eq_null (hn ▸ hj))) hreads
  · cases hread

theorem within_eq_ok {s : Segment} {r : Result α} {a : α} (h : within s r = .ok a) :
    r = .ok a := by
  cases r with
  | ok b => exact h
  | error m => cases h

theorem items_eq_ok (h : Agrees read read') {ending : Option Fault} {i : Nat}
    {ds : List Document} {as : List α} (hread : items read ending i ds = .ok as) :
    ending = none ∧ ∃ js, Document.toItems? ds = .ok js ∧ List.Forall₂ (Reads read') js as := by
  induction ds generalizing i as with
  | nil =>
    unfold items at hread
    split at hread
    · cases hread
    · cases hread
      exact ⟨rfl, [], rfl, .nil⟩
  | cons d ds ih =>
    unfold items at hread
    split at hread
    · cases hread
    rename_i a ha
    split at hread
    · cases hread
    rename_i as' has
    obtain ⟨j, hj, hreads⟩ := h (within_eq_ok ha)
    obtain ⟨hending, js, hjs, hreads'⟩ := ih has
    cases hread
    exact ⟨hending, j :: js, by simp only [Document.toItems?, hj, hjs], .cons hreads hreads'⟩

theorem agrees_list (h : Agrees read read') : Agrees (list read) (list read') := by
  intro d as hread
  cases d with
  | array ds ending =>
    obtain ⟨rfl, js, hjs, hreads⟩ := items_eq_ok h hread
    exact ⟨.array js, by simp only [Document.toJson?, hjs], reads_list hreads⟩
  | _ => cases hread

theorem endOf_eq_ok {ending : MembersEnd Document} {u : Unit} (h : endOf ending = .ok u) :
    ending = .closed := by
  cases ending with
  | closed => rfl
  | _ => cases h

theorem entries_eq_ok (h : Agrees read read') {ending : MembersEnd Document} {acc d : Assoc α}
    {ds : List (String × Document)} (hread : entries read ending acc ds = .ok d) :
    ending = .closed ∧ ∃ ms es, Document.toMembers? ds = .ok ms ∧
      List.Forall₂ (EntryReads read') ms es ∧
      d = es.foldl (fun d e => Assoc.insert e.1 e.2 d) acc := by
  induction ds generalizing acc with
  | nil =>
    unfold entries at hread
    split at hread
    · rename_i hending
      cases hread
      exact ⟨endOf_eq_ok hending, [], [], rfl, .nil, rfl⟩
    · cases hread
  | cons m ds ih =>
    obtain ⟨k, v⟩ := m
    unfold entries at hread
    split at hread
    · cases hread
    rename_i a ha
    obtain ⟨j, hj, hreads⟩ := h (within_eq_ok ha)
    obtain ⟨hending, ms, es, hms, hreads', hd⟩ := ih hread
    exact ⟨hending, (k, j) :: ms, (k, a) :: es, by simp only [Document.toMembers?, hj, hms],
      .cons ⟨rfl, hreads⟩ hreads', hd⟩

/-- Entries that are read stay so when both are inserted. -/
theorem forall₂_insert {d : Assoc Json} {e : Assoc α} (h : List.Forall₂ (EntryReads read) d e)
    {m : String × Json} {n : String × α} (hmn : EntryReads read m n) :
    List.Forall₂ (EntryReads read) (Assoc.insert m.1 m.2 d) (Assoc.insert n.1 n.2 e) := by
  obtain ⟨hkey, hreads⟩ := hmn
  induction h with
  | nil => exact .cons ⟨hkey, hreads⟩ .nil
  | @cons a b d e hab hde ih =>
    unfold Assoc.insert
    by_cases hk : a.1 = m.1
    · rw [if_pos hk, if_pos (by rw [← hab.1, hk, hkey])]
      exact .cons ⟨hab.1, hreads⟩ hde
    · rw [if_neg hk, if_neg (by rw [← hab.1, ← hkey]; exact hk)]
      exact .cons hab ih

theorem forall₂_foldl_insert {ms : List (String × Json)} {es : List (String × α)}
    (h : List.Forall₂ (EntryReads read) ms es) {d : Assoc Json} {e : Assoc α}
    (hde : List.Forall₂ (EntryReads read) d e) :
    List.Forall₂ (EntryReads read) (ms.foldl (fun d e => Assoc.insert e.1 e.2 d) d)
      (es.foldl (fun d e => Assoc.insert e.1 e.2 d) e) := by
  induction h generalizing d e with
  | nil => exact hde
  | cons hmn _ ih => exact ih (forall₂_insert hde hmn)

/-- A repeated key of a dictionary takes its last value in both. -/
theorem agrees_dictionary (h : Agrees read read') :
    Agrees (dictionary read) (dictionary read') := by
  intro d es hread
  cases d with
  | object ds ending =>
    obtain ⟨rfl, ms, es', hms, hreads, rfl⟩ := entries_eq_ok h hread
    refine ⟨.object (Assoc.ofEntries ms), ?_, ?_⟩
    · simp only [Document.toJson?, hms, Document.endFault]
    · exact reads_dictionary (forall₂_foldl_insert hreads .nil) (Assoc.nodup_keys_ofEntries es')
  | _ => cases hread

theorem agrees_choice {known : List String} {find : String → Option α} :
    Agrees (choice .text known find) (choice .value known find) := by
  intro d a h
  change choiceOfText known find d = .ok a at h
  unfold choiceOfText at h
  split at h
  case h_1 name => exact ⟨.string name, rfl, h⟩
  case h_8 name v more ending =>
    -- a variant as the only key, with null behind it
    split at h
    · cases h
    rename_i b hb
    split at h
    · cases h
    rename_i hunit
    split at h
    · cases h
      have hv : v = .null := by
        cases v with
        | null => rfl
        | _ => cases hunit
      subst hv
      refine ⟨.object [(name, .null)], rfl, ?_⟩
      show choiceOfValue known find (.object [(name, .null)] .closed) = .ok a
      simp only [choiceOfValue, hb, unit]
    · cases h
    · cases h
  case h_3 => exact absurd h mismatch_ne_ok
  case h_4 => split at h <;> cases h
  all_goals cases h

/-! ## Records that agree -/

/-- Members of one key, the value of which the second one reads as the first. -/
structure Member.Agrees (m m' : Member σ) : Prop where
  key : m.key = m'.key
  required : m.required = m'.required
  store : ∀ {d : Document} {s t : σ}, m.store d s = .ok t →
    ∃ j, d.toJson? = .ok j ∧ m'.store (.ofJson j) s = .ok t

theorem Member.agrees_of {key : String} {required : Bool} {put : α → σ → σ}
    (h : Decode.Agrees read read') :
    (Member.of key required read put).Agrees (.of key required read' put) where
  key := rfl
  required := rfl
  store := by
    intro d s t hstore
    unfold Member.of at hstore
    dsimp only at hstore
    split at hstore
    · rename_i a ha
      obtain ⟨j, hj, hreads⟩ := h ha
      rw [Reads] at hreads
      exact ⟨j, hj, by simp only [Member.of, hreads, hstore]⟩
    · cases hstore

namespace Member

variable {ms ms' : List (Member σ)} (h : List.Forall₂ Member.Agrees ms ms')
include h

section
variable {p : Member σ → Bool} (hp : ∀ {m m'}, Member.Agrees m m' → p m = p m')
include hp

/-- A member found by a test that gives the same for both agrees with the one found there. -/
theorem find?_of_agrees {m : Member σ} (hm : ms.find? p = some m) :
    ∃ m', ms'.find? p = some m' ∧ m.Agrees m' := by
  induction h with
  | nil => cases hm
  | @cons n n' ms ms' hn _ ih =>
    by_cases hpn : p n = true
    · rw [List.find?_cons_of_pos hpn] at hm
      obtain rfl := Option.some.inj hm
      exact ⟨n', List.find?_cons_of_pos (hp hn ▸ hpn), hn⟩
    · rw [List.find?_cons_of_neg hpn] at hm
      rw [List.find?_cons_of_neg (hp hn ▸ hpn)]
      exact ih hm

theorem find?_eq_none_of_agrees (hnone : ms.find? p = none) : ms'.find? p = none := by
  induction h with
  | nil => rfl
  | @cons n n' ms ms' hn _ ih =>
    rw [List.find?_eq_none, List.forall_mem_cons, ← List.find?_eq_none] at hnone
    rw [List.find?_cons_of_neg (hp hn ▸ hnone.1)]
    exact ih hnone.2

end

theorem findIdx?_required_of_agrees :
    ms.findIdx? (fun m => m.required) = ms'.findIdx? fun m => m.required := by
  induction h with
  | nil => rfl
  | cons hm _ ih => rw [List.findIdx?_cons, List.findIdx?_cons, hm.required, ih]

end Member

namespace Shape

/-- Records whose members agree and which have no others. -/
structure Agrees (shape shape' : Shape σ) : Prop where
  closed : shape.closed = true
  blank : shape.blank = shape'.blank
  members : List.Forall₂ Member.Agrees shape.members shape'.members

/-- Items that are read as members of a record, up to the end of the list. -/
theorem readItems_of_agrees (shape shape' : Shape σ) {length : Nat} {ending : Option Fault} {i : Nat} {s t : σ}
    {ms ms' : List (Member σ)} (hms : List.Forall₂ Member.Agrees ms ms') {ds : List Document}
    (hread : shape.readItems .text length ending i s ms ds = .ok t) :
    ending = none ∧ ∃ js, Document.toItems? ds = .ok js ∧ ∀ length',
      shape'.readItems .value length' none i s ms' (Document.ofItems js) = .ok t := by
  induction hms generalizing i s ds with
  | nil =>
    cases ds with
    | nil =>
      cases ending with
      | none => exact ⟨rfl, [], rfl, fun _ => hread⟩
      | some f => cases f <;> cases hread
    | cons d ds => cases hread
  | @cons m m' ms ms' hm hms ih =>
    cases ds with
    | nil =>
      cases ending with
      | some f => cases hread
      | none =>
        unfold Shape.readItems shortage at hread
        dsimp only at hread
        split at hread
        case h_2 => cases hread
        rename_i u hshort
        split at hshort
        · cases hshort
        rename_i hnone
        rw [Member.findIdx?_required_of_agrees (.cons hm hms)] at hnone
        refine ⟨rfl, [], rfl, fun _ => ?_⟩
        simp only [Document.ofItems, Shape.readItems, shortage, hnone, hread]
    | cons d ds =>
      unfold Shape.readItems at hread
      split at hread
      · cases hread
      rename_i s' hstore
      obtain ⟨j, hj, hstore'⟩ := hm.store (within_eq_ok hstore)
      obtain ⟨hending, js, hjs, hread'⟩ := ih hread
      refine ⟨hending, j :: js, by simp only [Document.toItems?, hj, hjs], fun length' => ?_⟩
      simp only [Document.ofItems, Shape.readItems, hstore', within, hread']

namespace Agrees

variable {shape shape' : Shape σ} (h : shape.Agrees shape')
include h

/-- Members that are read differ in their keys, and their values are read one by one. -/
theorem readMembers {seen seen' : List String} {s t : σ} {ds : List (String × Document)}
    (hread : shape.readMembers seen s ds = .ok (t, seen')) :
    ∃ ms, Document.toMembers? ds = .ok ms ∧ (Assoc.keys ms).Nodup ∧
      (∀ k ∈ Assoc.keys ms, k ∉ seen) ∧
      shape'.readMembers seen s (Document.ofMembers ms) = .ok (t, seen') := by
  induction ds generalizing seen s with
  | nil => exact ⟨[], rfl, List.nodup_nil, by simp [Assoc.keys], hread⟩
  | cons d ds ih =>
    obtain ⟨key, d⟩ := d
    unfold Shape.readMembers at hread
    split at hread
    · rw [h.closed, if_pos rfl] at hread
      cases hread
    rename_i m hm
    split at hread
    · cases hread
    rename_i hnew
    split at hread
    · cases hread
    rename_i s' hstore
    obtain ⟨m', hm', hagrees⟩ := Member.find?_of_agrees h.members
      (fun {m m'} (hm : m.Agrees m') => by rw [hm.key]) hm
    obtain ⟨j, hj, hstore'⟩ := hagrees.store (within_eq_ok hstore)
    obtain ⟨ms, hms, hnodup, hunseen, hread'⟩ := ih hread
    refine ⟨(key, j) :: ms, by simp only [Document.toMembers?, hj, hms], ?_, ?_, ?_⟩
    · exact List.nodup_cons.2 ⟨fun hkey => hunseen key hkey (List.mem_cons_self ..), hnodup⟩
    · refine List.forall_mem_cons.2 ⟨fun hkey => hnew (List.contains_iff_mem.2 hkey), ?_⟩
      exact fun k hk hseen => hunseen k hk (List.mem_cons_of_mem _ hseen)
    · simp only [Document.ofMembers, Shape.readMembers, hm', hstore', within, hread']
      rw [if_neg hnew]

theorem complete {seen : List String} {s t : σ} (hread : shape.complete seen s = .ok t) :
    shape'.complete seen s = .ok t := by
  unfold Shape.complete at hread ⊢
  split at hread
  · cases hread
  · rename_i hnone
    rw [Member.find?_eq_none_of_agrees h.members
      (fun {m m'} (hm : m.Agrees m') => by rw [hm.key, hm.required]) hnone]
    exact hread

theorem ofObject {ds : List (String × Document)} {ending : MembersEnd Document} {t : σ}
    (hread : shape.ofObject ds ending = .ok t) :
    ∃ j, (Document.object ds ending).toJson? = .ok j ∧ Reads (shape'.read .value) j t := by
  unfold Shape.ofObject at hread
  split at hread
  · cases hread
  rename_i s seen hmembers
  obtain ⟨ms, hms, hnodup, -, hmembers'⟩ := h.readMembers hmembers
  split at hread
  · split at hread <;> cases hread
  split at hread
  · cases hread
  rename_i hending
  obtain rfl := endOf_eq_ok hending
  refine ⟨.object ms, ?_, ?_⟩
  · simp only [Document.toJson?, hms, Document.endFault, Assoc.ofEntries_eq hnodup]
  · rw [Reads, Document.ofJson, Shape.read, Shape.ofObject, ← h.blank, hmembers']
    exact h.complete hread

/-- **What a record is read from has no fault, and its value is read as the same.** -/
theorem agrees_read : Decode.Agrees (shape.read .text) (shape'.read .value) := by
  intro d t hread
  cases d with
  | object ds ending => exact h.ofObject hread
  | array ds ending =>
    obtain ⟨rfl, js, hjs, hread'⟩ := readItems_of_agrees shape shape' h.members hread
    refine ⟨.array js, by simp only [Document.toJson?, hjs], ?_⟩
    rw [Reads, Document.ofJson, Shape.read, ← h.blank]
    exact hread' _
  | _ => cases hread

end Agrees

end Shape

end Decode

end GameConfig
