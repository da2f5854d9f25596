import GameConfig.Proofs.Table.Index
import Mathlib

/-
  Why a table has no data, and what its log holds then.

  Records are loaded, then put under their keys or counted.  Each of these stops at
  the first place with something wrong, and none begins before the one in front of
  it is done, so the place and the fault there are determined (`First`).  The log
  does not depend on where they stop.

  * `records_eq_error`: the first record that does not load;
  * `insertAll_eq_error`: the first record that cannot be put behind those before it;
  * `allFailures_eq`: the failures of the records, one after the other;
  * `load_reports_of_build`: what loading a table of an accepted schema comes to.
-/

namespace GameConfig

namespace TableLoader

variable {t : TableLoader} {raws : List RawRecord} {rs : List Record} {name : String}

/-! ## Faults -/

/-- The fault at the least place that has one. -/
def First (fault : ℕ → TableError → Prop) (e : TableError) : Prop :=
  ∃ i, fault i e ∧ ∀ j < i, ∀ e', ¬ fault j e'

theorem exists_first_iff {fault : ℕ → TableError → Prop} :
    (∃ e, First fault e) ↔ ∃ i e, fault i e := by
  classical
  constructor
  · rintro ⟨e, i, h, -⟩
    exact ⟨i, e, h⟩
  · intro h
    obtain ⟨e, he⟩ := Nat.find_spec h
    exact ⟨e, Nat.find h, he, fun j hj e' h' => Nat.find_min h hj ⟨e', h'⟩⟩

/-- A pass that stops at the first fault stops with it, if there is one fault there at most. -/
theorem eq_error_iff_first {α : Type} {fault : ℕ → TableError → Prop} {r : Except TableError α}
    (hok : ∀ a, r = .ok a → ∀ i e, ¬ fault i e) (herror : ∀ e, r = .error e → First fault e)
    (huniq : ∀ i e e', (∀ j < i, ∀ e, ¬ fault j e) → fault i e → fault i e' → e = e')
    {e : TableError} : r = .error e ↔ First fault e := by
  refine ⟨herror e, fun ⟨i, he, hbefore⟩ => ?_⟩
  cases r with
  | ok a => exact absurd he (hok a rfl i e)
  | error e' =>
    obtain ⟨j, he', hbefore'⟩ := herror e' rfl
    have hij : i = j := le_antisymm (not_lt.1 fun hlt => hbefore j hlt e' he')
      (not_lt.1 fun hlt => hbefore' i hlt e he)
    subst hij
    rw [huniq i e e' hbefore he he']

/-- The record at a place does not load. -/
def RecordFault (t : TableLoader) (raws : List RawRecord) (i : ℕ) (e : TableError) : Prop :=
  ∃ raw cause, raws[i]? = some raw ∧
    t.loader.loadBean t.table.valueType raw.value = .error cause ∧
    e = .record t.table.fullName raw.source i cause

/-- The index field of the record at a place is null, or equal to that of an earlier record. -/
inductive KeyFault (t : TableLoader) (name : String) (raws : List RawRecord) (rs : List Record)
    (i : ℕ) : TableError → Prop
  | null {r} : rs[i]? = some r → r.field? t.loader.schema name = some none →
      KeyFault t name raws rs i (.nullKey t.table.fullName name i)
  | again {raw r k j r' k'} : raws[i]? = some raw → rs[i]? = some r →
      r.field? t.loader.schema name = some (some k) → j < i → rs[j]? = some r' →
      r'.field? t.loader.schema name = some (some k') → k.same k' = true →
      KeyFault t name raws rs i
        (.duplicateKey t.table.fullName (k'.toJson t.loader.schema).compact raw.source i)

/-! ## Records -/

theorem record_eq_error {i : ℕ} {raw : RawRecord} {e : TableError} :
    t.record i raw = .error e ↔
      ∃ cause, t.loader.loadBean t.table.valueType raw.value = .error cause ∧
        e = .record t.table.fullName raw.source i cause := by
  unfold record
  cases t.loader.loadBean t.table.valueType raw.value <;> simp [eq_comm]

/-- The records of a table fail to load with the first one that does. -/
theorem records_eq_error {e : TableError} :
    t.records 0 raws = .error e ↔ First (t.RecordFault raws) e := by
  refine eq_error_iff_first ?_ ?_ ?_
  · rintro rs hrs i e ⟨raw, cause, hraw, hbad, -⟩
    obtain ⟨r, -, hr⟩ := exists_of_mem_right (records_eq_ok.1 hrs).flip (List.mem_of_getElem? hraw)
    cases hr.symm.trans hbad
  · intro e he
    have hloop := Loader.values_eq_error t.records t.record (fun _ => rfl) (fun i raw raws => by
      rw [records]
      cases t.record i raw with
      | error e => rfl
      | ok r => cases t.records (i + 1) raws <;> rfl) 0 raws e
    obtain ⟨before, raw, after, rs, rfl, hrs, hbad⟩ := hloop.1 he
    obtain ⟨cause, hcause, rfl⟩ := record_eq_error.1 hbad
    rw [Nat.zero_add]
    refine ⟨before.length, ⟨raw, cause, by simp, hcause, rfl⟩, ?_⟩
    rintro j hj e' ⟨raw', cause', hraw', hbad', -⟩
    rw [List.getElem?_append_left hj] at hraw'
    obtain ⟨r, -, hr⟩ := exists_of_mem_right (records_eq_ok.1 hrs).flip
      (List.mem_of_getElem? hraw')
    cases hr.symm.trans hbad'
  · rintro i e e' - ⟨raw, cause, hraw, hbad, rfl⟩ ⟨raw', cause', hraw', hbad', rfl⟩
    cases hraw.symm.trans hraw'
    cases hbad.symm.trans hbad'
    rfl

/-! ## Keys -/

theorem insertAll_cons {i : ℕ} {acc : List (Datum × Record)} {p : RawRecord × Record}
    {ps : List (RawRecord × Record)} : t.insertAll i acc (p :: ps) =
      (t.insertAll i acc [p]).bind fun acc => t.insertAll (i + 1) acc ps := by
  rw [insertAll, insertAll]
  cases t.key? p.2 with
  | none => rfl
  | some key =>
    dsimp only
    cases acc.find? fun e => key.same e.1 <;> rfl

/-- One record is not put in if it has no key, or one that is there. -/
theorem insertAll_single_eq_error {i : ℕ} {acc : List (Datum × Record)} {p : RawRecord × Record}
    {e : TableError} : t.insertAll i acc [p] = .error e ↔
      (t.key? p.2 = none ∧ e = .nullKey t.table.fullName (t.table.index.getD "") i) ∨
      ∃ k g, t.key? p.2 = some k ∧ (acc.find? fun g => k.same g.1) = some g ∧
        e = .duplicateKey t.table.fullName (g.1.toJson t.loader.schema).compact p.1.source i := by
  rw [insertAll]
  cases hk : t.key? p.2 with
  | none => simp [eq_comm]
  | some key =>
    dsimp only
    cases hfind : acc.find? fun e => key.same e.1 with
    | none => simp [insertAll, hfind]
    | some g =>
      constructor
      · rintro ⟨⟩
        exact .inr ⟨key, g, rfl, hfind, rfl⟩
      · rintro (⟨hnone, -⟩ | ⟨k, g', hk', hfind', rfl⟩)
        · cases hnone
        · cases hk'
          cases hfind.symm.trans hfind'
          rfl

section

variable {ps : List (RawRecord × Record)} {es : List (Datum × Record)}

/-- A record that was put in has an entry with its key at its place. -/
theorem exists_entry (hps : ps <+: raws.zip rs)
    (hes : List.Forall₂ (fun p e => t.key? p.2 = some e.1 ∧ e.2 = p.2) ps es) {i : ℕ}
    (hi : i < ps.length) {r : Record} (hr : rs[i]? = some r) :
    ∃ e, es[i]? = some e ∧ t.key? r = some e.1 := by
  obtain ⟨hlen, hall⟩ := List.forall₂_iff_get.1 hes
  have hzip : (raws.zip rs)[i]? = some ps[i] := List.prefix_iff_getElem?.1 hps i hi
  have hright : rs[i]? = some ps[i].2 := (List.getElem?_zip_eq_some.1 hzip).2
  obtain rfl : r = ps[i].2 := Option.some.inj (hr.symm.trans hright)
  exact ⟨es[i], List.getElem?_eq_getElem (hlen ▸ hi), (hall i hi (hlen ▸ hi)).1⟩

variable (hfield : ∀ r ∈ rs, r.field? t.loader.schema name = some (t.key? r))
include hfield

/-- Nothing is wrong with the index field of a record that was put in. -/
theorem not_keyFault (hps : ps <+: raws.zip rs)
    (hes : List.Forall₂ (fun p e => t.key? p.2 = some e.1 ∧ e.2 = p.2) ps es)
    (hfresh : es.Pairwise fun e g => g.1.same e.1 = false) {i : ℕ} (hi : i < ps.length)
    (e : TableError) : ¬ t.KeyFault name raws rs i e := by
  have hkey : ∀ j r x, j < ps.length → rs[j]? = some r →
      r.field? t.loader.schema name = some x → ∃ e, es[j]? = some e ∧ x = some e.1 := by
    intro j r x hj hr hx
    obtain ⟨e, he, hk⟩ := exists_entry hps hes hj hr
    refine ⟨e, he, ?_⟩
    rw [← hk]
    exact Option.some.inj (hx.symm.trans (hfield r (List.mem_of_getElem? hr)))
  intro h
  cases h with
  | null hr hnull =>
    obtain ⟨g, -, hg⟩ := hkey i _ _ hi hr hnull
    cases hg
  | again hraw hr hk hj hr' hk' hsame =>
    obtain ⟨g, hg, heq⟩ := hkey i _ _ hi hr hk
    obtain ⟨g', hg', heq'⟩ := hkey _ _ _ (hj.trans hi) hr' hk'
    cases heq
    cases heq'
    obtain ⟨hi', rfl⟩ := List.getElem?_eq_some_iff.1 hg
    obtain ⟨hj', rfl⟩ := List.getElem?_eq_some_iff.1 hg'
    rw [List.pairwise_iff_getElem.1 hfresh _ i hj' hi' hj] at hsame
    cases hsame

/-- Of the faults at the first place that has one there is only one: behind different keys a key
    is equal to one of them at most. -/
theorem KeyFault.unique
    (hdistinct : ∀ r ∈ rs, ∀ k, t.key? r = some k → k.Distinct) {i : ℕ} {e e' : TableError}
    (hbefore : ∀ j < i, ∀ e, ¬ t.KeyFault name raws rs j e) (h : t.KeyFault name raws rs i e)
    (h' : t.KeyFault name raws rs i e') : e = e' := by
  have hkeys : ∀ {j : ℕ} {r : Record} {k : Datum}, rs[j]? = some r →
      r.field? t.loader.schema name = some (some k) → k.Distinct := by
    intro j r k hr hk
    have hmem := List.mem_of_getElem? hr
    exact hdistinct r hmem k (Option.some.inj ((hfield r hmem).symm.trans hk))
  cases h with
  | null hr hnull =>
    cases h' with
    | null => rfl
    | again _ hr' hk =>
      cases hr.symm.trans hr'
      cases hnull.symm.trans hk
  | @again raw r k j r₁ k₁ hraw hr hk hj hr₁ hk₁ hsame₁ =>
    cases h' with
    | null hr' hnull =>
      cases hr.symm.trans hr'
      cases hk.symm.trans hnull
    | @again raw' r' k' l r₂ k₂ hraw' hr' hk' hl hr₂ hk₂ hsame₂ =>
      cases hraw.symm.trans hraw'
      cases hr.symm.trans hr'
      cases hk.symm.trans hk'
      have hd := hkeys hr hk
      have hd₁ := hkeys hr₁ hk₁
      have hd₂ := hkeys hr₂ hk₂
      obtain hjl | rfl | hlj := lt_trichotomy j l
      · have hsame : k₂.same k₁ = true :=
          Datum.same_trans hd₂ hd hd₁ (Datum.same_symm hd hd₂ hsame₂) hsame₁
        have hrawl : l < raws.length := hl.trans (List.getElem?_eq_some_iff.1 hraw).1
        exact absurd (.again (List.getElem?_eq_getElem hrawl) hr₂ hk₂ hjl hr₁ hk₁ hsame)
          (hbefore l hl _)
      · cases hr₁.symm.trans hr₂
        cases hk₁.symm.trans hk₂
        rfl
      · have hsame : k₁.same k₂ = true :=
          Datum.same_trans hd₁ hd hd₂ (Datum.same_symm hd hd₁ hsame₁) hsame₂
        have hrawj : j < raws.length := hj.trans (List.getElem?_eq_some_iff.1 hraw).1
        exact absurd (.again (List.getElem?_eq_getElem hrawj) hr₁ hk₁ hlj hr₂ hk₂ hsame)
          (hbefore j hj _)

/-- Putting records in fails with the first index field that has a fault. -/
theorem insertAll_eq_error (hname : t.table.index = some name)
    (hdistinct : ∀ r ∈ rs, ∀ k, t.key? r = some k → k.Distinct)
    (hlen : raws.length = rs.length) {e : TableError} :
    t.insertAll 0 [] (raws.zip rs) = .error e ↔ First (t.KeyFault name raws rs) e := by
  refine eq_error_iff_first ?_ ?_ fun i e e' => KeyFault.unique hfield hdistinct
  · intro es hes i e h
    obtain ⟨hentries, hfresh⟩ := insertAll_eq_ok.1 hes
    refine not_keyFault hfield (List.prefix_refl _) hentries hfresh ?_ e h
    rw [List.length_zip, hlen, min_self]
    cases h with
    | null hr _ => exact (List.getElem?_eq_some_iff.1 hr).1
    | again _ hr _ _ _ _ _ => exact (List.getElem?_eq_some_iff.1 hr).1
  · intro e he
    obtain ⟨before, p, after, es, hzip, hes, hbad⟩ := (Loader.loop_eq_error t.insertAll
      (fun i acc p => t.insertAll i acc [p]) (fun _ _ => rfl) (fun _ _ _ _ => insertAll_cons)
      0 [] (raws.zip rs) e).1 he
    obtain ⟨hentries, hfresh⟩ := insertAll_eq_ok.1 hes
    have hprefix : before <+: raws.zip rs := ⟨p :: after, hzip.symm⟩
    have hp : (raws.zip rs)[before.length]? = some p := by simp [hzip]
    obtain ⟨hraw, hr⟩ := List.getElem?_zip_eq_some.1 hp
    have hfieldp := hfield p.2 (List.mem_of_getElem? hr)
    refine ⟨before.length, ?_, fun j hj => not_keyFault hfield hprefix hentries hfresh hj⟩
    rw [Nat.zero_add] at hbad
    obtain ⟨hnone, rfl⟩ | ⟨k, g, hk, hfind, rfl⟩ := insertAll_single_eq_error.1 hbad
    · rw [hnone] at hfieldp
      rw [hname]
      exact .null hr hfieldp
    · -- the entry that was found is that of an earlier record
      obtain ⟨j, hj, rfl⟩ := List.getElem_of_mem (List.mem_of_find?_eq_some hfind)
      have hjlt : j < before.length := hentries.length_eq ▸ hj
      obtain ⟨r', hr'⟩ : ∃ r', rs[j]? = some r' := by
        have hpj := List.prefix_iff_getElem?.1 hprefix j hjlt
        exact ⟨_, (List.getElem?_zip_eq_some.1 hpj).2⟩
      obtain ⟨g', hg', hk'⟩ := exists_entry hprefix hentries hjlt hr'
      cases (List.getElem?_eq_getElem hj).symm.trans hg'
      have hfield' := hfield r' (List.mem_of_getElem? hr')
      rw [hk] at hfieldp
      rw [hk'] at hfield'
      have hsame : k.same es[j].1 = true := by simpa using List.find?_some hfind
      exact .again hraw hr hfieldp hjlt hr' hfield' hsame

end

/-! ## The log -/

/-- The failures of the records are those of one after the other. -/
theorem allFailures_eq (i : ℕ) (raws : List RawRecord) :
    t.allFailures i raws = (raws.zipIdx i).flatMap fun p => t.failures p.2 p.1 := by
  induction raws generalizing i with
  | nil => rfl
  | cons raw raws ih => rw [allFailures, ih, List.zipIdx_cons, List.flatMap_cons]

theorem failures_of_ok {i : ℕ} {raw : RawRecord} {r : Record}
    (h : t.loader.loadBean t.table.valueType raw.value = .ok r) :
    t.failures i raw = t.rules.faults t.loader.schema raw.source (t.place i) r := by
  rw [failures, record_eq_ok.2 h]

theorem failures_of_error {i : ℕ} {raw : RawRecord} {cause : LoadError}
    (h : t.loader.loadBean t.table.valueType raw.value = .error cause) : t.failures i raw = [] := by
  rw [failures, record_eq_error.2 ⟨cause, h, rfl⟩]

/-! ## Tables -/

/-- What loading a table comes to: its first fault, and the failures of all records that load. -/
structure Reports (t : TableLoader) (raws : List RawRecord) (log : List Failure) : Prop where
  /-- It fails with a record if some record does not load, -/
  anyRecord : (∃ table source i cause,
      (t.load raws log).1 = .error (.record table source i cause)) ↔
    ∃ raw ∈ raws, ∃ cause, t.loader.loadBean t.table.valueType raw.value = .error cause
  /-- and then with the first one. -/
  firstRecord : ∀ e, First (t.RecordFault raws) e → (t.load raws log).1 = .error e
  /-- If all load, a map fails with the first record whose index field is null or comes again, -/
  map : ∀ rs, List.Forall₂ (fun raw r =>
      t.loader.loadBean t.table.valueType raw.value = .ok r) raws rs → t.table.mode = .map →
    ∃ name, t.table.index = some name ∧
      ((∃ e, (t.load raws log).1 = .error e) ↔ ∃ i e, t.KeyFault name raws rs i e) ∧
      ∀ e, (t.load raws log).1 = .error e ↔ First (t.KeyFault name raws rs) e
  /-- a single record with their number unless there is one, -/
  single : ∀ rs, List.Forall₂ (fun raw r =>
      t.loader.loadBean t.table.valueType raw.value = .ok r) raws rs →
    t.table.mode.isSingle = true → ∀ e, (t.load raws log).1 = .error e ↔
      raws.length ≠ 1 ∧ e = .recordCount t.table.fullName raws.length
  /-- and a list never. -/
  list : ∀ rs, List.Forall₂ (fun raw r =>
      t.loader.loadBean t.table.valueType raw.value = .ok r) raws rs →
    t.table.mode = .list ∨ t.table.mode = .array → (t.load raws log).1 = .ok (.list rs)
  /-- The log grows by what each record brings along, -/
  log : (t.load raws log).2 = log ++ raws.zipIdx.flatMap fun p => t.failures p.2 p.1
  /-- one that loads the failures of its rules -/
  failures : ∀ (i : ℕ) raw r, raws[i]? = some raw →
    t.loader.loadBean t.table.valueType raw.value = .ok r →
      t.failures i raw = t.rules.faults t.loader.schema raw.source (t.place i) r
  /-- and one that does not load nothing. -/
  noFailures : ∀ (i : ℕ) raw cause, raws[i]? = some raw →
    t.loader.loadBean t.table.valueType raw.value = .error cause → t.failures i raw = []

theorem load_eq_records {log : List Failure} :
    (t.load raws log).1 = (t.records 0 raws).bind fun rs => t.assemble raws rs := by
  unfold load
  cases t.records 0 raws <;> rfl

theorem eq_record_of_first {e : TableError} (h : First (t.RecordFault raws) e) :
    ∃ table source i cause, e = .record table source i cause := by
  obtain ⟨i, ⟨raw, cause, -, -, he⟩, -⟩ := h
  exact ⟨_, _, _, _, he⟩

theorem exists_recordFault_iff : (∃ i e, t.RecordFault raws i e) ↔
    ∃ raw ∈ raws, ∃ cause, t.loader.loadBean t.table.valueType raw.value = .error cause := by
  constructor
  · rintro ⟨i, e, raw, cause, hraw, hbad, -⟩
    exact ⟨raw, List.mem_of_getElem? hraw, cause, hbad⟩
  · rintro ⟨raw, hraw, cause, hbad⟩
    obtain ⟨i, hi⟩ := List.getElem?_of_mem hraw
    exact ⟨i, _, raw, cause, hi, hbad, rfl⟩

/-- Records that load are put together without an error about one that does not. -/
theorem assemble_ne_record {table source : String} {i : ℕ} {cause : LoadError} :
    t.assemble raws rs ≠ .error (.record table source i cause) := by
  intro h
  unfold assemble at h
  split at h
  · cases h
  · cases h
  · split at h <;> cases h
  · split at h <;> cases h
  · split at h <;> cases h
  · cases hes : t.insertAll 0 [] (raws.zip rs) with
    | ok es =>
      rw [hes] at h
      cases h
    | error e =>
      rw [hes] at h
      cases h
      obtain ⟨_, _, _, _, -, -, hbad⟩ := (Loader.loop_eq_error t.insertAll
        (fun i acc p => t.insertAll i acc [p]) (fun _ _ => rfl) (fun _ _ _ _ => insertAll_cons)
        0 [] (raws.zip rs) _).1 hes
      obtain ⟨-, h⟩ | ⟨_, _, -, -, h⟩ := insertAll_single_eq_error.1 hbad
      · cases h
      · cases h

/-- Loading goes wrong with a record if one does not load, and then with the first. -/
theorem load_eq_record_iff {log : List Failure} {table source : String} {i : ℕ}
    {cause : LoadError} : (t.load raws log).1 = .error (.record table source i cause) ↔
      First (t.RecordFault raws) (.record table source i cause) := by
  rw [← records_eq_error, load_eq_records]
  cases t.records 0 raws with
  | error e => simp [Except.bind]
  | ok rs => exact iff_of_false assemble_ne_record nofun

theorem assemble_map (hm : t.table.mode = .map) {e : TableError} :
    t.assemble raws rs = .error e ↔ t.insertAll 0 [] (raws.zip rs) = .error e := by
  unfold assemble
  rw [hm]
  dsimp only
  cases t.insertAll 0 [] (raws.zip rs) <;> simp [Except.map]

theorem assemble_single (hm : t.table.mode.isSingle = true) {e : TableError} :
    t.assemble raws rs = .error e ↔
      rs.length ≠ 1 ∧ e = .recordCount t.table.fullName rs.length := by
  have hmode : t.table.mode = .one ∨ t.table.mode = .singleton ∨ t.table.mode = .single := by
    revert hm
    cases t.table.mode <;> simp [TableMode.isSingle]
  unfold assemble
  rcases rs with _ | ⟨r, _ | ⟨r', rs⟩⟩ <;> rcases hmode with hmode | hmode | hmode <;>
    simp [hmode, eq_comm]

theorem load_eq_assemble {log : List Failure} (hrs : List.Forall₂ (fun raw r =>
    t.loader.loadBean t.table.valueType raw.value = .ok r) raws rs) :
    (t.load raws log).1 = t.assemble raws rs := by
  rw [load_eq_records, records_eq_ok.2 hrs]
  rfl

/-- Loading goes wrong with a record exactly if there is one that does not load. -/
theorem exists_load_eq_record_iff {log : List Failure} : (∃ table source i cause,
      (t.load raws log).1 = .error (.record table source i cause)) ↔
    ∃ raw ∈ raws, ∃ cause, t.loader.loadBean t.table.valueType raw.value = .error cause := by
  rw [← exists_recordFault_iff, ← exists_first_iff]
  simp only [load_eq_record_iff]
  constructor
  · rintro ⟨table, source, i, cause, h⟩
    exact ⟨_, h⟩
  · rintro ⟨e, h⟩
    obtain ⟨table, source, i, cause, rfl⟩ := eq_record_of_first h
    exact ⟨table, source, i, cause, h⟩

/-- A map whose records load goes wrong with the first of its keys that has a fault. -/
theorem load_map_eq_error (hs : t.loader.schema.Sound) (hc : t.loader.schema.Closed)
    (hvalue : t.table.valueType < t.loader.schema.beans.length)
    (hname : t.table.index = some name) {f : Field}
    (hf : f ∈ (t.loader.schema.bean t.table.valueType).allFields) (hfname : f.name = name)
    (hm : t.table.mode = .map) {log : List Failure} (hrs : List.Forall₂ (fun raw r =>
      t.loader.loadBean t.table.valueType raw.value = .ok r) raws rs) {e : TableError} :
    (t.load raws log).1 = .error e ↔ First (t.KeyFault name raws rs) e := by
  have hrecord : ∀ r ∈ rs, ∃ raw : RawRecord,
      t.loader.loadBean t.table.valueType raw.value = .ok r := by
    intro r hr
    obtain ⟨raw, -, hraw⟩ := exists_of_mem_right hrs hr
    exact ⟨raw, hraw⟩
  have hvalues : ∀ r ∈ rs, r.field? t.loader.schema name = some (t.key? r) := by
    intro r hr
    obtain ⟨raw, hraw⟩ := hrecord r hr
    exact (key?_eq_field? hs hc hvalue hname hf hfname hraw).1
  have hdistinct : ∀ r ∈ rs, ∀ k, t.key? r = some k → k.Distinct := by
    intro r hr k hk
    obtain ⟨raw, hraw⟩ := hrecord r hr
    have hfound : r.field? t.loader.schema name = some (some k) := by rw [hvalues r hr, hk]
    exact distinct_of_field? (loadBean_conforms hs hc hvalue hraw) hfound
  rw [load_eq_assemble hrs, assemble_map hm,
    insertAll_eq_error hvalues hname hdistinct hrs.length_eq]

end TableLoader

/-- **The first fault of a table decides its error, and the log has the failures of all records
    that load**, whether the table fails or not and also behind the first fault. -/
theorem load_reports_of_build {h : History} {s : Schema} (hb : (Builder.run h).build = .ok s)
    (hc : h.Closed) {t : TableLoader} (hs : t.loader.schema = s) (ht : t.table ∈ s.tables)
    (raws : List RawRecord) (log : List Failure) : t.Reports raws log := by
  subst hs
  have hsound := Schema.sound_of_build hb
  have hclosed := Schema.closed_of_build hc hb
  obtain ⟨hvalue, d, hmode, hindex, hfault⟩ := Schema.table_of_build hb ht
  obtain ⟨hsome, hfield⟩ :=
    (Resolve.indexFault?_eq_none (hsound.fieldsNodup t.table.valueType)).1 hfault
  constructor
  case anyRecord => exact TableLoader.exists_load_eq_record_iff
  case firstRecord =>
    intro e he
    obtain ⟨table, source, i, cause, rfl⟩ := TableLoader.eq_record_of_first he
    exact TableLoader.load_eq_record_iff.2 he
  case map =>
    intro rs hrs hm
    obtain ⟨name, hname⟩ := Option.ne_none_iff_exists'.1 (hsome (hmode.trans hm))
    obtain ⟨f, hf, hfname, -⟩ := hfield name hname
    rw [hindex] at hname
    have hfirst : ∀ e, (t.load raws log).1 = .error e ↔
        TableLoader.First (t.KeyFault name raws rs) e := fun e =>
      TableLoader.load_map_eq_error hsound hclosed hvalue hname hf hfname hm hrs
    refine ⟨name, hname, ?_, hfirst⟩
    simp only [hfirst, TableLoader.exists_first_iff]
  case single =>
    intro rs hrs hm e
    rw [TableLoader.load_eq_assemble hrs, TableLoader.assemble_single hm, hrs.length_eq]
  case list =>
    intro rs hrs hm
    rw [TableLoader.load_eq_assemble hrs]
    obtain hm | hm := hm <;> simp only [TableLoader.assemble, hm]
  case log => rw [← TableLoader.allFailures_eq, TableLoader.load]
  case failures => exact fun i raw r _ h => TableLoader.failures_of_ok h
  case noFailures => exact fun i raw cause _ h => TableLoader.failures_of_error h

/-- A sword does at most nine damage. -/
def damageRules : RuleSet :=
  ⟨[[], [("id", .leaf []), ("damage", .leaf [.within (.integers ⟨some 0, true, some 9, true⟩)])],
    []]⟩

def deliveredSword (source : String) (id : Int) (damage : Json) : RawRecord :=
  ⟨source, .object [("$type", .string "Sword"), ("id", .ofInt id), ("damage", damage)]⟩

/-- The second sword does not load; the third does too much damage, and it has the number of the
    first. -/
def deliveredSwords : List RawRecord :=
  [deliveredSword "a.json" 2 (.ofInt 7), deliveredSword "b.json" 1 (.string "much"),
    deliveredSword "c.json" 2 (.ofInt 12)]

theorem load_reports_delivered : ∃ s, (Builder.run arsenal).build = .ok s ∧ ∃ td ∈ s.tables,
    let t : TableLoader := ⟨⟨s, none⟩, damageRules, td⟩
    let much : LoadError := ⟨.malformedScalar "int" "string `\"much\"`", [.field "Sword" "damage"]⟩
    let tooMuch : String → Failure := fun path => ⟨path, "c.json", "range", "12 is outside [0,9]"⟩
    arsenal.Closed ∧ t.Reports deliveredSwords [] ∧
      t.load deliveredSwords [] =
        (.error (.record "TbItem" "b.json" 1 much), [tooMuch "TbItem[2].damage"]) ∧
      t.Reports (deliveredSwords.eraseIdx 1) [] ∧ t.load (deliveredSwords.eraseIdx 1) [] =
        (.error (.duplicateKey "TbItem" "2" "c.json" 1), [tooMuch "TbItem[1].damage"]) := by
  refine ⟨_, rfl, _, List.mem_cons_self, ?_⟩
  intro t much tooMuch
  have hclosed : arsenal.Closed := by
    unfold History.Closed Builder.Has
    decide
  have hreports : ∀ raws, t.Reports raws [] := fun raws =>
    load_reports_of_build (h := arsenal) rfl hclosed rfl List.mem_cons_self raws []
  refine ⟨hclosed, hreports _, Prod.ext ?_ ?_, hreports _, Prod.ext ?_ ?_⟩
  · refine (hreports _).firstRecord _ ⟨1, ⟨_, _, rfl, rfl, rfl⟩, fun j hj e => ?_⟩
    -- the sword before it loads
    obtain rfl : j = 0 := by omega
    rintro ⟨raw, cause, hraw, hbad, -⟩
    cases hraw
    cases hbad
  · exact (hreports deliveredSwords).log.trans (by cbv)
  · let rs : List Record := [⟨1, [some (.integer .int 2), some (.integer .int 7)]⟩,
      ⟨1, [some (.integer .int 2), some (.integer .int 12)]⟩]
    have hrs : List.Forall₂ (fun raw r =>
        t.loader.loadBean t.table.valueType raw.value = .ok r) (deliveredSwords.eraseIdx 1) rs :=
      .cons rfl (.cons rfl .nil)
    obtain ⟨name, hname, -, hfirst⟩ := (hreports _).map rs hrs rfl
    cases hname
    have hagain : t.KeyFault "id" (deliveredSwords.eraseIdx 1) rs 1
        (.duplicateKey t.table.fullName (Datum.toJson t.loader.schema (.integer .int 2)).compact
          (deliveredSword "c.json" 2 (.ofInt 12)).source 1) :=
      .again rfl rfl rfl Nat.zero_lt_one rfl (k := .integer .int 2) rfl (by cbv)
    refine (hfirst _).2 ⟨1, hagain, fun j hj e h => ?_⟩
    obtain rfl : j = 0 := by omega
    cases h with
    | null hr hnull =>
      cases hr
      cases hnull
    | again _ _ _ hj' => exact absurd hj' (Nat.not_lt_zero _)
  · exact (hreports (deliveredSwords.eraseIdx 1)).log.trans (by cbv)

end GameConfig
