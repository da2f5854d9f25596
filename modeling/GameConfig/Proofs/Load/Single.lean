import GameConfig.Proofs.Load.Step
import GameConfig.Proofs.Number.Twice

/-
  Singles that load again from their export.

  The export of a single is the double nearest to its shortest decimal, and
  loading rounds that to a single.  So a single comes back if the decimal was
  rounded to within the range of singles and not to halfway between two of
  them.  There is one magnitude for which it was not, in either case
  (`reload_float_iff`).
-/

namespace GameConfig

namespace Loader

variable {l : Loader} {m : Mark}

/-- The value loads again from its export, as an equal value. -/
def Reloads (l : Loader) (ty : Ty) (d : Datum) : Prop :=
  ∃ d', l.load ty (d.toJson l.schema) = .ok d' ∧ d.same d' = true

/-- What loads as a single is one, and finite. -/
theorem exists_of_load_float {raw : Json} {d : Datum} (h : l.load (.scalar m .float) raw = .ok d) :
    ∃ x : Single, d = .float x ∧ x.isFinite = true := by
  rw [load_scalar] at h
  obtain ⟨y, -, ⟨hfin, hle⟩, rfl⟩ := single_eq_ok.1 h
  exact ⟨_, rfl, Binary.isFinite_narrow hfin hle⟩

/-- A finite single loads from its export if the double is within the range of singles. -/
theorem load_float_toJson {x : Single} (hx : x.isFinite = true) {d : Datum} :
    l.load (.scalar m .float) ((Datum.float x).toJson l.schema) = .ok d ↔
      x.exported.abs.le Single.greatest.widen = true ∧ d = .float x.exported.narrow := by
  have hfin := Single.isFinite_exported hx
  have hjson : (Datum.float x).toJson l.schema = .number (.double x.exported) := by
    rw [Datum.toJson, Json.ofDouble, if_pos hfin]
  rw [load_scalar, hjson, scalar, single_eq_ok]
  simp [Json.double?, Json.Number.toDouble, hfin]

theorem reloads_float_iff {x : Single} (hx : x.isFinite = true) :
    l.Reloads (.scalar m .float) (.float x) ↔
      x.abs ≠ Single.greatest ∧ x.abs ≠ Single.rereadAstray := by
  rw [← Single.exported_iff hx]
  have hsame : (Datum.float x).same (.float x.exported.narrow) = x.same x.exported.narrow := by
    rw [Datum.same]
  constructor
  · rintro ⟨d, hd, h⟩
    obtain ⟨hle, rfl⟩ := (load_float_toJson hx).1 hd
    exact ⟨hle, hsame ▸ h⟩
  · rintro ⟨hle, h⟩
    exact ⟨_, (load_float_toJson hx).2 ⟨hle, rfl⟩, hsame.trans h⟩

/-- **What loads as a single loads again from its export, as an equal value, if and only if** its
    magnitude is neither the greatest one, whose decimal is out of range, nor the one whose
    decimal is rounded astray. -/
theorem reload_float_iff {raw : Json} {d : Datum} (h : l.load (.scalar m .float) raw = .ok d) :
    ∃ x : Single, d = .float x ∧ (l.Reloads (.scalar m .float) d ↔
      x.abs ≠ Single.greatest ∧ x.abs ≠ Single.rereadAstray) := by
  obtain ⟨x, rfl, hx⟩ := exists_of_load_float h
  exact ⟨x, rfl, reloads_float_iff hx⟩

/-- One tenth, rounded down to a double. -/
def tenth : Double := .ofRank false 0x3FB999999999999A

/-- One tenth is rounded up to a single, and loads again. -/
theorem reload_float_tenth :
    load ⟨.empty, none⟩ (.scalar .plain .float) (.number (.double tenth)) =
        .ok (.float (.ofRank false 0x3DCCCCCD)) ∧
      Reloads ⟨.empty, none⟩ (.scalar .plain .float) (.float (.ofRank false 0x3DCCCCCD)) := by
  have hload : load ⟨.empty, none⟩ (.scalar .plain .float) (.number (.double tenth)) =
      .ok (.float (.ofRank false 0x3DCCCCCD)) := rfl
  obtain ⟨x, hx, hiff⟩ := reload_float_iff hload
  obtain rfl : _ = x := Datum.float.inj hx
  exact ⟨hload, hiff.2 ⟨by decide, by decide⟩⟩

/-- The two singles load from the doubles that they are, but not again from their exports. -/
theorem not_reload_float :
    (load ⟨.empty, none⟩ (.scalar .plain .float) (.number (.double Single.greatest.widen)) =
        .ok (.float .greatest) ∧
      ¬ Reloads ⟨.empty, none⟩ (.scalar .plain .float) (.float .greatest)) ∧
    (load ⟨.empty, none⟩ (.scalar .plain .float) (.number (.double Single.rereadAstray.widen)) =
        .ok (.float .rereadAstray) ∧
      ¬ Reloads ⟨.empty, none⟩ (.scalar .plain .float) (.float .rereadAstray)) :=
  ⟨⟨rfl, fun h => ((reloads_float_iff rfl).1 h).1 rfl⟩,
    ⟨rfl, fun h => ((reloads_float_iff rfl).1 h).2 rfl⟩⟩

end Loader

end GameConfig
