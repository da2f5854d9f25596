import GameConfig.Proofs.Ty.Reading
import GameConfig.Schema.Basic

/-
  Types under other numbers.

  Types refer to beans and enums by number.  A `Renumbering` says which number
  stands for which, and `Ty.renumber` carries a type over.  Reading an
  expression looks at no number: in a scope that resolves names to the new
  numbers it gives the same type under these (`Ty.parse_renumber`).
-/

namespace GameConfig

/-- The new numbers of beans and of enums. -/
structure Renumbering where
  bean : Nat → Nat
  enum : Nat → Nat

/-- The numbers as they are. -/
def Renumbering.id : Renumbering := ⟨fun i => i, fun i => i⟩

variable (ρ : Renumbering)

/-! ## Parts of a schema -/

def TypeRef.renumber : TypeRef → TypeRef
  | .bean i => .bean (ρ.bean i)
  | .enum i => .enum (ρ.enum i)

def Ty.renumber : Ty → Ty
  | .scalar m k => .scalar m k
  | .named m r => .named m (r.renumber ρ)
  | .seq m k e => .seq m k e.renumber
  | .map m k v => .map m k.renumber v.renumber

def Field.renumber (f : Field) : Field := { f with ty := f.ty.renumber ρ }

def BeanDecl.renumber (d : BeanDecl) : BeanDecl := { d with fields := d.fields.map (·.renumber ρ) }

def TableDef.renumber (t : TableDef) : TableDef := { t with valueType := ρ.bean t.valueType }

@[simp]
theorem Ty.isCollection_renumber (ty : Ty) : (ty.renumber ρ).isCollection = ty.isCollection := by
  cases ty <;> rfl

/-- A bean stays a bean. -/
theorem Ty.exists_renumber_eq_bean {ty : Ty} :
    (∃ m i, ty.renumber ρ = .named m (.bean i)) ↔ ∃ m i, ty = .named m (.bean i) := by
  cases ty with
  | named m ref => cases ref <;> simp [renumber, TypeRef.renumber]
  | _ => simp [renumber]

@[simp]
theorem TypeRef.renumber_id (ref : TypeRef) : ref.renumber .id = ref := by
  cases ref <;> rfl

@[simp]
theorem Ty.renumber_id (ty : Ty) : ty.renumber .id = ty := by
  induction ty with
  | scalar => rfl
  | named => rw [renumber, TypeRef.renumber_id]
  | seq _ _ _ ih => rw [renumber, ih]
  | map _ _ _ ihk ihv => rw [renumber, ihk, ihv]

@[simp]
theorem Field.renumber_id (f : Field) : f.renumber .id = f := by simp [renumber]

@[simp]
theorem BeanDecl.renumber_id (d : BeanDecl) : d.renumber .id = d := by simp [renumber]

/-! ## Expressions -/

namespace Notation

section
variable {ρ} {scope scope' : Scope}
  (hs : ∀ n, scope'.resolve n = (scope.resolve n).map (TypeRef.renumber ρ))
include hs

theorem leaf_renumber {m : Mark} {name : List Char} {ty : Ty} (h : leaf scope m name = .ok ty) :
    leaf scope' m name = .ok (ty.renumber ρ) := by
  rcases leaf_eq_ok.1 h with ⟨k, hk, rfl⟩ | ⟨hk, hc, hname, ref, hr, rfl⟩
  · exact leaf_eq_ok.2 (Or.inl ⟨k, hk, rfl⟩)
  · refine leaf_eq_ok.2 (Or.inr ⟨hk, hc, hname, ref.renumber ρ, ?_, rfl⟩)
    rw [hs, hr]
    rfl

/-- **An expression stands for the same type under the new numbers.** -/
theorem Reads.renumber {cs : List Char} {ty : Ty} (h : Reads scope cs ty) :
    Reads scope' cs (ty.renumber ρ) := by
  induction h with
  | whole hshape _ ih => exact .whole hshape ih
  | name hshape hh hl => exact .name hshape hh (leaf_renumber hs hl)
  | seq hshape hh hc _ ih => exact .seq hshape hh hc ih
  | map hshape hh hc hr _ _ ihk ihv => exact .map hshape hh hc hr ihk ihv

end

end Notation

/-- **Where names resolve to the new numbers, an expression means the same type.** -/
theorem Ty.parse_renumber {scope scope' : Scope}
    (hs : ∀ n, scope'.resolve n = (scope.resolve n).map (TypeRef.renumber ρ)) {text : String}
    {ty : Ty} (h : parse scope text = .ok ty) : parse scope' text = .ok (ty.renumber ρ) :=
  Notation.read_eq_ok.2 ((Notation.reads_of_read h).renumber hs)

end GameConfig
