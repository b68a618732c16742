import Mathlib.Data.Set.Finite.Lattice
import TypeSolver.Proofs.Ty.Parts

/-!
# Renaming the variables of a type

A renaming is a function on names, and `Ty.rename` puts it into effect in a type.  It is an
assignment, so its algebra is that of assignments; literals and the names of fields are not touched.

A renaming that is one to one cannot be told from outside: two types compare as before
(`beq_rename`), a variable is replaced where it was before (`rename_substitute`), and the kind of a
type and the text of a literal are what they were.  Only the names that occur matter
(`rename_congr`), and those are finitely many (`finite_mentions`).
-/

namespace TypeSolver

namespace Ty

variable {ρ π : Name → Name} {t : Ty} {k : Name}

/-- The type with its variables renamed. -/
def rename (ρ : Name → Name) (t : Ty) : Ty := t.assign fun n => var (ρ n)

@[simp] lemma rename_var (ρ : Name → Name) (n : Name) : (var n).rename ρ = var (ρ n) :=
  assign_var n

@[simp] lemma rename_func (ρ : Name → Name) (ps : List Ty) (r : Ty) :
    (func ps r).rename ρ = func (ps.map (rename ρ)) (r.rename ρ) :=
  assign_func ps r

@[simp] lemma rename_object (ρ : Name → Name) (fs : List (String × Ty)) :
    (object fs).rename ρ = object (fs.map fun f => (f.1, f.2.rename ρ)) :=
  assign_object fs

lemma rename_of_isConstant (h : t.isConstant = true) : t.rename ρ = t :=
  assign_of_isConstant h

/-- Renamings that agree on the variables of a type make the same of it. -/
lemma rename_congr (h : ∀ n, t.mentions n = true → ρ n = π n) : t.rename ρ = t.rename π :=
  assign_eq_assign_iff.2 fun n hn => congrArg var (h n hn)

lemma mentions_rename : (t.rename ρ).mentions k = true ↔ ∃ n, t.mentions n = true ∧ ρ n = k := by
  simp [rename, mentions_assign]

lemma rename_assign (t : Ty) (θ : Assignment) :
    (t.assign θ).rename ρ = t.assign fun n => (θ n).rename ρ :=
  assign_assign t

lemma assign_rename (t : Ty) (θ : Assignment) : (t.rename ρ).assign θ = t.assign (θ ∘ ρ) := by
  rw [rename, assign_assign]
  simp only [assign_var]
  rfl

/-! ## What a renaming does not change -/

@[simp] lemma kind_rename : (t.rename ρ).kind = t.kind := by
  cases t <;> simp [rename, assign, kind]

@[simp] lemma isConstant_rename : (t.rename ρ).isConstant = t.isConstant := by
  cases t <;> simp [rename, assign, isConstant]

@[simp] lemma varName?_rename : (t.rename ρ).varName? = t.varName?.map ρ := by
  cases t <;> simp [rename, assign, varName?]

@[simp] lemma stringLit?_rename : (t.rename ρ).stringLit? = t.stringLit? := by
  cases t <;> simp [rename, assign, stringLit?]

/-- Renaming commutes with the replacement of a variable. -/
lemma rename_substitute (hρ : Function.Injective ρ) (t : Ty) (n : Name) (u : Ty) :
    (t.substitute n u).rename ρ = (t.rename ρ).substitute (ρ n) (u.rename ρ) := by
  rw [substitute_eq_assign, substitute_eq_assign, rename_assign, assign_rename]
  refine assign_eq_assign_iff.2 fun m _ => ?_
  by_cases hm : m = n
  · subst hm
    simp
  · rw [Function.update_of_ne hm, Function.comp_apply, Function.update_of_ne (hρ.ne hm),
      rename_var]

lemma beqList_map {g : Ty → Ty} {ps qs : List Ty} (h : ∀ p ∈ ps, ∀ q, beq (g p) (g q) = beq p q) :
    beqList (ps.map g) (qs.map g) = beqList ps qs := by
  induction ps generalizing qs with
  | nil => cases qs <;> simp [beqList]
  | cons p ps ih =>
    rw [List.forall_mem_cons] at h
    cases qs with
    | nil => simp [beqList]
    | cons q qs => simp [beqList, h.1 q, ih h.2]

lemma beqFields_map {g : Ty → Ty} {fs gs : List (String × Ty)}
    (h : ∀ f ∈ fs, ∀ u, beq (g f.2) (g u) = beq f.2 u) :
    beqFields (fs.map fun f => (f.1, g f.2)) (gs.map fun f => (f.1, g f.2)) =
      beqFields fs gs := by
  induction fs generalizing gs with
  | nil => cases gs <;> simp [beqFields]
  | cons f fs ih =>
    rw [List.forall_mem_cons] at h
    cases gs with
    | nil => simp [beqFields]
    | cons f' gs => simp [beqFields, h.1 f'.2, ih h.2]

/-- A one-to-one renaming keeps equality and difference. -/
lemma beq_rename (hρ : Function.Injective ρ) (a b : Ty) :
    (a.rename ρ == b.rename ρ) = (a == b) := by
  show beq (a.rename ρ) (b.rename ρ) = beq a b
  induction a using Ty.induction generalizing b with
  | constant a ha =>
    rw [rename_of_isConstant ha]
    cases a <;> cases b <;> simp_all [isConstant, rename, assign, beq]
  | var m => cases b <;> simp [rename, assign, beq, hρ.eq_iff]
  | func ps r ihps ihr =>
    cases b with
    | func qs q => rw [rename_func, rename_func, beq, beq, beqList_map ihps, ihr]
    | _ => simp [rename, assign, beq]
  | object fs ihfs =>
    cases b with
    | object gs => rw [rename_object, rename_object, beq, beq, beqFields_map ihfs]
    | _ => simp [rename, assign, beq]

/-- A type has finitely many variables. -/
lemma finite_mentions (t : Ty) : {n | t.mentions n = true}.Finite := by
  induction t using Ty.induction with
  | constant t ht => simp [mentions_of_isConstant ht]
  | var n => simp
  | func ps r ihps ihr =>
    have hparams := (List.finite_toSet ps).biUnion fun p hp => ihps p hp
    refine (hparams.union ihr).subset fun n hn => ?_
    rcases mentions_func.1 hn with ⟨p, hp, hnp⟩ | hnr
    · exact .inl (Set.mem_biUnion hp hnp)
    · exact .inr hnr
  | object fs ihfs =>
    have hfields := (List.finite_toSet fs).biUnion fun f hf => ihfs f hf
    refine hfields.subset fun n hn => ?_
    obtain ⟨f, hf, hnf⟩ := mentions_object.1 hn
    exact Set.mem_biUnion hf hnf

end Ty

end TypeSolver
