import Mathlib.Data.List.Forall2
import Mathlib.Order.Nat
import TypeSolver.Ty.Basic

/-!
# Assignments of types to variables

An assignment gives a type to every variable name, and `Ty.assign` puts it into effect in a type,
replacing all variables at once.  Replacing one variable is a special case
(`substitute_eq_assign`), so the algebra of replacement is proved once, here, for assignments:
doing two after one another is one (`assign_assign`), and only the variables that occur matter
(`assign_eq_assign_iff`).

## Induction

`Ty.induction` is induction on types with the list companions already dealt with: a function's
parameters and an object's field types come as members of their lists.  The literals and base types
are one case, `Ty.isConstant`.  Each recursive function gets its equations in terms of `List.map`
and of membership, so that no proof goes back to the companions.

## Alike types

`a ≈ b` says that two types are the same up to the sign of a zero.  It is equality of canonical
forms, in which a negative zero has become a positive one.  On number literals it is "the same bits
or equal as values" (`Double.canonical_eq_iff`): unlike the equality that the solver computes, it is
reflexive also at NaN.

## Weight

`Ty.weight` counts the nodes of a type.  A variable that occurs properly inside a type weighs less
than the type under every assignment (`weight_lt_of_mentions`); that is why a cyclic equation has no
solution.
-/

namespace TypeSolver

/-- A type for every variable name. -/
abbrev Assignment := Name → Ty

namespace Ty

/-! ## Induction -/

/-- Whether a type is a base type or a literal. -/
def isConstant : Ty → Bool
  | number | numberLit _ | string | stringLit _ | boolean | booleanLit _ => true
  | var _ | func _ _ | object _ => false

lemma kind_eq_function {t : Ty} : t.kind = .function ↔ ∃ ps r, t = func ps r := by
  cases t <;> simp [kind]

/-- Induction on types, with the parts of a function or an object as members of its lists. -/
@[elab_as_elim]
theorem induction {motive : Ty → Prop}
    (constant : ∀ t, t.isConstant = true → motive t)
    (var : ∀ n, motive (.var n))
    (func : ∀ ps r, (∀ p ∈ ps, motive p) → motive r → motive (.func ps r))
    (object : ∀ fs, (∀ f ∈ fs, motive f.2) → motive (.object fs))
    (t : Ty) : motive t := by
  refine @Ty.rec motive (fun ts => ∀ t ∈ ts, motive t) (fun fs => ∀ f ∈ fs, motive f.2)
    (fun f => motive f.2) (constant _ rfl) (fun _ => constant _ rfl) (constant _ rfl)
    (fun _ => constant _ rfl)
    (constant _ rfl) (fun _ => constant _ rfl) var (fun ps r hps hr => func ps r hps hr)
    (fun fs hfs => object fs hfs) ?_ ?_ ?_ ?_ ?_ t
  · simp
  · intro t ts ht hts u hu
    rcases List.mem_cons.1 hu with rfl | hu
    · exact ht
    · exact hts u hu
  · simp
  · intro f fs hf hfs g hg
    rcases List.mem_cons.1 hg with rfl | hg
    · exact hf
    · exact hfs g hg
  · intro _ _ h
    exact h

/-! ## Occurrence -/

lemma mentionsList_iff {n : Name} {ts : List Ty} :
    mentionsList n ts = true ↔ ∃ t ∈ ts, t.mentions n = true := by
  induction ts with
  | nil => simp [mentionsList]
  | cons t ts ih => simp [mentionsList, ih]

lemma mentionsFields_iff {n : Name} {fs : List (String × Ty)} :
    mentionsFields n fs = true ↔ ∃ f ∈ fs, f.2.mentions n = true := by
  induction fs with
  | nil => simp [mentionsFields]
  | cons f fs ih => simp [mentionsFields, ih]

@[simp] lemma mentions_var {m n : Name} : (var m).mentions n = true ↔ m = n := by
  simp [mentions]

@[simp] lemma mentions_func {n : Name} {ps : List Ty} {r : Ty} :
    (func ps r).mentions n = true ↔ (∃ p ∈ ps, p.mentions n = true) ∨ r.mentions n = true := by
  simp [mentions, mentionsList_iff]

@[simp] lemma mentions_object {n : Name} {fs : List (String × Ty)} :
    (object fs).mentions n = true ↔ ∃ f ∈ fs, f.2.mentions n = true := by
  simp [mentions, mentionsFields_iff]

lemma mentions_of_isConstant {t : Ty} (h : t.isConstant = true) (n : Name) :
    t.mentions n = false := by
  cases t <;> simp_all [isConstant, mentions]

/-! ## Replacing all variables at once -/

mutual

/-- The type with every variable replaced by what an assignment gives it. -/
def assign (θ : Assignment) : Ty → Ty
  | var n => θ n
  | func ps r => func (assignList θ ps) (assign θ r)
  | object fs => object (assignFields θ fs)
  | t => t

/-- A list of types with every variable replaced. -/
def assignList (θ : Assignment) : List Ty → List Ty
  | [] => []
  | t :: ts => assign θ t :: assignList θ ts

/-- Fields with every variable of their types replaced. -/
def assignFields (θ : Assignment) : List (String × Ty) → List (String × Ty)
  | [] => []
  | (k, t) :: fs => (k, assign θ t) :: assignFields θ fs

end

variable {θ σ : Assignment}

lemma assignList_eq_map (ts : List Ty) : assignList θ ts = ts.map (assign θ) := by
  induction ts with
  | nil => rfl
  | cons t ts ih => simp [assignList, ih]

lemma assignFields_eq_map (fs : List (String × Ty)) :
    assignFields θ fs = fs.map fun f => (f.1, f.2.assign θ) := by
  induction fs with
  | nil => rfl
  | cons f fs ih => simp [assignFields, ih]

@[simp] lemma assign_var (n : Name) : (var n).assign θ = θ n := by
  simp [assign]

@[simp] lemma assign_func (ps : List Ty) (r : Ty) :
    (func ps r).assign θ = func (ps.map (assign θ)) (r.assign θ) := by
  simp [assign, assignList_eq_map]

@[simp] lemma assign_object (fs : List (String × Ty)) :
    (object fs).assign θ = object (fs.map fun f => (f.1, f.2.assign θ)) := by
  simp [assign, assignFields_eq_map]

lemma assign_of_isConstant {t : Ty} (h : t.isConstant = true) : t.assign θ = t := by
  cases t <;> simp_all [isConstant, assign]

/-- Only the variables that occur in a type matter to it, and all of them do. -/
lemma assign_eq_assign_iff {t : Ty} :
    t.assign θ = t.assign σ ↔ ∀ n, t.mentions n = true → θ n = σ n := by
  induction t using Ty.induction with
  | constant t ht => simp [assign_of_isConstant ht, mentions_of_isConstant ht]
  | var n => simp
  | func ps r ihps ihr =>
    simp only [assign_func, func.injEq, List.map_inj_left, ihr, mentions_func, or_imp, forall_and]
    refine and_congr_left fun _ => ⟨?_, fun h p hp => (ihps p hp).2 fun n hn => h n ⟨p, hp, hn⟩⟩
    rintro h n ⟨p, hp, hn⟩
    exact (ihps p hp).1 (h p hp) n hn
  | object fs ihfs =>
    simp only [assign_object, object.injEq, List.map_inj_left, Prod.mk.injEq, true_and,
      mentions_object]
    refine ⟨?_, fun h f hf => (ihfs f hf).2 fun n hn => h n ⟨f, hf, hn⟩⟩
    rintro h n ⟨f, hf, hn⟩
    exact (ihfs f hf).1 (h f hf) n hn

/-- Two assignments after one another are one. -/
lemma assign_assign (t : Ty) : (t.assign σ).assign θ = t.assign fun n => (σ n).assign θ := by
  induction t using Ty.induction with
  | constant t ht => simp only [assign_of_isConstant ht]
  | var n => simp
  | func ps r ihps ihr => simpa [ihr] using ihps
  | object fs ihfs => simpa using fun k t hf => ihfs (k, t) hf

@[simp] lemma assign_id (t : Ty) : t.assign var = t := by
  induction t using Ty.induction with
  | constant t ht => exact assign_of_isConstant ht
  | var n => simp
  | func ps r ihps ihr =>
    rw [assign_func, ihr, List.map_congr_left ihps, List.map_id']
  | object fs ihfs =>
    have hfs : ∀ f ∈ fs, (f.1, f.2.assign var) = f := fun f hf => by rw [ihfs f hf]
    rw [assign_object, List.map_congr_left hfs, List.map_id']

/-- An assignment leaves a type alone when it leaves the type's variables alone. -/
lemma assign_eq_self_iff {t : Ty} : t.assign θ = t ↔ ∀ n, t.mentions n = true → θ n = var n := by
  rw [← assign_eq_assign_iff, assign_id]

/-- A variable occurs in a replaced type when it comes with one of the replaced variables. -/
lemma mentions_assign {t : Ty} {k : Name} :
    (t.assign θ).mentions k = true ↔ ∃ n, t.mentions n = true ∧ (θ n).mentions k = true := by
  induction t using Ty.induction with
  | constant t ht => simp [assign_of_isConstant ht, mentions_of_isConstant ht]
  | var n => simp
  | func ps r ihps ihr =>
    simp only [assign_func, mentions_func, List.mem_map, exists_exists_and_eq_and, ihr]
    constructor
    · rintro (⟨p, hp, hk⟩ | ⟨n, hn, hk⟩)
      · obtain ⟨n, hn, hk⟩ := (ihps p hp).1 hk
        exact ⟨n, .inl ⟨p, hp, hn⟩, hk⟩
      · exact ⟨n, .inr hn, hk⟩
    · rintro ⟨n, ⟨p, hp, hn⟩ | hn, hk⟩
      · exact .inl ⟨p, hp, (ihps p hp).2 ⟨n, hn, hk⟩⟩
      · exact .inr ⟨n, hn, hk⟩
  | object fs ihfs =>
    simp only [assign_object, mentions_object, List.mem_map, exists_exists_and_eq_and]
    constructor
    · rintro ⟨f, hf, hk⟩
      obtain ⟨n, hn, hk⟩ := (ihfs f hf).1 hk
      exact ⟨n, ⟨f, hf, hn⟩, hk⟩
    · rintro ⟨n, ⟨f, hf, hn⟩, hk⟩
      exact ⟨f, hf, (ihfs f hf).2 ⟨n, hn, hk⟩⟩

/-! ## Replacing one variable -/

lemma substituteList_eq_map (ts : List Ty) (n : Name) (u : Ty) :
    substituteList ts n u = ts.map fun t => t.substitute n u := by
  induction ts with
  | nil => rfl
  | cons t ts ih => simp [substituteList, ih]

lemma substituteFields_eq_map (fs : List (String × Ty)) (n : Name) (u : Ty) :
    substituteFields fs n u = fs.map fun f => (f.1, f.2.substitute n u) := by
  induction fs with
  | nil => rfl
  | cons f fs ih => simp [substituteFields, ih]

/-- Replacing one variable is the assignment that changes this variable only. -/
lemma substitute_eq_assign (t : Ty) (n : Name) (u : Ty) :
    t.substitute n u = t.assign (Function.update var n u) := by
  induction t using Ty.induction with
  | constant t ht => cases t <;> simp_all [isConstant, substitute, assign]
  | var m => simp [substitute, Function.update_apply]
  | func ps r ihps ihr => simpa [substitute, substituteList_eq_map, ihr] using ihps
  | object fs ihfs =>
    simpa [substitute, substituteFields_eq_map] using fun k t hf => ihfs (k, t) hf

/-- Replacing a variable that does not occur changes nothing. -/
lemma substitute_of_not_mentions {t : Ty} {n : Name} (h : t.mentions n = false) (u : Ty) :
    t.substitute n u = t := by
  rw [substitute_eq_assign, assign_eq_self_iff]
  intro k hk
  have hne : k ≠ n := by
    rintro rfl
    simp [h] at hk
  exact Function.update_of_ne hne _ _

lemma substitute_self (t : Ty) (n : Name) : t.substitute n (var n) = t := by
  rw [substitute_eq_assign, Function.update_eq_self, assign_id]

/-- A variable occurs after a replacement if it did before and was not the one replaced, or if it
came in with the replacement. -/
lemma mentions_substitute {t u : Ty} {n k : Name} : (t.substitute n u).mentions k = true ↔
    (k ≠ n ∧ t.mentions k = true) ∨ (t.mentions n = true ∧ u.mentions k = true) := by
  rw [substitute_eq_assign, mentions_assign]
  constructor
  · rintro ⟨m, hm, hk⟩
    by_cases hmn : m = n
    · subst hmn
      rw [Function.update_self] at hk
      exact .inr ⟨hm, hk⟩
    · rw [Function.update_of_ne hmn, mentions_var] at hk
      exact .inl ⟨hk ▸ hmn, hk ▸ hm⟩
  · rintro (⟨hkn, hk⟩ | ⟨hn, hk⟩)
    · exact ⟨k, hk, by rw [Function.update_of_ne hkn, mentions_var]⟩
    · exact ⟨n, hn, by rwa [Function.update_self]⟩

/-! ## Alike types -/

end Ty

namespace Double

/-- The number with the sign of a zero dropped. -/
def canonical (x : Double) : Double := if x.code = 0 then ⟨0⟩ else x

lemma beq_iff {x y : Double} : (x == y) = true ↔
    (x.isNaN = false ∧ y.isNaN = false) ∧ (x = y ∨ x.code = 0 ∧ y.code = 0) := by
  show sameValue x y = true ↔ _
  cases x
  cases y
  simp [sameValue]

lemma isNaN_of_code_eq_zero {x : Double} (h : x.code = 0) : x.isNaN = false := by
  simp [isNaN, h]

/-- Two numbers have one canonical form when they are the same pattern or equal as values. -/
lemma canonical_eq_iff {x y : Double} : x.canonical = y.canonical ↔ x = y ∨ (x == y) = true := by
  rw [beq_iff]
  by_cases hx : x.code = 0 <;> by_cases hy : y.code = 0
  · simp [canonical, hx, hy, isNaN_of_code_eq_zero]
  · have hne : (⟨0⟩ : Double) ≠ y := fun h => hy (h ▸ rfl)
    have hxy : x ≠ y := fun h => hy (h ▸ hx)
    simp [canonical, hx, hy, hne, hxy]
  · have hne : x ≠ (⟨0⟩ : Double) := fun h => hx (h ▸ rfl)
    have hxy : x ≠ y := fun h => hx (h ▸ hy)
    simp [canonical, hx, hy, hne, hxy]
  · simp only [canonical, hx, hy, if_false, false_and, or_false]
    exact ⟨.inl, fun h => h.elim id And.right⟩

end Double

namespace Ty

mutual

/-- The type with the sign of every zero dropped. -/
def canonical : Ty → Ty
  | numberLit x => numberLit x.canonical
  | func ps r => func (canonicalList ps) (canonical r)
  | object fs => object (canonicalFields fs)
  | t => t

/-- A list of types with the sign of every zero dropped. -/
def canonicalList : List Ty → List Ty
  | [] => []
  | t :: ts => canonical t :: canonicalList ts

/-- Fields with the sign of every zero of their types dropped. -/
def canonicalFields : List (String × Ty) → List (String × Ty)
  | [] => []
  | (k, t) :: fs => (k, canonical t) :: canonicalFields fs

end

lemma canonicalList_eq_map (ts : List Ty) : canonicalList ts = ts.map canonical := by
  induction ts with
  | nil => rfl
  | cons t ts ih => simp [canonicalList, ih]

lemma canonicalFields_eq_map (fs : List (String × Ty)) :
    canonicalFields fs = fs.map fun f => (f.1, f.2.canonical) := by
  induction fs with
  | nil => rfl
  | cons f fs ih => simp [canonicalFields, ih]

@[simp] lemma canonical_var (n : Name) : (var n).canonical = var n := by
  simp [canonical]

@[simp] lemma canonical_stringLit (s : String) : (stringLit s).canonical = stringLit s := by
  simp [canonical]

@[simp] lemma canonical_func (ps : List Ty) (r : Ty) :
    (func ps r).canonical = func (ps.map canonical) r.canonical := by
  simp [canonical, canonicalList_eq_map]

@[simp] lemma canonical_object (fs : List (String × Ty)) :
    (object fs).canonical = object (fs.map fun f => (f.1, f.2.canonical)) := by
  simp [canonical, canonicalFields_eq_map]

lemma isConstant_canonical {t : Ty} (h : t.isConstant = true) :
    t.canonical.isConstant = true := by
  cases t <;> simp_all [isConstant, canonical]

/-- Dropping the signs of zeros commutes with an assignment. -/
lemma canonical_assign (t : Ty) :
    (t.assign θ).canonical = t.canonical.assign fun n => (θ n).canonical := by
  induction t using Ty.induction with
  | constant t ht =>
    rw [assign_of_isConstant ht, assign_of_isConstant (isConstant_canonical ht)]
  | var n => simp
  | func ps r ihps ihr => simpa [ihr] using ihps
  | object fs ihfs => simpa using fun k t hf => ihfs (k, t) hf

/-- Two types are alike when they are the same up to the sign of zeros. -/
instance : Setoid Ty where
  r a b := a.canonical = b.canonical
  iseqv := ⟨fun _ => rfl, fun h => h.symm, fun h k => h.trans k⟩

lemma alike_iff {a b : Ty} : a ≈ b ↔ a.canonical = b.canonical := Iff.rfl

lemma alike_of_eq {a b : Ty} (h : a = b) : a ≈ b := alike_iff.2 (congrArg canonical h)

/-- Only a variable is like a variable, and only the same one. -/
lemma eq_var_of_alike {n : Name} {t : Ty} (h : var n ≈ t) : t = var n := by
  rw [alike_iff, canonical_var] at h
  cases t with
  | var m => simpa using h.symm
  | func ps r => simp at h
  | object fs => simp at h
  | _ => simp [canonical] at h

/-- Two functions are alike when their parameters and results are, one by one. -/
lemma alike_func {ps qs : List Ty} {r q : Ty} :
    func ps r ≈ func qs q ↔ List.Forall₂ (· ≈ ·) ps qs ∧ r ≈ q := by
  have hlist : ps.map canonical = qs.map canonical ↔ List.Forall₂ (· ≈ ·) ps qs := by
    rw [← List.forall₂_eq_eq_eq, List.forall₂_map_left_iff, List.forall₂_map_right_iff]
    rfl
  rw [alike_iff, canonical_func, canonical_func, func.injEq, hlist]
  rfl

/-- Assignments that agree up to the sign of zeros make alike types. -/
lemma assign_alike (t : Ty) (h : ∀ n, θ n ≈ σ n) : t.assign θ ≈ t.assign σ := by
  have hcan : (fun n => (θ n).canonical) = fun n => (σ n).canonical := funext h
  rw [alike_iff, canonical_assign, canonical_assign, hcan]

/-- Alike types stay alike under an assignment. -/
lemma alike_assign {a b : Ty} (h : a ≈ b) : a.assign θ ≈ b.assign θ := by
  rw [alike_iff, canonical_assign, canonical_assign, alike_iff.1 h]

lemma beqList_iff {ts us : List Ty} :
    beqList ts us = true ↔ List.Forall₂ (fun t u => (t == u) = true) ts us := by
  induction ts generalizing us with
  | nil => cases us <;> simp [beqList]
  | cons t ts ih =>
    cases us with
    | nil => simp [beqList]
    | cons u us =>
      rw [beqList, Bool.and_eq_true, ih, List.forall₂_cons]
      rfl

lemma beqFields_iff {fs gs : List (String × Ty)} :
    beqFields fs gs = true ↔ List.Forall₂ (fun f g => f.1 = g.1 ∧ (f.2 == g.2) = true) fs gs := by
  induction fs generalizing gs with
  | nil => cases gs <;> simp [beqFields]
  | cons f fs ih =>
    cases gs with
    | nil => simp [beqFields]
    | cons g gs =>
      rw [beqFields, Bool.and_eq_true, Bool.and_eq_true, ih, List.forall₂_cons, beq_iff_eq]
      rfl

/-! ## Weight -/

mutual

/-- The number of nodes of a type. -/
def weight : Ty → Nat
  | func ps r => weightList ps + weight r + 1
  | object fs => weightFields fs + 1
  | _ => 1

/-- The number of nodes of a list of types. -/
def weightList : List Ty → Nat
  | [] => 0
  | t :: ts => weight t + weightList ts

/-- The number of nodes of the types of fields. -/
def weightFields : List (String × Ty) → Nat
  | [] => 0
  | (_, t) :: fs => weight t + weightFields fs

end

lemma weight_le_weightList {t : Ty} {ts : List Ty} (h : t ∈ ts) : t.weight ≤ weightList ts := by
  induction h with
  | head ts =>
    rw [weightList]
    exact Nat.le_add_right _ _
  | tail u _ ih =>
    rw [weightList]
    exact ih.trans (Nat.le_add_left _ _)

lemma weight_le_weightFields {f : String × Ty} {fs : List (String × Ty)} (h : f ∈ fs) :
    f.2.weight ≤ weightFields fs := by
  induction h with
  | head fs =>
    rw [weightFields]
    exact Nat.le_add_right _ _
  | tail g _ ih =>
    rw [weightFields]
    exact ih.trans (Nat.le_add_left _ _)

lemma weightList_map {g : Ty → Ty} {ts : List Ty} (h : ∀ t ∈ ts, (g t).weight = t.weight) :
    weightList (ts.map g) = weightList ts := by
  induction ts with
  | nil => rfl
  | cons t ts ih =>
    rw [List.forall_mem_cons] at h
    rw [List.map_cons, weightList, weightList, h.1, ih h.2]

lemma weightFields_map {g : Ty → Ty} {fs : List (String × Ty)}
    (h : ∀ f ∈ fs, (g f.2).weight = f.2.weight) :
    weightFields (fs.map fun f => (f.1, g f.2)) = weightFields fs := by
  induction fs with
  | nil => rfl
  | cons f fs ih =>
    rw [List.forall_mem_cons] at h
    rw [List.map_cons, weightFields, weightFields, h.1, ih h.2]

lemma weight_of_isConstant {t : Ty} (h : t.isConstant = true) : t.weight = 1 := by
  cases t <;> simp_all [isConstant, weight]

lemma weight_pos (t : Ty) : 0 < t.weight := by
  cases t <;> simp [weight]

lemma weight_canonical (t : Ty) : t.canonical.weight = t.weight := by
  induction t using Ty.induction with
  | constant t ht => rw [weight_of_isConstant ht, weight_of_isConstant (isConstant_canonical ht)]
  | var n => simp
  | func ps r ihps ihr => rw [canonical_func, weight, weight, weightList_map ihps, ihr]
  | object fs ihfs => rw [canonical_object, weight, weight, weightFields_map ihfs]

/-- Alike types weigh the same. -/
lemma weight_eq_of_alike {a b : Ty} (h : a ≈ b) : a.weight = b.weight := by
  rw [← weight_canonical a, ← weight_canonical b, alike_iff.1 h]

lemma weight_lt_func_of_mem {p : Ty} {ps : List Ty} (h : p ∈ ps) (r : Ty) :
    p.weight < (func ps r).weight := by
  have hle := weight_le_weightList h
  rw [weight]
  omega

lemma weight_lt_func_result (ps : List Ty) (r : Ty) : r.weight < (func ps r).weight := by
  rw [weight]
  omega

lemma weight_lt_object_of_mem {f : String × Ty} {fs : List (String × Ty)} (h : f ∈ fs) :
    f.2.weight < (object fs).weight := by
  have hle := weight_le_weightFields h
  rw [weight]
  omega

/-- What a variable stands for weighs no more than a type it occurs in. -/
lemma weight_le_of_mentions {t : Ty} {n : Name} (h : t.mentions n = true) :
    (θ n).weight ≤ (t.assign θ).weight := by
  induction t using Ty.induction with
  | constant t ht => simp [mentions_of_isConstant ht] at h
  | var m => simp_all
  | func ps r ihps ihr =>
    rw [assign_func]
    rcases mentions_func.1 h with ⟨p, hp, hn⟩ | hn
    · exact (ihps p hp hn).trans (weight_lt_func_of_mem (List.mem_map_of_mem hp) _).le
    · exact (ihr hn).trans (weight_lt_func_result _ _).le
  | object fs ihfs =>
    rw [assign_object]
    obtain ⟨f, hf, hn⟩ := mentions_object.1 h
    exact (ihfs f hf hn).trans (weight_lt_object_of_mem (List.mem_map_of_mem
      (f := fun f => (f.1, f.2.assign θ)) hf)).le

/-- What a variable stands for weighs less than a type it occurs properly in. -/
lemma weight_lt_of_mentions {t : Ty} {n : Name} (h : t.mentions n = true) (hne : t ≠ var n) :
    (θ n).weight < (t.assign θ).weight := by
  cases t with
  | var m => exact absurd (congrArg var (mentions_var.1 h)) hne
  | func ps r =>
    rw [assign_func]
    rcases mentions_func.1 h with ⟨p, hp, hn⟩ | hn
    · exact (weight_le_of_mentions hn).trans_lt
        (weight_lt_func_of_mem (List.mem_map_of_mem hp) _)
    · exact (weight_le_of_mentions hn).trans_lt (weight_lt_func_result _ _)
  | object fs =>
    rw [assign_object]
    obtain ⟨f, hf, hn⟩ := mentions_object.1 h
    exact (weight_le_of_mentions hn).trans_lt
      (weight_lt_object_of_mem (List.mem_map_of_mem (f := fun f => (f.1, f.2.assign θ)) hf))
  | _ => simp [mentions] at h

end Ty

end TypeSolver
