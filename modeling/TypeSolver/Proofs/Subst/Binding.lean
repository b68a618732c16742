import TypeSolver.Unify
import TypeSolver.Proofs.Ty.Assignment

/-!
# What binding a name does

A substitution is read as an assignment that leaves unbound names alone, and applying it is putting
that assignment into effect (`apply_eq_assign`).  Proofs then speak of `s.toAssignment` and never of
the list of bindings.

A name is *unresolved* when the substitution maps it to itself: it is unbound, or bound to nothing
but itself.  Those are the names that the solver binds, and for them `Subst.bind` is composition of
functions: applying `s.bind n t` is applying `s` and then replacing `n` (`apply_bind`).  That the
bindings which do not mention the name are skipped makes no difference (`replaceIn_eq_mapTypes`).
-/

namespace TypeSolver

namespace Subst

variable {s : Subst} {m n : Name} {t u : Ty}

/-! ## Looking up -/

lemma lookup_cons_eq_ite (m k : Name) (v : Ty) (bs : List (Name × Ty)) :
    ((k, v) :: bs).lookup m = if m = k then some v else bs.lookup m := by
  by_cases h : m = k
  · simp [h]
  · simp [List.lookup_cons, beq_eq_false_iff_ne.2 h, h]

lemma mem_of_lookup {bs : List (Name × Ty)} (h : bs.lookup n = some t) : (n, t) ∈ bs := by
  obtain ⟨before, after, rfl, -⟩ := List.lookup_eq_some_iff.1 h
  simp

lemma get?_eq_some_iff : s.get? n = some t ↔ (n, t) ∈ s.bindings := by
  obtain ⟨bs, hbs⟩ := s
  show bs.lookup n = some t ↔ (n, t) ∈ bs
  induction bs with
  | nil => simp
  | cons b bs ih =>
    obtain ⟨k, v⟩ := b
    rw [List.map_cons, List.nodup_cons] at hbs
    rw [lookup_cons_eq_ite, List.mem_cons, ← ih hbs.2, Prod.mk.injEq]
    by_cases hk : n = k
    · -- the rest binds other names only, so the first binding is the one that counts
      have hnone : bs.lookup n ≠ some t := fun h =>
        hbs.1 (List.mem_map.2 ⟨(n, t), (ih hbs.2).1 h, hk⟩)
      rw [if_pos hk, or_iff_left hnone, Option.some.injEq, eq_comm]
      exact (and_iff_right hk).symm
    · simp [hk]

@[simp] lemma get?_empty : empty.get? n = none := rfl

lemma get?_single : (single n t).get? m = if m = n then some t else none :=
  lookup_cons_eq_ite m n t []

lemma get?_put : (s.put n t).get? m = if m = n then some t else s.get? m := by
  obtain ⟨bs, hbs⟩ := s
  show (putBinding n t bs).lookup m = if m = n then some t else bs.lookup m
  clear hbs
  induction bs with
  | nil => exact lookup_cons_eq_ite m n t []
  | cons b bs ih =>
    obtain ⟨k, v⟩ := b
    rw [putBinding]
    split
    · rename_i hk
      subst hk
      rw [lookup_cons_eq_ite, lookup_cons_eq_ite]
      split <;> rfl
    · rename_i hk
      rw [lookup_cons_eq_ite, lookup_cons_eq_ite, ih]
      by_cases hm : m = k
      · simp [hm, hk]
      · simp [hm]

/-- Looking up commutes with a change of all types. -/
lemma lookup_map_type (f : Ty → Ty) (bs : List (Name × Ty)) (n : Name) :
    (bs.map fun b => (b.1, f b.2)).lookup n = (bs.lookup n).map f := by
  induction bs with
  | nil => rfl
  | cons b bs ih =>
    rw [List.map_cons, lookup_cons_eq_ite, lookup_cons_eq_ite, ih]
    split <;> rfl

lemma get?_mapTypes {f : Ty → Ty} : (s.mapTypes f).get? n = (s.get? n).map f :=
  lookup_map_type f s.bindings n

/-! ## The place of a binding -/

lemma eq_of_bindings {s r : Subst} (h : s.bindings = r.bindings) : s = r := by
  cases s
  cases r
  cases h
  rfl

lemma get?_eq_none_iff : s.get? n = none ↔ n ∉ s.names := by
  rw [get?, names, List.lookup_eq_none_iff, List.mem_map]
  simp only [bne_iff_ne, not_exists, not_and]
  exact forall₂_congr fun b _ => ne_comm

/-- A binding of a new name goes to the end. -/
lemma putBinding_of_not_mem {bs : List (Name × Ty)} (h : n ∉ bs.map Prod.fst) :
    putBinding n t bs = bs ++ [(n, t)] := by
  induction bs with
  | nil => rfl
  | cons b bs ih =>
    obtain ⟨hne, hmem⟩ : n ≠ b.1 ∧ n ∉ bs.map Prod.fst := by simpa using h
    rw [putBinding, if_neg hne.symm, ih hmem, List.cons_append]

lemma bindings_put_of_new (h : s.get? n = none) : (s.put n t).bindings = s.bindings ++ [(n, t)] :=
  putBinding_of_not_mem (get?_eq_none_iff.1 h)

/-- A substitution that has no name but one. -/
lemma bindings_of_only (h : ∀ m, m ≠ n → s.get? m = none) :
    s.bindings = ((s.get? n).map fun t => (n, t)).toList := by
  have hname : ∀ b ∈ s.bindings, b.1 = n := by
    intro b hb
    by_contra hne
    have hsome := get?_eq_some_iff.2 hb
    rw [h b.1 hne] at hsome
    cases hsome
  have hnodup := s.nodup
  rw [get?]
  cases hs : s.bindings with
  | nil => rfl
  | cons b rest =>
    rw [hs] at hname hnodup
    obtain ⟨rfl, hrest⟩ := List.forall_mem_cons.1 hname
    obtain rfl : rest = [] := by
      refine List.eq_nil_iff_forall_not_mem.2 fun c hc => ?_
      rw [List.map_cons, List.nodup_cons] at hnodup
      exact hnodup.1 (hrest c hc ▸ List.mem_map_of_mem hc)
    obtain ⟨m, t⟩ := b
    simp

/-- Putting a binding that is there already changes nothing. -/
lemma put_of_get?_eq_some (h : s.get? n = some t) : s.put n t = s := by
  refine eq_of_bindings ?_
  obtain ⟨bs, hbs⟩ := s
  replace h : bs.lookup n = some t := h
  show putBinding n t bs = bs
  clear hbs
  induction bs with
  | nil => cases h
  | cons b bs ih =>
    obtain ⟨k, v⟩ := b
    rw [lookup_cons_eq_ite] at h
    rw [putBinding]
    by_cases hk : n = k
    · rw [if_pos hk, Option.some.injEq] at h
      rw [if_pos hk.symm, h]
    · rw [if_neg hk] at h
      rw [if_neg (Ne.symm hk), ih h]

/-! ## A substitution as an assignment -/

/-- What a substitution makes of each variable. -/
def toAssignment (s : Subst) : Assignment := fun n => (s.get? n).getD (.var n)

lemma toAssignment_of_mem (h : (n, t) ∈ s.bindings) : s.toAssignment n = t := by
  simp [toAssignment, get?_eq_some_iff.2 h]

/-- What holds of every binding, and of names that stand for themselves, holds of every name. -/
lemma forall_toAssignment_iff {P : Name → Ty → Prop} (hvar : ∀ n, s.get? n = none → P n (.var n)) :
    (∀ n, P n (s.toAssignment n)) ↔ ∀ b ∈ s.bindings, P b.1 b.2 := by
  constructor
  · rintro h ⟨n, t⟩ hb
    exact toAssignment_of_mem hb ▸ h n
  · intro h n
    cases hget : s.get? n with
    | none => simpa [toAssignment, hget] using hvar n hget
    | some t => simpa [toAssignment, hget] using h (n, t) (get?_eq_some_iff.1 hget)

@[simp] lemma toAssignment_empty : empty.toAssignment = Ty.var := by
  funext n
  simp [toAssignment]

lemma toAssignment_single (n : Name) (t : Ty) :
    (single n t).toAssignment = Function.update Ty.var n t := by
  funext m
  rw [toAssignment, get?_single, Function.update_apply]
  split <;> rfl

lemma applyList_eq_map (ts : List Ty) : s.applyList ts = ts.map s.apply := by
  induction ts with
  | nil => rfl
  | cons t ts ih => simp [applyList, ih]

lemma applyFields_eq_map (fs : List (String × Ty)) :
    s.applyFields fs = fs.map fun f => (f.1, s.apply f.2) := by
  induction fs with
  | nil => rfl
  | cons f fs ih => simp [applyFields, ih]

/-- Applying a substitution is putting its assignment into effect. -/
lemma apply_eq_assign (s : Subst) (t : Ty) : s.apply t = t.assign s.toAssignment := by
  induction t using Ty.induction with
  | constant t ht => cases t <;> simp_all [Ty.isConstant, apply, Ty.assign]
  | var n => simp [apply, toAssignment]
  | func ps r ihps ihr => simpa [apply, applyList_eq_map, ihr] using ihps
  | object fs ihfs => simpa [apply, applyFields_eq_map] using fun k t hf => ihfs (k, t) hf

/-! ## Binding an unresolved name -/

/-- A name that the substitution maps to itself. -/
def Unresolved (s : Subst) (n : Name) : Prop := s.toAssignment n = .var n

lemma unresolved_iff : s.Unresolved n ↔ s.get? n = none ∨ s.get? n = some (.var n) := by
  unfold Unresolved toAssignment
  cases s.get? n <;> simp

/-- Passing over the bindings that do not mention a name is the same as replacing it everywhere. -/
lemma replaceIn_eq_mapTypes : s.replaceIn n u = s.mapTypes fun t => t.substitute n u := by
  unfold replaceIn
  congr 1
  funext t
  split
  · rfl
  · rename_i hn
    rw [Bool.not_eq_true] at hn
    exact (Ty.substitute_of_not_mentions hn u).symm

lemma replaceIn_eq_self (h : ∀ b ∈ s.bindings, b.2.substitute n u = b.2) :
    s.replaceIn n u = s := by
  refine eq_of_bindings ?_
  rw [replaceIn_eq_mapTypes]
  refine (List.map_congr_left fun b hb => ?_).trans (List.map_id' _)
  exact Prod.ext rfl (h b hb)

@[simp] lemma names_replaceIn : (s.replaceIn n u).names = s.names := by
  simp [names, replaceIn, mapTypes, Function.comp_def]

lemma get?_bind : (s.bind n t).get? m =
    if m = n then some (s.apply t) else (s.get? m).map fun v => v.substitute n (s.apply t) := by
  rw [bind, get?_put, replaceIn_eq_mapTypes, get?_mapTypes]

/-- Binding an unresolved name is composition with the replacement of that name. -/
lemma toAssignment_bind (h : s.Unresolved n) (t : Ty) (m : Name) :
    (s.bind n t).toAssignment m = (s.toAssignment m).substitute n (s.apply t) := by
  by_cases hm : m = n
  · subst hm
    rw [h, toAssignment, get?_bind, if_pos rfl]
    simp [Ty.substitute]
  · rw [toAssignment, get?_bind, if_neg hm, toAssignment]
    cases s.get? m <;> simp [Ty.substitute, hm]

lemma apply_bind (h : s.Unresolved n) (t u : Ty) :
    (s.bind n t).apply u = (s.apply u).substitute n (s.apply t) := by
  rw [apply_eq_assign, apply_eq_assign s u, Ty.substitute_eq_assign, Ty.assign_assign]
  congr 1
  funext m
  rw [toAssignment_bind h, Ty.substitute_eq_assign]

/-- The bindings after a name was bound: its own, and the old ones with the name replaced. -/
lemma mem_bindings_bind (h : (m, u) ∈ (s.bind n t).bindings) :
    (m = n ∧ u = s.apply t) ∨ ∃ v, (m, v) ∈ s.bindings ∧ u = v.substitute n (s.apply t) := by
  rw [← get?_eq_some_iff, get?_bind] at h
  split at h
  · rename_i hm
    exact .inl ⟨hm, (Option.some.inj h).symm⟩
  · obtain ⟨v, hv, rfl⟩ := Option.map_eq_some_iff.1 h
    exact .inr ⟨v, get?_eq_some_iff.1 hv, rfl⟩

/-- A new name comes after the names that are bound. -/
lemma names_bind_of_new (hn : s.get? n = none) : (s.bind n t).names = s.names ++ [n] := by
  have hnames : n ∉ (s.replaceIn n (s.apply t)).names := by
    rw [names_replaceIn]
    exact get?_eq_none_iff.1 hn
  refine (map_fst_putBinding_of_not_mem hnames).trans ?_
  exact congrArg (· ++ [n]) names_replaceIn

/-- A new name that no binding mentions is bound at the end, and the other bindings stay. -/
lemma bindings_bind_of_new (hn : s.get? n = none)
    (hfree : ∀ b ∈ s.bindings, b.2.mentions n = false) :
    (s.bind n t).bindings = s.bindings ++ [(n, s.apply t)] := by
  have hreplace : s.replaceIn n (s.apply t) = s :=
    replaceIn_eq_self fun b hb => Ty.substitute_of_not_mentions (hfree b hb) _
  rw [bind, hreplace, bindings_put_of_new hn]

end Subst

end TypeSolver
