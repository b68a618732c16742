import Mathlib.Logic.Embedding.Basic
import TypeSolver.Proofs.Ty.Renaming
import TypeSolver.Proofs.Unify.Task

/-!
# The unifier does not look at names

A one-to-one renaming of the variables in what the unifier is asked renames the variables in what it
answers, and does nothing else: the bindings come in the same order, a failure is at the same pair
of types, and the depth that is needed is the same (`Task.run_rename`).  The unifier compares names
with each other, and that is all it does with them.

Each operation on substitutions gets its own such law, and the recursion then follows that of the
program: a law for one call at a depth from those for the calls that it makes one below.
-/

namespace TypeSolver

variable {ρ π : Name ↪ Name} {s r : Subst} {M : Name → Prop} {n : Name} {t : Ty}

namespace Subst

/-! ## Renaming a substitution -/

/-- The substitution with all its names renamed, those that are bound and those that are mentioned.
The order of the bindings stays. -/
def rename (ρ : Name ↪ Name) (s : Subst) : Subst :=
  ⟨s.bindings.map (Prod.map ρ (Ty.rename ρ)), by
    have hnames : (s.bindings.map (Prod.map ρ (Ty.rename ρ))).map Prod.fst =
        (s.bindings.map Prod.fst).map ρ := by
      simp
    rw [hnames]
    exact s.nodup.map ρ.injective⟩

lemma names_rename : (s.rename ρ).names = s.names.map ρ := by
  simp [names, rename]

lemma rename_single : (single n t).rename ρ = single (ρ n) (t.rename ρ) := rfl

lemma get?_rename : (s.rename ρ).get? (ρ n) = (s.get? n).map (Ty.rename ρ) := by
  obtain ⟨bs, hbs⟩ := s
  show (bs.map (Prod.map ρ (Ty.rename ρ))).lookup (ρ n) = (bs.lookup n).map (Ty.rename ρ)
  clear hbs
  induction bs with
  | nil => rfl
  | cons b bs ih =>
    rw [List.map_cons, Prod.map, lookup_cons_eq_ite, lookup_cons_eq_ite, ih]
    by_cases hb : n = b.1 <;> simp [hb]

/-- Applying a renamed substitution to a renamed type is renaming what comes out. -/
lemma apply_rename (s : Subst) (t : Ty) :
    (s.rename ρ).apply (t.rename ρ) = (s.apply t).rename ρ := by
  rw [apply_eq_assign, apply_eq_assign, Ty.rename_assign, Ty.assign_rename]
  refine Ty.assign_eq_assign_iff.2 fun n _ => ?_
  rw [Function.comp_apply, toAssignment, toAssignment, get?_rename]
  cases s.get? n <;> simp

lemma mapTypes_rename {f g : Ty → Ty} (h : ∀ t, g (t.rename ρ) = (f t).rename ρ) :
    (s.rename ρ).mapTypes g = (s.mapTypes f).rename ρ :=
  eq_of_bindings (by simp [rename, mapTypes, h])

lemma put_rename : (s.rename ρ).put (ρ n) (t.rename ρ) = (s.put n t).rename ρ := by
  refine eq_of_bindings ?_
  obtain ⟨bs, hbs⟩ := s
  show putBinding (ρ n) (t.rename ρ) (bs.map (Prod.map ρ (Ty.rename ρ))) =
    (putBinding n t bs).map (Prod.map ρ (Ty.rename ρ))
  clear hbs
  induction bs with
  | nil => rfl
  | cons b bs ih =>
    obtain ⟨k, u⟩ := b
    rw [List.map_cons, Prod.map, putBinding, putBinding, ih]
    by_cases hk : k = n <;> simp [hk]

lemma bind_rename : (s.rename ρ).bind (ρ n) (t.rename ρ) = (s.bind n t).rename ρ := by
  unfold bind
  simp only [replaceIn_eq_mapTypes, apply_rename]
  rw [mapTypes_rename fun u => (Ty.rename_substitute ρ.injective u n (s.apply t)).symm, put_rename]

lemma without_rename {drop drop' : Name → Bool} (h : ∀ n, drop' (ρ n) = drop n) :
    (s.rename ρ).without drop' = (s.without drop).rename ρ :=
  eq_of_bindings (by simp [rename, without, List.filter_map, Function.comp_def, h])

/-- Renamings that agree on the names of a substitution make the same of it. -/
lemma rename_congr (hs : s.Binds M (Ty.Over M)) (h : ∀ n, M n → ρ n = π n) :
    s.rename ρ = s.rename π := by
  refine eq_of_bindings (List.map_congr_left fun b hb => ?_)
  obtain ⟨hname, htype⟩ := hs b hb
  rw [Prod.map, Prod.map, h b.1 hname, Ty.rename_congr fun n hn => h n (htype n hn)]

end Subst

/-! ## Renaming an answer -/

/-- The failure with the variables of its types renamed. -/
def Failure.rename (ρ : Name ↪ Name) : Failure → Failure
  | .mismatch l r => .mismatch (l.rename ρ) (r.rename ρ)
  | .exhausted => .exhausted

/-- The answer with all its names renamed. -/
def renameAnswer (ρ : Name ↪ Name) : Except Failure Subst → Except Failure Subst
  | .ok s => .ok (s.rename ρ)
  | .error failure => .error (failure.rename ρ)

lemma renameAnswer_bind {x : Except Failure Subst} {f g : Subst → Except Failure Subst}
    (h : ∀ s, g (s.rename ρ) = renameAnswer ρ (f s)) :
    renameAnswer ρ x >>= g = renameAnswer ρ (x >>= f) := by
  cases x with
  | ok s => exact h s
  | error failure => rfl

/-- A loop whose body respects the renaming respects it. -/
lemma foldlM_rename {α : Type} {φ : α → α} {f g : Subst → α → Except Failure Subst}
    (h : ∀ s a, g (s.rename ρ) (φ a) = renameAnswer ρ (f s a)) (as : List α) (s : Subst) :
    (as.map φ).foldlM g (s.rename ρ) = renameAnswer ρ (as.foldlM f s) := by
  induction as generalizing s with
  | nil => rfl
  | cons a as ih =>
    rw [List.map_cons, List.foldlM_cons, List.foldlM_cons, h]
    exact renameAnswer_bind ih

/-! ## The three operations -/

/-- The task with all its names renamed. -/
def Task.rename (ρ : Name ↪ Name) : Task → Task
  | .unify a b => .unify (a.rename ρ) (b.rename ρ)
  | .unifyAll s pairs => .unifyAll (s.rename ρ) (pairs.map (Prod.map (Ty.rename ρ) (Ty.rename ρ)))
  | .extend s n t => .extend (s.rename ρ) (ρ n) (t.rename ρ)
  | .extendAll s bindings => .extendAll (s.rename ρ) (bindings.map (Prod.map ρ (Ty.rename ρ)))

section Step

variable {depth : Nat}

lemma unifyAll_rename_of
    (hunify : ∀ a b, unify depth (a.rename ρ) (b.rename ρ) = renameAnswer ρ (unify depth a b))
    (hadd : ∀ s bindings, ((Task.extendAll s bindings).rename ρ).run depth =
      renameAnswer ρ ((Task.extendAll s bindings).run depth))
    (s : Subst) (pairs : List (Ty × Ty)) :
    ((Task.unifyAll s pairs).rename ρ).run depth =
      renameAnswer ρ ((Task.unifyAll s pairs).run depth) := by
  refine foldlM_rename (fun acc pq => ?_) pairs s
  simp only [Prod.map, hunify]
  refine renameAnswer_bind fun d => ?_
  rw [compose_eq_run, compose_eq_run]
  exact hadd acc d.bindings

variable (ih : ∀ task : Task, (task.rename ρ).run depth = renameAnswer ρ (task.run depth))

include ih

lemma unify_func_rename_of (ps qs : List Ty) (r q : Ty) :
    unify (depth + 1) ((Ty.func ps r).rename ρ) ((Ty.func qs q).rename ρ) =
      renameAnswer ρ (unify (depth + 1) (.func ps r) (.func qs q)) := by
  rw [Ty.rename_func, Ty.rename_func, unify, unify, List.length_map, List.length_map]
  split
  · have hresult := ih (.unify r q)
    rw [Task.rename, Task.run, Task.run] at hresult
    rw [hresult]
    refine renameAnswer_bind fun s => ?_
    have hpairs := ih (.unifyAll s (ps.zip qs))
    rwa [Task.rename, ← List.zip_map] at hpairs
  · simp [renameAnswer, Failure.rename]

lemma unify_rename_of (a b : Ty) :
    unify (depth + 1) (a.rename ρ) (b.rename ρ) = renameAnswer ρ (unify (depth + 1) a b) := by
  cases ha : a.varName? with
  | some n =>
    obtain rfl := varName?_eq_some.1 ha
    simp [unify, renameAnswer, Subst.rename_single]
  | none =>
    have ha' : (a.rename ρ).varName? = none := by simp [ha]
    cases hb : b.varName? with
    | some n =>
      obtain rfl := varName?_eq_some.1 hb
      rw [Ty.rename_var, unify_varRight ha', unify_varRight ha]
      rfl
    | none =>
      have hb' : (b.rename ρ).varName? = none := by simp [hb]
      by_cases hfunc : a.kind = .function ∧ b.kind = .function
      · obtain ⟨ps, r, rfl⟩ := Ty.kind_eq_function.1 hfunc.1
        obtain ⟨qs, q, rfl⟩ := Ty.kind_eq_function.1 hfunc.2
        exact unify_func_rename_of ih ps qs r q
      · rw [not_and] at hfunc
        rw [unify_rigid ha hb hfunc, unify_rigid ha' hb' (by simpa using hfunc),
          Ty.isConstant_rename, Ty.beq_rename ρ.injective]
        split <;> rfl

lemma extend_rename_of (s : Subst) (n : Name) (t : Ty) :
    extend (depth + 1) (s.rename ρ) (ρ n) (t.rename ρ) =
      renameAnswer ρ (extend (depth + 1) s n t) := by
  unfold extend
  rw [Subst.get?_rename]
  cases hget : s.get? n with
  | none => exact congrArg Except.ok Subst.bind_rename
  | some old =>
    simp only [Option.map_some, Ty.beq_rename ρ.injective, Ty.varName?_rename]
    by_cases heq : (old == t) = true
    · simp [heq, renameAnswer]
    · by_cases hself : old.varName? = some n
      · simp [heq, hself, renameAnswer, Subst.bind_rename]
      · have hself' : old.varName?.map ρ ≠ some (ρ n) := by
          simpa using hself
        rw [if_neg heq, if_neg heq, if_neg hself, if_neg hself']
        have hunify := ih (.unify t old)
        rw [Task.rename, Task.run, Task.run] at hunify
        rw [hunify]
        refine renameAnswer_bind fun d => ?_
        rw [compose_eq_run, compose_eq_run]
        exact ih (.extendAll s d.bindings)

lemma extendAll_rename_of (s : Subst) (bindings : List (Name × Ty)) :
    ((Task.extendAll s bindings).rename ρ).run (depth + 1) =
      renameAnswer ρ ((Task.extendAll s bindings).run (depth + 1)) :=
  foldlM_rename (fun acc b => ih (.extend acc b.1 b.2)) bindings s

end Step

/-- Renaming what is asked renames the answer, at every depth. -/
theorem Task.run_rename (ρ : Name ↪ Name) (depth : Nat) (task : Task) :
    (task.rename ρ).run depth = renameAnswer ρ (task.run depth) := by
  induction depth, task using Task.depth_induction with
  | unifyZero a b =>
    simp [Task.rename, Task.run, TypeSolver.unify, renameAnswer, Failure.rename]
  | extendZero s n t =>
    simp [Task.rename, Task.run, TypeSolver.extend, renameAnswer, Failure.rename]
  | extendAllZero s bindings => rfl
  | unify depth ih a b => exact unify_rename_of ih a b
  | extend depth ih s n t => exact extend_rename_of ih s n t
  | extendAll depth ih s bindings => exact extendAll_rename_of ih s bindings
  | unifyAll depth hunify hadd s pairs => exact unifyAll_rename_of hunify hadd s pairs

lemma unify_rename (ρ : Name ↪ Name) (depth : Nat) (a b : Ty) :
    unify depth (a.rename ρ) (b.rename ρ) = renameAnswer ρ (unify depth a b) :=
  Task.run_rename ρ depth (.unify a b)

lemma compose_rename (ρ : Name ↪ Name) (depth : Nat) (s d : Subst) :
    compose depth (s.rename ρ) (d.rename ρ) = renameAnswer ρ (compose depth s d) := by
  rw [compose_eq_run, compose_eq_run]
  exact Task.run_rename ρ depth (.extendAll s d.bindings)

end TypeSolver
