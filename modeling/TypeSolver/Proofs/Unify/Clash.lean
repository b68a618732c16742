import TypeSolver.Proofs.Unify.Completeness

/-!
# How the unifier fails

A failure names two types that clash as they stand, and they are seldom the two types that the
unifier was asked about.  Most often they are met while a new binding is reconciled with an old one,
after names have been replaced in both and with the sides exchanged.

`Clashes task l r` says that `l` and `r` are the pair at which a task fails, with one rule for each
place that a failure can come from: it is the recursion of `Yields`, cut off at the pair.  Two
things follow by induction on it.  Every solution of the task makes the pair alike
(`Clashes.alike`), because what the unifier compares is a consequence of what it was asked.  And the
pair is made of what the task was made of (`Clashes.all`).
-/

namespace TypeSolver

variable {θ : Assignment}

/-! ## Two types that clash -/

namespace Ty

variable {a b : Ty}

lemma kind_canonical (t : Ty) : t.canonical.kind = t.kind := by
  cases t <;> simp [canonical, kind]

lemma kind_assign {t : Ty} (ht : t.varName? = none) : (t.assign θ).kind = t.kind := by
  cases t <;> simp_all [assign, kind, varName?]

/-- Only types of one kind, or variables, can come to be alike. -/
lemma kind_eq_of_alike (ha : a.varName? = none) (hb : b.varName? = none)
    (h : a.assign θ ≈ b.assign θ) : a.kind = b.kind := by
  rw [← kind_assign ha, ← kind_assign hb, ← kind_canonical (a.assign θ), alike_iff.1 h,
    kind_canonical]

/-- Neither type is a variable, they are no equal base types or literals, and no functions with
equally many parameters. -/
structure Clash (a b : Ty) : Prop where
  left : a.varName? = none
  right : b.varName? = none
  constant : a.isConstant = true → (a == b) = false
  func : ∀ {ps qs : List Ty} {p q : Ty}, a = .func ps p → b = .func qs q → ps.length ≠ qs.length

namespace Clash

lemma kind_ne_variable (h : a.Clash b) : a.kind ≠ .variable ∧ b.kind ≠ .variable := by
  obtain ⟨hleft, hright, -, -⟩ := h
  constructor
  · cases a <;> simp_all [kind, varName?]
  · cases b <;> simp_all [kind, varName?]

/-- Equal base types do not clash. -/
lemma not_same_base (h : a.Clash b) {k : Kind} (hk : k ∈ [Kind.number, .string, .boolean])
    (ha : a.kind = k) : b.kind ≠ k := by
  rintro hb
  have hconst := h.constant
  have heq : ∀ c d : Ty, (c == d) = Ty.beq c d := fun _ _ => rfl
  simp only [List.mem_cons, List.not_mem_nil, or_false] at hk
  rcases hk with rfl | rfl | rfl
  all_goals
    cases a <;> simp [kind] at ha
    cases b <;> simp [kind] at hb
    simp [isConstant, heq, Ty.beq] at hconst

/-- Two types that clash can only be made alike if they are objects, about which a clash says
nothing, or NaN literals, which clash with themselves. -/
lemma object_or_nan_of_alike (h : a.Clash b) (halike : a.assign θ ≈ b.assign θ) :
    (a.kind = .object ∧ b.kind = .object) ∨
      (a.kind = .numberLit ∧ b.kind = .numberLit ∧ a.nanFree = false) := by
  have hkind := kind_eq_of_alike h.left h.right halike
  by_cases hconst : a.isConstant = true
  · have hnan : a.nanFree = false := by
      rw [← Bool.not_eq_true]
      intro hnan
      have hbeq := beq_of_alike_constant hconst hnan h.right halike
      rw [h.constant hconst] at hbeq
      cases hbeq
    have hlit : a.kind = .numberLit := by
      revert hconst hnan
      cases a <;> simp [isConstant, nanFree, every, kind]
    exact .inr ⟨hlit, hkind ▸ hlit, hnan⟩
  · cases a with
    | var n => cases h.left
    | func ps r =>
      obtain ⟨qs, q, hb, hlen⟩ := exists_func_of_alike h.right halike
      exact absurd hlen (h.func rfl hb)
    | object fs => exact .inl ⟨rfl, hkind.symm⟩
    | _ => exact absurd rfl hconst

/-- Of two types that are no variables and do not clash, both are the same constant, or both are
functions with equally many parameters. -/
lemma constant_or_func_of_not_clash (ha : a.varName? = none) (hb : b.varName? = none)
    (h : ¬ a.Clash b) : (a.isConstant = true ∧ (a == b) = true) ∨
      ∃ ps p qs q, a = .func ps p ∧ b = .func qs q ∧ ps.length = qs.length := by
  by_contra hcon
  rw [not_or, not_and, Bool.not_eq_true] at hcon
  refine h ⟨ha, hb, hcon.1, ?_⟩
  rintro ps qs p q rfl rfl hlen
  exact hcon.2 ⟨ps, p, qs, q, rfl, rfl, hlen⟩

lemma unify_eq (h : a.Clash b) (depth : Nat) :
    unify (depth + 1) a b = .error (.mismatch a b) := by
  by_cases hfunc : a.kind = .function ∧ b.kind = .function
  · obtain ⟨ps, p, rfl⟩ := kind_eq_function.1 hfunc.1
    obtain ⟨qs, q, rfl⟩ := kind_eq_function.1 hfunc.2
    rw [unify, if_neg (h.func rfl rfl)]
  · rw [unify_rigid h.left h.right (not_and.1 hfunc), if_neg]
    rintro ⟨hconst, hbeq⟩
    rw [h.constant hconst] at hbeq
    cases hbeq

end Clash

end Ty

/-! ## The pair at which a task fails -/

/-- The pairs at which tasks fail. -/
inductive Clashes : Task → Ty → Ty → Prop where
  /-- the two types clash themselves -/
  | here {a b : Ty} (h : a.Clash b) : Clashes (.unify a b) a b
  /-- the results of two functions fail -/
  | result {ps qs : List Ty} {r q x y : Ty} (hlen : ps.length = qs.length)
    (h : Clashes (.unify r q) x y) : Clashes (.unify (.func ps r) (.func qs q)) x y
  /-- the parameters of two functions fail -/
  | params {ps qs : List Ty} {r q x y : Ty} {s : Subst} (hlen : ps.length = qs.length)
    (hr : Yields (.unify r q) s) (h : Clashes (.unifyAll s (ps.zip qs)) x y) :
    Clashes (.unify (.func ps r) (.func qs q)) x y
  /-- the first pair fails -/
  | pair {a b x y : Ty} {rest : List (Ty × Ty)} {s : Subst} (h : Clashes (.unify a b) x y) :
    Clashes (.unifyAll s ((a, b) :: rest)) x y
  /-- what the first pair yields cannot be added -/
  | pairMerge {a b x y : Ty} {rest : List (Ty × Ty)} {s d : Subst} (hd : Yields (.unify a b) d)
    (h : Clashes (.extendAll s d.bindings) x y) : Clashes (.unifyAll s ((a, b) :: rest)) x y
  /-- a later pair fails -/
  | laterPair {a b x y : Ty} {rest : List (Ty × Ty)} {s d s' : Subst}
    (hd : Yields (.unify a b) d) (hs : Yields (.extendAll s d.bindings) s')
    (h : Clashes (.unifyAll s' rest) x y) : Clashes (.unifyAll s ((a, b) :: rest)) x y
  /-- the two types of a name fail -/
  | reconcile {s : Subst} {n : Name} {t old x y : Ty} (hold : s.get? n = some old)
    (h : Clashes (.unify t old) x y) : Clashes (.extend s n t) x y
  /-- what the two types of a name yield cannot be added -/
  | reconcileMerge {s d : Subst} {n : Name} {t old x y : Ty} (hold : s.get? n = some old)
    (hd : Yields (.unify t old) d) (h : Clashes (.extendAll s d.bindings) x y) :
    Clashes (.extend s n t) x y
  /-- the first binding fails -/
  | binding {s : Subst} {n : Name} {t x y : Ty} {rest : List (Name × Ty)}
    (h : Clashes (.extend s n t) x y) : Clashes (.extendAll s ((n, t) :: rest)) x y
  /-- a later binding fails -/
  | laterBinding {s s' : Subst} {n : Name} {t x y : Ty} {rest : List (Name × Ty)}
    (hs : Yields (.extend s n t) s') (h : Clashes (.extendAll s' rest) x y) :
    Clashes (.extendAll s ((n, t) :: rest)) x y

section FromProgram

variable {depth : Nat} {l r : Ty}

lemma clashes_unify_of
    (ih : ∀ task l r, Task.run depth task = .error (.mismatch l r) → Clashes task l r) {a b : Ty}
    (h : unify (depth + 1) a b = .error (.mismatch l r)) : Clashes (.unify a b) l r := by
  have ha : a.varName? = none := by
    cases a <;> simp_all [unify, Ty.varName?]
  have hb : b.varName? = none := by
    cases hvar : b.varName? with
    | none => rfl
    | some n =>
      rw [varName?_eq_some.1 hvar, unify_varRight ha] at h
      cases h
  by_cases hclash : a.Clash b
  · rw [hclash.unify_eq] at h
    obtain ⟨rfl, rfl⟩ := Failure.mismatch.inj (Except.error.inj h)
    exact .here hclash
  · rcases Ty.Clash.constant_or_func_of_not_clash ha hb hclash with
      ⟨hconst, hab⟩ | ⟨ps, p, qs, q, rfl, rfl, hlen⟩
    · rw [unify_constant hconst hab] at h
      cases h
    · rw [unify, if_pos hlen] at h
      rcases bind_eq_error.1 h with hr | ⟨s, hr, hps⟩
      · exact .result hlen (ih (.unify p q) l r hr)
      · exact .params hlen (yields_of_unify hr) (ih (.unifyAll s _) l r hps)

lemma clashes_extend_of
    (ih : ∀ task l r, Task.run depth task = .error (.mismatch l r) → Clashes task l r) {s : Subst}
    {n : Name} {t : Ty} (h : extend (depth + 1) s n t = .error (.mismatch l r)) :
    Clashes (.extend s n t) l r := by
  unfold extend at h
  split at h
  · cases h
  · rename_i old hold
    split at h
    · cases h
    · split at h
      · cases h
      · rcases bind_eq_error.1 h with hd | ⟨d, hd, hs⟩
        · exact .reconcile hold (ih (.unify t old) l r hd)
        · rw [compose_eq_run] at hs
          exact .reconcileMerge hold (yields_of_unify hd) (ih _ l r hs)

lemma clashes_unifyAll_of
    (hunify : ∀ a b, unify depth a b = .error (.mismatch l r) → Clashes (.unify a b) l r)
    (hadd : ∀ s bindings, Task.run depth (.extendAll s bindings) = .error (.mismatch l r) →
      Clashes (.extendAll s bindings) l r)
    {pairs : List (Ty × Ty)} {s : Subst}
    (h : Task.run depth (.unifyAll s pairs) = .error (.mismatch l r)) :
    Clashes (.unifyAll s pairs) l r := by
  induction pairs generalizing s with
  | nil => cases h
  | cons pq rest ih =>
    rw [Task.run, List.foldlM_cons] at h
    rcases bind_eq_error.1 h with hfirst | ⟨s', hfirst, hrest⟩
    · rcases bind_eq_error.1 hfirst with hd | ⟨d, hd, hs⟩
      · exact .pair (hunify _ _ hd)
      · rw [compose_eq_run] at hs
        exact .pairMerge (yields_of_unify hd) (hadd _ _ hs)
    · obtain ⟨d, hd, hs⟩ := bind_eq_ok.1 hfirst
      exact .laterPair (yields_of_unify hd) (yields_of_compose hs) (ih hrest)

lemma clashes_extendAll_of
    (ih : ∀ task l r, Task.run depth task = .error (.mismatch l r) → Clashes task l r)
    {bindings : List (Name × Ty)} {s : Subst}
    (h : Task.run (depth + 1) (.extendAll s bindings) = .error (.mismatch l r)) :
    Clashes (.extendAll s bindings) l r := by
  induction bindings generalizing s with
  | nil => cases h
  | cons b rest ihrest =>
    rw [Task.run, List.foldlM_cons] at h
    rcases bind_eq_error.1 h with hs | ⟨s', hs, hrest⟩
    · exact .binding (ih (.extend s b.1 b.2) l r hs)
    · exact .laterBinding (yields_of_extend hs) (ihrest hrest)

/-- Every mismatch that the program reports, at whatever depth, is the pair at which the task
fails. -/
theorem clashes_of_run (task : Task) (h : task.run depth = .error (.mismatch l r)) :
    Clashes task l r := by
  induction depth, task using Task.depth_induction generalizing l r with
  | unifyZero a b => simp [Task.run, unify] at h
  | extendZero s n t => simp [Task.run, extend] at h
  | extendAllZero s bindings => simp [Task.run] at h
  | unify depth ih a b => exact clashes_unify_of (fun task _ _ => ih task) h
  | extend depth ih s n t => exact clashes_extend_of (fun task _ _ => ih task) h
  | extendAll depth ih s bindings => exact clashes_extendAll_of (fun task _ _ => ih task) h
  | unifyAll depth hunify hadd s pairs =>
    exact clashes_unifyAll_of (fun a b => hunify a b) (fun s bindings => hadd s bindings) h

end FromProgram

/-! ## What the pair owes to its task -/

namespace Clashes

variable {task : Task} {x y : Ty}

lemma clash (h : Clashes task x y) : x.Clash y := by
  induction h with
  | here h => exact h
  | _ => assumption

/-- A solution of the task makes the pair alike. -/
theorem alike (h : Clashes task x y) (hsolved : task.SolvedBy θ) : x.assign θ ≈ y.assign θ := by
  induction h with
  | here _ => exact hsolved
  | result hlen _ ih => exact ih ((assign_func_alike_iff hlen).1 hsolved).1
  | params hlen hr _ ih =>
    obtain ⟨hrq, hpairs⟩ := (assign_func_alike_iff hlen).1 hsolved
    exact ih ⟨hr.satisfiedBy_iff.2 hrq, hpairs⟩
  | pair _ ih => exact ih (hsolved.2 _ List.mem_cons_self)
  | pairMerge hd _ ih =>
    obtain ⟨hs, hpairs⟩ := hsolved
    exact ih ⟨hs, hd.satisfiedBy_iff.2 (hpairs _ List.mem_cons_self)⟩
  | laterPair hd hadd _ ih =>
    obtain ⟨hs, hpairs⟩ := hsolved
    rw [List.forall_mem_cons] at hpairs
    exact ih ⟨hadd.satisfiedBy_iff.2 ⟨hs, hd.satisfiedBy_iff.2 hpairs.1⟩, hpairs.2⟩
  | @reconcile s n t old x y hold _ ih =>
    have hname : θ n ≈ old.assign θ := hsolved.1 (n, old) (Subst.get?_eq_some_iff.1 hold)
    exact ih (Setoid.trans (Setoid.symm hsolved.2) hname)
  | @reconcileMerge s d n t old x y hold hd _ ih =>
    have hname : θ n ≈ old.assign θ := hsolved.1 (n, old) (Subst.get?_eq_some_iff.1 hold)
    have hto : t.assign θ ≈ old.assign θ := Setoid.trans (Setoid.symm hsolved.2) hname
    exact ih ⟨hsolved.1, hd.satisfiedBy_iff.2 hto⟩
  | binding _ ih => exact ih ⟨hsolved.1, hsolved.2 _ List.mem_cons_self⟩
  | laterBinding hs _ ih =>
    obtain ⟨hsat, hbs⟩ := hsolved
    rw [List.forall_mem_cons] at hbs
    exact ih ⟨hs.satisfiedBy_iff.2 ⟨hsat, hbs.1⟩, hbs.2⟩

/-- The pair is made of what the task was made of. -/
theorem all {P : Ty → Prop} (hP : Ty.Hereditary P) (h : Clashes task x y) (htask : task.All P) :
    P x ∧ P y := by
  induction h with
  | here _ => exact htask
  | result _ _ ih => exact ih ⟨hP.result htask.1, hP.result htask.2⟩
  | params _ hr _ ih =>
    obtain ⟨hleft, hright⟩ := htask
    refine ih ⟨hr.all hP ⟨hP.result hleft, hP.result hright⟩, fun pq hpq => ?_⟩
    obtain ⟨hp, hq⟩ := List.of_mem_zip hpq
    exact ⟨hP.param hleft hp, hP.param hright hq⟩
  | pair _ ih => exact ih (htask.2 _ List.mem_cons_self)
  | pairMerge hd _ ih => exact ih ⟨htask.1, hd.all hP (htask.2 _ List.mem_cons_self)⟩
  | laterPair hd hs _ ih =>
    obtain ⟨hstart, hpairs⟩ := htask
    rw [List.forall_mem_cons] at hpairs
    exact ih ⟨hs.all hP ⟨hstart, hd.all hP hpairs.1⟩, hpairs.2⟩
  | @reconcile s n t old x y hold _ ih =>
    exact ih ⟨htask.2.2, (htask.1 (n, old) (Subst.get?_eq_some_iff.1 hold)).2⟩
  | @reconcileMerge s d n t old x y hold hd _ ih =>
    have hPold : P old := (htask.1 (n, old) (Subst.get?_eq_some_iff.1 hold)).2
    exact ih ⟨htask.1, hd.all hP ⟨htask.2.2, hPold⟩⟩
  | binding _ ih => exact ih ⟨htask.1, htask.2 _ List.mem_cons_self⟩
  | laterBinding hs _ ih =>
    obtain ⟨hstart, hbs⟩ := htask
    rw [List.forall_mem_cons] at hbs
    exact ih ⟨hs.all hP ⟨hstart, hbs.1⟩, hbs.2⟩

end Clashes

end TypeSolver
