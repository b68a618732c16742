import TypeSolver.Proofs.Outcome
import TypeSolver.Proofs.Subst.Binding
import TypeSolver.Proofs.Ty.Parts

/-!
# The unifier without its depth

`unify`, `extend` and `compose` call each other, and each takes the depth to which it may recurse.
This file states what they answer with the depth left out, as one inductive relation.

## Tasks

A `Task` is one call that is still to be answered.  Besides the three functions there are the two
loops: the parameters of two functions, pair by pair, and the bindings of a substitution, one by
one.  `Task.run` is the answer that the program gives to a task at a depth, and
`Task.depth_induction` is how statements about all depths are shown.

## Rules

`Yields task r` says that `r` is the answer to `task`, with one rule for each way in which an answer
comes about.  It is the program's own recursion: `yields_of_run` turns an answer at any depth into a
derivation, and `Yields.run_eventually` gives the same answer back at every depth that is large
enough.  So "for some depth" and "for every large enough depth" are the same (`yields_iff`), and
what is proved by induction on derivations holds of every answer the program gives.

The first such induction is here: if the names and types that a task may bind satisfy conditions
that replacement keeps, so do those of its answer (`Yields.binds`).  The two conditions may differ,
for a variable on the left is bound and goes nowhere else.  With one condition for both it says that
an answer is made of what its task was made of (`Yields.all`).
-/

namespace TypeSolver

/-- A call of the unifier that is to be answered. -/
inductive Task where
  /-- make two types agree -/
  | unify (left right : Ty)
  /-- make pairs of types agree, in their order, and add what that takes to a substitution -/
  | unifyAll (s : Subst) (pairs : List (Ty × Ty))
  /-- add a binding to a substitution -/
  | extend (s : Subst) (name : Name) (type : Ty)
  /-- add bindings to a substitution, in their order -/
  | extendAll (s : Subst) (bindings : List (Name × Ty))

/-- The program's answer to a task at a depth. -/
def Task.run (depth : Nat) : Task → Except Failure Subst
  | .unify a b => TypeSolver.unify depth a b
  | .unifyAll s pairs =>
    pairs.foldlM (fun acc pq => do compose depth acc (← TypeSolver.unify depth pq.1 pq.2)) s
  | .extend s n t => TypeSolver.extend depth s n t
  | .extendAll s bindings =>
    match depth with
    | 0 => .error .exhausted
    | depth + 1 => bindings.foldlM (fun acc b => TypeSolver.extend depth acc b.1 b.2) s

/-- The answers to tasks. -/
inductive Yields : Task → Subst → Prop where
  /-- a variable on the left is bound -/
  | varLeft (n : Name) (t : Ty) : Yields (.unify (.var n) t) (.single n t)
  /-- a variable on the right is bound if there is none on the left -/
  | varRight {t : Ty} (n : Name) (ht : t.varName? = none) :
    Yields (.unify t (.var n)) (.single n t)
  /-- equal base types and equal literals need no binding -/
  | constant {a b : Ty} (ha : a.isConstant = true) (hab : (a == b) = true) :
    Yields (.unify a b) .empty
  /-- functions agree when their results and then their parameters do -/
  | func {ps qs : List Ty} {r q : Ty} {s s' : Subst} (hlen : ps.length = qs.length)
    (hr : Yields (.unify r q) s) (hps : Yields (.unifyAll s (ps.zip qs)) s') :
    Yields (.unify (.func ps r) (.func qs q)) s'
  /-- no pairs are left -/
  | pairsNil (s : Subst) : Yields (.unifyAll s []) s
  /-- the first pair is unified, and the answer is added before the next pair's turn -/
  | pairsCons {a b : Ty} {rest : List (Ty × Ty)} {s d s' s'' : Subst}
    (hd : Yields (.unify a b) d) (hs : Yields (.extendAll s d.bindings) s')
    (hrest : Yields (.unifyAll s' rest) s'') : Yields (.unifyAll s ((a, b) :: rest)) s''
  /-- a name bound to an equal type needs nothing -/
  | keep {s : Subst} {n : Name} {t old : Ty} (hold : s.get? n = some old)
    (heq : (old == t) = true) : Yields (.extend s n t) s
  /-- an unresolved name is bound -/
  | bind {s : Subst} {n : Name} {t : Ty} (hn : s.Unresolved n)
    (hnew : ∀ old, s.get? n = some old → (old == t) = false) : Yields (.extend s n t) (s.bind n t)
  /-- a resolved name has its two types unified, and the answer is added -/
  | reconcile {s : Subst} {n : Name} {t old : Ty} {d s' : Subst} (hold : s.get? n = some old)
    (hne : (old == t) = false) (hself : old ≠ .var n) (hd : Yields (.unify t old) d)
    (hs : Yields (.extendAll s d.bindings) s') : Yields (.extend s n t) s'
  /-- no bindings are left -/
  | bindingsNil (s : Subst) : Yields (.extendAll s []) s
  /-- the first binding is added, then the rest -/
  | bindingsCons {n : Name} {t : Ty} {rest : List (Name × Ty)} {s s' s'' : Subst}
    (hs : Yields (.extend s n t) s') (hrest : Yields (.extendAll s' rest) s'') :
    Yields (.extendAll s ((n, t) :: rest)) s''

/-- Induction on the depth at which tasks are run.  The functions and the loop over bindings call
one level down; the loop over pairs calls `unify` and `compose` at its own depth. -/
theorem Task.depth_induction {motive : Nat → Task → Prop}
    (unifyZero : ∀ a b, motive 0 (.unify a b))
    (extendZero : ∀ s n t, motive 0 (.extend s n t))
    (extendAllZero : ∀ s bindings, motive 0 (.extendAll s bindings))
    (unify : ∀ depth, (∀ task, motive depth task) → ∀ a b, motive (depth + 1) (.unify a b))
    (extend : ∀ depth, (∀ task, motive depth task) →
      ∀ s n t, motive (depth + 1) (.extend s n t))
    (extendAll : ∀ depth, (∀ task, motive depth task) →
      ∀ s bindings, motive (depth + 1) (.extendAll s bindings))
    (unifyAll : ∀ depth, (∀ a b, motive depth (.unify a b)) →
      (∀ s bindings, motive depth (.extendAll s bindings)) →
      ∀ s pairs, motive depth (.unifyAll s pairs))
    (depth : Nat) (task : Task) : motive depth task := by
  induction depth generalizing task with
  | zero =>
    cases task with
    | unify a b => exact unifyZero a b
    | unifyAll s pairs => exact unifyAll 0 unifyZero extendAllZero s pairs
    | extend s n t => exact extendZero s n t
    | extendAll s bindings => exact extendAllZero s bindings
  | succ depth ih =>
    cases task with
    | unify a b => exact unify depth ih a b
    | unifyAll s pairs => exact unifyAll _ (unify depth ih) (extendAll depth ih) s pairs
    | extend s n t => exact extend depth ih s n t
    | extendAll s bindings => exact extendAll depth ih s bindings

/-! ## From the program to the rules -/

lemma compose_eq_run (depth : Nat) (s d : Subst) :
    compose depth s d = (Task.extendAll s d.bindings).run depth := by
  cases depth <;> simp [compose, Task.run]

lemma varName?_eq_some {t : Ty} {n : Name} : t.varName? = some n ↔ t = .var n := by
  cases t <;> simp [Ty.varName?]

section FromProgram

variable {depth : Nat}

lemma yields_unify_of (ih : ∀ task r, Task.run depth task = .ok r → Yields task r) {a b : Ty}
    {r : Subst} (h : unify (depth + 1) a b = .ok r) : Yields (.unify a b) r := by
  -- the answer of a comparison of literals is empty, and there is one only if they are equal
  have hlit : ∀ {c : Bool} {e : Failure}, (if c = true then .ok Subst.empty else .error e) =
      Except.ok r → c = true ∧ Subst.empty = r := by
    intro c e hc
    split at hc
    · exact ⟨‹_›, Except.ok.inj hc⟩
    · cases hc
  unfold unify at h
  split at h
  · obtain rfl := Except.ok.inj h
    exact .varLeft _ _
  · rename_i n hvar
    obtain rfl := Except.ok.inj h
    refine .varRight n ?_
    exact Option.eq_none_iff_forall_ne_some.2 fun m hm => hvar m (varName?_eq_some.1 hm)
  iterate 3
    · obtain rfl := Except.ok.inj h
      exact .constant rfl rfl
  iterate 3
    · obtain ⟨hxy, rfl⟩ := hlit h
      exact .constant rfl hxy
  · split at h
    · rename_i hlen
      obtain ⟨s, hr, hps⟩ := bind_eq_ok.1 h
      exact .func hlen (ih (.unify _ _) s hr) (ih (.unifyAll s _) r hps)
    · cases h
  · cases h

lemma yields_extend_of (ih : ∀ task r, Task.run depth task = .ok r → Yields task r) {s : Subst}
    {n : Name} {t : Ty} {r : Subst} (h : extend (depth + 1) s n t = .ok r) :
    Yields (.extend s n t) r := by
  unfold extend at h
  split at h
  · rename_i hnone
    obtain rfl := Except.ok.inj h
    exact .bind (Subst.unresolved_iff.2 (.inl hnone)) (by simp [hnone])
  · rename_i old hold
    split at h
    · rename_i heq
      obtain rfl := Except.ok.inj h
      exact .keep hold heq
    · rename_i hne
      rw [Bool.not_eq_true] at hne
      split at h
      · rename_i hself
        rw [varName?_eq_some] at hself
        obtain rfl := Except.ok.inj h
        refine .bind (Subst.unresolved_iff.2 (.inr (hself ▸ hold))) fun old' hold' => ?_
        rwa [← Option.some.inj (hold.symm.trans hold')]
      · rename_i hself
        obtain ⟨d, hd, hs⟩ := bind_eq_ok.1 h
        rw [compose_eq_run] at hs
        exact .reconcile hold hne (fun e => hself (varName?_eq_some.2 e)) (ih (.unify t old) d hd)
          (ih _ r hs)

lemma yields_unifyAll_of (hunify : ∀ a b r, unify depth a b = .ok r → Yields (.unify a b) r)
    (hadd : ∀ s bindings r, Task.run depth (.extendAll s bindings) = .ok r →
      Yields (.extendAll s bindings) r)
    {pairs : List (Ty × Ty)} {s r : Subst} (h : Task.run depth (.unifyAll s pairs) = .ok r) :
    Yields (.unifyAll s pairs) r := by
  induction pairs generalizing s with
  | nil =>
    obtain rfl := Except.ok.inj h
    exact .pairsNil s
  | cons pq rest ih =>
    rw [Task.run, List.foldlM_cons] at h
    obtain ⟨s', hs', hrest⟩ := bind_eq_ok.1 h
    obtain ⟨d, hd, hs⟩ := bind_eq_ok.1 hs'
    rw [compose_eq_run] at hs
    exact .pairsCons (hunify _ _ _ hd) (hadd _ _ _ hs) (ih hrest)

lemma yields_extendAll_of (ih : ∀ task r, Task.run depth task = .ok r → Yields task r)
    {bindings : List (Name × Ty)} {s r : Subst}
    (h : Task.run (depth + 1) (.extendAll s bindings) = .ok r) :
    Yields (.extendAll s bindings) r := by
  induction bindings generalizing s with
  | nil =>
    obtain rfl := Except.ok.inj h
    exact .bindingsNil s
  | cons b rest ihrest =>
    rw [Task.run, List.foldlM_cons] at h
    obtain ⟨s', hs', hrest⟩ := bind_eq_ok.1 h
    exact .bindingsCons (ih (.extend s b.1 b.2) s' hs') (ihrest hrest)

/-- Every answer of the program, at whatever depth, has a derivation. -/
theorem yields_of_run (task : Task) {r : Subst} (h : task.run depth = .ok r) : Yields task r := by
  induction depth, task using Task.depth_induction generalizing r with
  | unifyZero a b => simp [Task.run, unify] at h
  | extendZero s n t => simp [Task.run, extend] at h
  | extendAllZero s bindings => simp [Task.run] at h
  | unify depth ih a b => exact yields_unify_of (fun task _ => ih task) h
  | extend depth ih s n t => exact yields_extend_of (fun task _ => ih task) h
  | extendAll depth ih s bindings => exact yields_extendAll_of (fun task _ => ih task) h
  | unifyAll depth hunify hadd s pairs =>
    exact yields_unifyAll_of (fun a b _ => hunify a b) (fun s bindings _ => hadd s bindings) h

end FromProgram

lemma yields_of_unify {depth : Nat} {a b : Ty} {r : Subst} (h : unify depth a b = .ok r) :
    Yields (.unify a b) r :=
  yields_of_run (.unify a b) h

lemma yields_of_extend {depth : Nat} {s : Subst} {n : Name} {t : Ty} {r : Subst}
    (h : extend depth s n t = .ok r) : Yields (.extend s n t) r :=
  yields_of_run (.extend s n t) h

lemma yields_of_compose {depth : Nat} {s d r : Subst} (h : compose depth s d = .ok r) :
    Yields (.extendAll s d.bindings) r :=
  yields_of_run (.extendAll s d.bindings) (compose_eq_run depth s d ▸ h)

/-! ## Depths that are large enough -/

/-- A statement about the depth holds at all depths from some depth on. -/
def Eventually (P : Nat → Prop) : Prop := ∃ enough, ∀ depth, enough ≤ depth → P depth

namespace Eventually

variable {P Q : Nat → Prop}

lemma of_forall (h : ∀ depth, P depth) : Eventually P := ⟨0, fun depth _ => h depth⟩

lemma and (hP : Eventually P) (hQ : Eventually Q) : Eventually fun depth => P depth ∧ Q depth := by
  obtain ⟨d₁, h₁⟩ := hP
  obtain ⟨d₂, h₂⟩ := hQ
  exact ⟨max d₁ d₂, fun depth hd => ⟨h₁ depth (by omega), h₂ depth (by omega)⟩⟩

lemma mono (hP : Eventually P) (h : ∀ depth, P depth → Q depth) : Eventually Q := by
  obtain ⟨enough, hP⟩ := hP
  exact ⟨enough, fun depth hd => h depth (hP depth hd)⟩

/-- A call one level up needs one more than the calls it makes. -/
lemma succ (hP : Eventually P) (h : ∀ depth, P depth → Q (depth + 1)) : Eventually Q := by
  obtain ⟨enough, hP⟩ := hP
  refine ⟨enough + 1, fun depth hd => ?_⟩
  obtain ⟨depth, rfl⟩ := Nat.exists_eq_add_of_le' (Nat.le_of_add_left_le hd)
  exact h depth (hP depth (by omega))

lemma of_succ (h : ∀ depth, P (depth + 1)) : Eventually P :=
  (of_forall fun _ => trivial).succ fun depth _ => h depth

end Eventually

/-! ## From the rules to the program -/

lemma unify_varLeft (depth : Nat) (n : Name) (t : Ty) :
    unify (depth + 1) (.var n) t = .ok (.single n t) := by
  simp [unify]

lemma unify_varRight {t : Ty} (ht : t.varName? = none) (depth : Nat) (n : Name) :
    unify (depth + 1) t (.var n) = .ok (.single n t) := by
  cases t <;> simp_all [unify, Ty.varName?]

lemma unify_constant {a b : Ty} (ha : a.isConstant = true) (hab : (a == b) = true) (depth : Nat) :
    unify (depth + 1) a b = .ok .empty := by
  replace hab : Ty.beq a b = true := hab
  cases a <;> cases b <;> simp_all [unify, Ty.isConstant, Ty.beq]

/-- Two types of which neither is a variable and not both are functions agree if they are equal base
types or equal literals, and there is nothing to bind; otherwise they clash. -/
lemma unify_rigid {a b : Ty} (ha : a.varName? = none) (hb : b.varName? = none)
    (hfunc : a.kind = .function → b.kind ≠ .function) (depth : Nat) :
    unify (depth + 1) a b =
      if a.isConstant = true ∧ (a == b) = true then .ok .empty else .error (.mismatch a b) := by
  have heq : ∀ c d : Ty, (c == d) = Ty.beq c d := fun _ _ => rfl
  cases a with
  | var n => simp [Ty.varName?] at ha
  | func ps r => cases b <;> simp_all [unify, Ty.isConstant, Ty.kind, Ty.varName?]
  | object fs => cases b <;> simp_all [unify, Ty.isConstant, Ty.varName?]
  | _ => cases b <;> simp_all [unify, Ty.isConstant, Ty.beq, Ty.varName?]

lemma compose_single (depth : Nat) (s : Subst) (n : Name) (t : Ty) :
    compose (depth + 1) s (.single n t) = extend depth s n t := by
  simp [compose, Subst.single]

lemma extend_of_new {s : Subst} {n : Name} (hn : s.get? n = none) (depth : Nat) (t : Ty) :
    extend (depth + 1) s n t = .ok (s.bind n t) := by
  rw [extend, hn]

lemma compose_single_of_new {s : Subst} {n : Name} (hn : s.get? n = none) (depth : Nat) (t : Ty) :
    compose (depth + 2) s (.single n t) = .ok (s.bind n t) := by
  rw [compose_single, extend_of_new hn]

lemma extend_bind {s : Subst} {n : Name} {t : Ty} (hn : s.Unresolved n)
    (hnew : ∀ old, s.get? n = some old → (old == t) = false) (depth : Nat) :
    extend (depth + 1) s n t = .ok (s.bind n t) := by
  unfold extend
  rcases Subst.unresolved_iff.1 hn with hnone | hself
  · simp [hnone]
  · simp [hself, hnew _ hself, Ty.varName?]

/-- Every derived answer is the program's at all depths from some depth on. -/
theorem Yields.run_eventually {task : Task} {r : Subst} (h : Yields task r) :
    Eventually fun depth => task.run depth = .ok r := by
  induction h with
  | varLeft n t => exact .of_succ fun depth => unify_varLeft depth n t
  | varRight n ht => exact .of_succ fun depth => unify_varRight ht depth n
  | constant ha hab => exact .of_succ fun depth => unify_constant ha hab depth
  | @func ps qs r q s s' hlen _ _ ihr ihps =>
    refine (ihr.and ihps).succ ?_
    rintro depth ⟨hr, hps⟩
    show unify (depth + 1) (.func ps r) (.func qs q) = .ok s'
    rw [unify, if_pos hlen]
    exact bind_eq_ok.2 ⟨s, hr, hps⟩
  | pairsNil s => exact .of_forall fun _ => rfl
  | @pairsCons a b rest s d s' s'' _ _ _ ihd ihs ihrest =>
    refine (ihd.and (ihs.and ihrest)).mono ?_
    rintro depth ⟨hd, hs, hrest⟩
    rw [← compose_eq_run] at hs
    rw [Task.run, List.foldlM_cons]
    exact bind_eq_ok.2 ⟨s', bind_eq_ok.2 ⟨d, hd, hs⟩, hrest⟩
  | keep hold heq => exact .of_succ fun depth => by simp [Task.run, extend, hold, heq]
  | bind hn hnew => exact .of_succ fun depth => extend_bind hn hnew depth
  | @reconcile s n t old d s' hold hne hself _ _ ihd ihs =>
    have hvar : old.varName? ≠ some n := fun e => hself (varName?_eq_some.1 e)
    refine (ihd.and ihs).succ ?_
    rintro depth ⟨hd, hs⟩
    rw [← compose_eq_run] at hs
    simp only [Task.run, extend, hold, hne, hvar, if_false, Bool.false_eq_true]
    exact bind_eq_ok.2 ⟨d, hd, hs⟩
  | bindingsNil s => exact .of_succ fun _ => rfl
  | @bindingsCons n t rest s s' s'' _ _ ihs ihrest =>
    -- the loop stays at its depth while the calls in it are one below
    obtain ⟨enough, hrest⟩ := ihrest
    refine (ihs.and ⟨enough, fun depth hd => hrest (depth + 1) (by omega)⟩).succ ?_
    rintro depth ⟨hs, hrest⟩
    rw [Task.run, List.foldlM_cons]
    exact bind_eq_ok.2 ⟨s', hs, hrest⟩

lemma Yields.unify_eventually {a b : Ty} {r : Subst} (h : Yields (.unify a b) r) :
    Eventually fun depth => TypeSolver.unify depth a b = .ok r :=
  h.run_eventually

lemma Yields.compose_eventually {s d r : Subst} (h : Yields (.extendAll s d.bindings) r) :
    Eventually fun depth => compose depth s d = .ok r :=
  h.run_eventually.mono fun depth hr => (compose_eq_run depth s d).trans hr

/-- An answer at some depth is the answer at every large enough depth. -/
theorem yields_iff {task : Task} {r : Subst} :
    Yields task r ↔ Eventually fun depth => task.run depth = .ok r :=
  ⟨Yields.run_eventually, fun ⟨enough, h⟩ => yields_of_run task (h enough le_rfl)⟩

/-! ## Properties that answers inherit -/

section Inheritance

variable {K : Name → Prop} {P : Ty → Prop}

/-- Every bound name satisfies one condition and every bound type another. -/
def Subst.Binds (K : Name → Prop) (P : Ty → Prop) (s : Subst) : Prop :=
  ∀ b ∈ s.bindings, K b.1 ∧ P b.2

/-- A type that may stand on the left: one that may be bound, or a name that may be bound to one. -/
def Ty.MayLead (K : Name → Prop) (P : Ty → Prop) (t : Ty) : Prop :=
  P t ∨ ∃ n, t = .var n ∧ K n

/-- Every name that a task may bind satisfies one condition, and every type that it may bind a name
to another.  The unifier binds a variable on the left before it looks to the right, so a variable
that stands there is not among those types. -/
def Task.Binds (K : Name → Prop) (P : Ty → Prop) : Task → Prop
  | .unify a b => a.MayLead K P ∧ P b
  | .unifyAll s pairs => s.Binds K P ∧ ∀ pq ∈ pairs, pq.1.MayLead K P ∧ P pq.2
  | .extend s n t => s.Binds K P ∧ K n ∧ P t
  | .extendAll s bindings => s.Binds K P ∧ ∀ b ∈ bindings, K b.1 ∧ P b.2

lemma Subst.binds_empty : empty.Binds K P := by
  simp [Binds, empty]

lemma Subst.binds_single {n : Name} {t : Ty} : (single n t).Binds K P ↔ K n ∧ P t := by
  simp [Binds, single]

/-- What is inherited passes to the type that a substitution makes of another, if the bound types
that come in have it. -/
lemma Ty.Hereditary.apply (hP : Ty.Hereditary P) {s : Subst} {t : Ty} (ht : P t)
    (hs : ∀ n u, t.mentions n = true → (n, u) ∈ s.bindings → P u) : P (s.apply t) := by
  rw [Subst.apply_eq_assign]
  refine hP.assign ht fun n hn => ?_
  cases hget : s.get? n with
  | none => simpa [Subst.toAssignment, hget] using hP.var ht hn
  | some u =>
    have hu := Subst.get?_eq_some_iff.1 hget
    rw [Subst.toAssignment_of_mem hu]
    exact hs n u hn hu

lemma Subst.Binds.apply (hP : Ty.Hereditary P) {s : Subst} (hs : s.Binds K P) {t : Ty}
    (ht : P t) : P (s.apply t) :=
  hP.apply ht fun n u _ hu => (hs (n, u) hu).2

lemma Subst.Binds.bind (hP : Ty.Hereditary P) {s : Subst} (hs : s.Binds K P) {n : Name} {t : Ty}
    (hn : K n) (ht : P t) : (s.bind n t).Binds K P := by
  rintro ⟨m, u⟩ hb
  rcases mem_bindings_bind hb with ⟨rfl, rfl⟩ | ⟨v, hv, rfl⟩
  · exact ⟨hn, hs.apply hP ht⟩
  · obtain ⟨hm, hPv⟩ := hs (m, v) hv
    exact ⟨hm, hP.substitute hPv (hs.apply hP ht)⟩

/-- An answer binds only what its task may bind. -/
theorem Yields.binds (hP : Ty.Hereditary P) (hK : ∀ {t n}, P t → t.mentions n = true → K n)
    {task : Task} {r : Subst} (h : Yields task r) (htask : task.Binds K P) : r.Binds K P := by
  -- on the left, what is no variable may be bound
  have hlead : ∀ {t}, t.varName? = none → Ty.MayLead K P t → P t := by
    rintro t ht (hPt | ⟨n, rfl, -⟩)
    · exact hPt
    · simp [Ty.varName?] at ht
  induction h with
  | varLeft n t =>
    obtain ⟨hn, ht⟩ := htask
    refine Subst.binds_single.2 ⟨?_, ht⟩
    rcases hn with hn | ⟨m, hm, hKm⟩
    · exact hK hn (by simp)
    · exact Ty.var.inj hm ▸ hKm
  | varRight n hvar =>
    exact Subst.binds_single.2 ⟨hK htask.2 (by simp), hlead hvar htask.1⟩
  | constant _ _ => exact Subst.binds_empty
  | func _ _ _ ihr ihps =>
    obtain ⟨hleft, hright⟩ := htask
    have hfunc := hlead rfl hleft
    refine ihps ⟨ihr ⟨.inl (hP.result hfunc), hP.result hright⟩, fun pq hpq => ?_⟩
    obtain ⟨hp, hq⟩ := List.of_mem_zip hpq
    exact ⟨.inl (hP.param hfunc hp), hP.param hright hq⟩
  | pairsNil s => exact htask.1
  | pairsCons _ _ _ ihd ihs ihrest =>
    obtain ⟨hs, hpairs⟩ := htask
    rw [List.forall_mem_cons] at hpairs
    exact ihrest ⟨ihs ⟨hs, ihd hpairs.1⟩, hpairs.2⟩
  | keep _ _ => exact htask.1
  | bind _ _ => exact htask.1.bind hP htask.2.1 htask.2.2
  | @reconcile s n t old d s' hold _ _ _ _ ihd ihs =>
    obtain ⟨hs, -, ht⟩ := htask
    have hPold : P old := (hs (n, old) (Subst.get?_eq_some_iff.1 hold)).2
    exact ihs ⟨hs, ihd ⟨.inl ht, hPold⟩⟩
  | bindingsNil s => exact htask.1
  | bindingsCons _ _ ihs ihrest =>
    obtain ⟨hs, hbs⟩ := htask
    rw [List.forall_mem_cons] at hbs
    exact ihrest ⟨ihs ⟨hs, hbs.1⟩, hbs.2⟩

/-- Every bound name and every bound type has a property. -/
def Subst.All (P : Ty → Prop) (s : Subst) : Prop := ∀ b ∈ s.bindings, P (.var b.1) ∧ P b.2

/-- Every name and every type of a task has a property. -/
def Task.All (P : Ty → Prop) : Task → Prop
  | .unify a b => P a ∧ P b
  | .unifyAll s pairs => s.All P ∧ ∀ pq ∈ pairs, P pq.1 ∧ P pq.2
  | .extend s n t => s.All P ∧ P (.var n) ∧ P t
  | .extendAll s bindings => s.All P ∧ ∀ b ∈ bindings, P (.var b.1) ∧ P b.2

lemma Task.All.binds {task : Task} (h : task.All P) : task.Binds (fun n => P (.var n)) P := by
  cases task with
  | unify a b => exact ⟨.inl h.1, h.2⟩
  | unifyAll s pairs => exact ⟨h.1, fun pq hpq => ⟨.inl (h.2 pq hpq).1, (h.2 pq hpq).2⟩⟩
  | extend s n t => exact h
  | extendAll s bindings => exact h

/-- An answer is made of what its task was made of. -/
theorem Yields.all (hP : Ty.Hereditary P) {task : Task} {r : Subst} (h : Yields task r)
    (htask : task.All P) : r.All P :=
  h.binds hP hP.var htask.binds

end Inheritance

end TypeSolver
