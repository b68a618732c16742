import Mathlib.Logic.Relation
import TypeSolver.Proofs.Unify.Solutions

/-!
# Resolved form

A substitution is in resolved form when applying it twice is applying it once.  Then what is bound
mentions no variable that is resolved, and one look-up gives the final type.

## One step

All that the unifier ever does to a substitution is to bind an unresolved name, again and again
(`Yields.bindSteps`).  Each statement about answers here is proved for one such step and carried
along the steps.

## Cycles

There is no occurs check, so a name may be bound to a larger type that mentions the name itself.
Such a binding stays: its name is never bound again, and replacing other names inside it does not
remove the mention (`CyclicAt.bind`).  It is also the only thing that can spoil the resolved form:
`Idempotent.bind` says that a step from a resolved substitution leads to another one unless it makes
a cycle, so the substitutions that are reached from the empty one are resolved exactly when they are
acyclic (`Reachable.idempotent_iff_acyclic`).
-/

namespace TypeSolver

variable {θ : Assignment} {s r : Subst} {k n : Name} {t u : Ty}

namespace Ty

lemma eq_var_of_assign_eq_var (h : t.assign θ = var n) : ∃ m, t = var m := by
  cases t with
  | var m => exact ⟨m, rfl⟩
  | func ps r => simp at h
  | object fs => simp at h
  | _ => simp [assign] at h

end Ty

namespace Subst

/-! ## Idempotent and acyclic substitutions -/

/-- Applying the substitution twice is applying it once. -/
def Idempotent (s : Subst) : Prop := ∀ t, s.apply (s.apply t) = s.apply t

/-- The name is bound to a larger type that mentions it. -/
def CyclicAt (s : Subst) (n : Name) : Prop :=
  ∃ t, (n, t) ∈ s.bindings ∧ t ≠ .var n ∧ t.mentions n = true

/-- No name is bound to a larger type that mentions it. -/
def Acyclic (s : Subst) : Prop := ∀ n, ¬ s.CyclicAt n

lemma cyclicAt_iff : s.CyclicAt n ↔
    s.toAssignment n ≠ .var n ∧ (s.toAssignment n).mentions n = true := by
  constructor
  · rintro ⟨t, ht, hne, hn⟩
    rw [toAssignment_of_mem ht]
    exact ⟨hne, hn⟩
  · rintro ⟨hne, hn⟩
    cases hget : s.get? n with
    | none => exact absurd (by simp [toAssignment, hget]) hne
    | some t =>
      have ht := get?_eq_some_iff.1 hget
      rw [toAssignment_of_mem ht] at hne hn
      exact ⟨t, ht, hne, hn⟩

lemma acyclic_iff : s.Acyclic ↔
    ∀ b ∈ s.bindings, b.2.varName? = some b.1 ∨ b.2.mentions b.1 = false := by
  constructor
  · intro h b hb
    by_contra hcon
    rw [not_or, Bool.not_eq_false] at hcon
    exact h b.1 ⟨b.2, hb, fun hvar => hcon.1 (varName?_eq_some.2 hvar), hcon.2⟩
  · rintro h n ⟨t, ht, hne, hn⟩
    rcases h (n, t) ht with hvar | hfree
    · exact hne (varName?_eq_some.1 hvar)
    · rw [hfree] at hn
      cases hn

instance (s : Subst) : Decidable s.Acyclic := decidable_of_iff _ acyclic_iff.symm

lemma idempotent_iff_toAssignment : s.Idempotent ↔
    ∀ n, (s.toAssignment n).assign s.toAssignment = s.toAssignment n := by
  constructor
  · intro h n
    simpa [apply_eq_assign] using h (.var n)
  · intro h t
    rw [apply_eq_assign, apply_eq_assign, Ty.assign_assign]
    exact Ty.assign_eq_assign_iff.2 fun n _ => h n

/-- A substitution is idempotent when it leaves every bound type alone. -/
lemma idempotent_iff_fixes : s.Idempotent ↔ ∀ b ∈ s.bindings, s.apply b.2 = b.2 := by
  simp only [idempotent_iff_toAssignment, apply_eq_assign]
  exact forall_toAssignment_iff (P := fun _ t => t.assign s.toAssignment = t) fun n hn => by
    simp [toAssignment, hn]

/-- A substitution is idempotent when no bound type mentions a resolved name. -/
lemma idempotent_iff_unresolved : s.Idempotent ↔
    ∀ b ∈ s.bindings, ∀ n, b.2.mentions n = true → s.Unresolved n := by
  simp only [idempotent_iff_fixes, apply_eq_assign, Ty.assign_eq_self_iff, Unresolved]

/-- A resolved substitution has no cycle: a type that mentions its own name properly would grow. -/
lemma Idempotent.acyclic (h : s.Idempotent) : s.Acyclic := by
  intro n hn
  obtain ⟨hne, hmem⟩ := cyclicAt_iff.1 hn
  have hlt := Ty.weight_lt_of_mentions (θ := s.toAssignment) hmem hne
  rw [idempotent_iff_toAssignment.1 h n] at hlt
  exact absurd hlt (lt_irrefl _)

lemma idempotent_empty : empty.Idempotent := by
  intro t
  simp [apply_eq_assign]

/-! ## One step -/

/-- A cycle survives the binding of another name. -/
lemma CyclicAt.bind (h : s.CyclicAt k) (hn : s.Unresolved n) (t : Ty) :
    (s.bind n t).CyclicAt k := by
  obtain ⟨hne, hk⟩ := cyclicAt_iff.1 h
  have hkn : k ≠ n := fun e => hne (e ▸ hn)
  rw [cyclicAt_iff, toAssignment_bind hn, Ty.substitute_eq_assign]
  refine ⟨fun hvar => ?_, Ty.mentions_assign.2 ⟨k, hk, by simp [hkn]⟩⟩
  -- replacing a name makes no variable out of a larger type
  obtain ⟨m, hm⟩ := Ty.eq_var_of_assign_eq_var hvar
  rw [hm, Ty.mentions_var] at hk
  exact hne (hk ▸ hm)

/-- Binding an unresolved name keeps the resolved form unless it makes a cycle. -/
lemma Idempotent.bind (hs : s.Idempotent) (hn : s.Unresolved n)
    (hcycle : ¬ (s.bind n t).CyclicAt n) : (s.bind n t).Idempotent := by
  set u := s.apply t with hu
  set σ := s.toAssignment with hσ
  have hfree : ∀ m j, (σ m).mentions j = true → s.Unresolved j := fun m =>
    Ty.assign_eq_self_iff.1 (idempotent_iff_toAssignment.1 hs m)
  have hufree : ∀ j, u.mentions j = true → s.Unresolved j := by
    have hfix := hs t
    rw [apply_eq_assign, Ty.assign_eq_self_iff] at hfix
    exact hfix
  -- no cycle at `n`: replacing `n` in its own new type changes nothing
  have hself : u.substitute n u = u := by
    rw [cyclicAt_iff, toAssignment_bind hn, hn, Ty.substitute, if_pos rfl, not_and] at hcycle
    by_cases hvar : u = .var n
    · simp [hvar, Ty.substitute]
    · rw [Ty.substitute_eq_assign, Ty.assign_eq_self_iff]
      intro j hj
      have hjn : j ≠ n := by
        rintro rfl
        exact hcycle hvar hj
      exact Function.update_of_ne hjn _ _
  rw [idempotent_iff_toAssignment]
  intro m
  rw [← apply_eq_assign, toAssignment_bind hn, apply_bind hn]
  -- the new types still mention names only that `s` leaves alone
  have hfix : s.apply ((σ m).substitute n u) = (σ m).substitute n u := by
    rw [apply_eq_assign, Ty.assign_eq_self_iff, Ty.substitute_eq_assign]
    intro j hj
    obtain ⟨i, hi, hij⟩ := Ty.mentions_assign.1 hj
    by_cases hin : i = n
    · subst hin
      rw [Function.update_self] at hij
      exact hufree j hij
    · rw [Function.update_of_ne hin, Ty.mentions_var] at hij
      exact hij ▸ hfree m i hi
  rw [hfix, Ty.substitute_eq_assign, Ty.substitute_eq_assign, Ty.assign_assign]
  refine Ty.assign_eq_assign_iff.2 fun j _ => ?_
  rw [← Ty.substitute_eq_assign]
  by_cases hjn : j = n
  · subst hjn
    rw [Function.update_self, hself]
  · rw [Function.update_of_ne hjn, Ty.substitute, if_neg hjn]

/-! ## Every answer is reached by binding unresolved names -/

lemma bind_empty (n : Name) (t : Ty) : empty.bind n t = single n t := by
  have happly : empty.apply t = t := by simp [apply_eq_assign]
  unfold bind
  rw [happly]
  rfl

/-- An unresolved name is bound. -/
def BindStep (s r : Subst) : Prop := ∃ n t, s.Unresolved n ∧ r = s.bind n t

/-- Unresolved names are bound, one after another. -/
abbrev BindSteps : Subst → Subst → Prop := Relation.ReflTransGen BindStep

lemma CyclicAt.bindSteps (h : s.CyclicAt k) (hsteps : BindSteps s r) : r.CyclicAt k := by
  induction hsteps with
  | refl => exact h
  | tail _ hstep ih =>
    obtain ⟨n, t, hn, rfl⟩ := hstep
    exact ih.bind hn t

/-- From a resolved substitution, steps that end without a cycle end in a resolved one. -/
lemma Idempotent.bindSteps (hs : s.Idempotent) (hsteps : BindSteps s r) (hr : r.Acyclic) :
    r.Idempotent := by
  induction hsteps with
  | refl => exact hs
  | tail _ hstep ih =>
    obtain ⟨n, t, hn, rfl⟩ := hstep
    -- a cycle before the step would still be there after it
    have hmid : Acyclic _ := fun k hk => hr k (hk.bind hn t)
    exact (ih hmid).bind hn (hr n)

end Subst

/-- The substitution that a task starts from. -/
def Task.start : Task → Subst
  | .unify _ _ => .empty
  | .unifyAll s _ | .extend s _ _ | .extendAll s _ => s

/-- An answer is reached from the start of its task by binding unresolved names. -/
theorem Yields.bindSteps {task : Task} {r : Subst} (h : Yields task r) :
    Subst.BindSteps task.start r := by
  have hsingle : ∀ n t, Subst.BindSteps .empty (.single n t) := fun n t =>
    .single ⟨n, t, by simp [Subst.Unresolved], (Subst.bind_empty n t).symm⟩
  induction h with
  | varLeft n t => exact hsingle n t
  | varRight n _ => exact hsingle n _
  | constant _ _ => exact .refl
  | func _ _ _ ihr ihps => exact ihr.trans ihps
  | pairsNil s => exact .refl
  | pairsCons _ _ _ _ ihs ihrest => exact ihs.trans ihrest
  | keep _ _ => exact .refl
  | bind hn _ => exact .single ⟨_, _, hn, rfl⟩
  | reconcile _ _ _ _ _ _ ihs => exact ihs
  | bindingsNil s => exact .refl
  | bindingsCons _ _ ihs ihrest => exact ihs.trans ihrest

/-! ## Reachable substitutions -/

/-- The substitutions that are reached from the empty one by adding bindings. -/
inductive Subst.Reachable : Subst → Prop where
  | empty : Reachable .empty
  | extend {s r : Subst} {depth : Nat} {n : Name} {t : Ty} (hs : Reachable s)
    (h : TypeSolver.extend depth s n t = .ok r) : Reachable r
  | compose {s added r : Subst} {depth : Nat} (hs : Reachable s)
    (h : TypeSolver.compose depth s added = .ok r) : Reachable r

namespace Subst

lemma Reachable.bindSteps (h : s.Reachable) : BindSteps .empty s := by
  induction h with
  | empty => exact .refl
  | extend _ h ih => exact ih.trans (yields_of_extend h).bindSteps
  | compose _ h ih => exact ih.trans (yields_of_compose h).bindSteps

/-- A reachable substitution is resolved exactly when it has no cycle. -/
lemma Reachable.idempotent_iff_acyclic (h : s.Reachable) : s.Idempotent ↔ s.Acyclic :=
  ⟨Idempotent.acyclic, idempotent_empty.bindSteps h.bindSteps⟩

end Subst

/-- What the unifier makes of a reachable substitution is reachable. -/
lemma Yields.reachable {task : Task} {r : Subst} (h : Yields task r)
    (hs : task.start.Reachable) : r.Reachable := by
  have hsingle : ∀ n t, (Subst.single n t).Reachable := fun n t =>
    Subst.bind_empty n t ▸
      Subst.Reachable.empty.extend (extend_bind (by simp [Subst.Unresolved]) (by simp) 0)
  induction h with
  | varLeft n t => exact hsingle n t
  | varRight n _ => exact hsingle n _
  | constant _ _ => exact .empty
  | func _ _ _ ihr ihps => exact ihps (ihr .empty)
  | pairsNil s => exact hs
  | pairsCons _ _ _ _ ihs ihrest => exact ihrest (ihs hs)
  | keep _ _ => exact hs
  | bind hn hnew => exact hs.extend (extend_bind hn hnew 0)
  | reconcile _ _ _ _ _ _ ihs => exact ihs hs
  | bindingsNil s => exact hs
  | bindingsCons _ _ ihs ihrest => exact ihrest (ihs hs)

end TypeSolver
