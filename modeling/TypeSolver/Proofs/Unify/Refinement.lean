import TypeSolver.Proofs.Unify.ResolvedForm

/-!
# What an answer leaves alone

An answer of the unifier is reached from where its task starts by binding unresolved names, and
binding one is composition with the replacement of that name.  So what the answer makes of a type is
what the start made of it, with single replacements done one after another, and there is no
condition on cycles (`BindStepsAt.exists_replaceAll`).  Names are only ever added, at the end
(`BindStepsAt.names_isPrefix`).

## The names that can be replaced

Merging may bind names that neither of the merged substitutions has as a key, for what a name stood
for is unified with what it is to stand for now.  A set of names bounds what can be touched if the
task speaks of no others and the start leads from them to no others: it is then closed under
everything that the unifier looks at, and only names of the set are bound (`Yields.confined`).  A
type that comes out of the start without such names comes out of the answer as it was.
-/

namespace TypeSolver

variable {V : Name → Prop} {s r : Subst} {n : Name} {t : Ty}

namespace Ty

/-! ## Single replacements, one after another -/

/-- The type with names replaced, one after another. -/
def replaceAll (t : Ty) (replacements : List (Name × Ty)) : Ty :=
  replacements.foldl (fun t p => t.substitute p.1 p.2) t

lemma replaceAll_append (t : Ty) (ps qs : List (Name × Ty)) :
    t.replaceAll (ps ++ qs) = (t.replaceAll ps).replaceAll qs :=
  List.foldl_append

lemma replaceAll_of_not_mentions {replacements : List (Name × Ty)}
    (h : ∀ p ∈ replacements, t.mentions p.1 = false) : t.replaceAll replacements = t := by
  induction replacements with
  | nil => rfl
  | cons p rest ih =>
    rw [List.forall_mem_cons] at h
    have hstep : t.replaceAll (p :: rest) = (t.substitute p.1 p.2).replaceAll rest := rfl
    rw [hstep, substitute_of_not_mentions h.1, ih h.2]

end Ty

namespace Subst

/-! ## Binding names of a set -/

/-- An unresolved name of a set is bound. -/
def BindStepAt (V : Name → Prop) (s r : Subst) : Prop :=
  ∃ n t, V n ∧ s.Unresolved n ∧ r = s.bind n t

/-- Unresolved names of a set are bound, one after another. -/
abbrev BindStepsAt (V : Name → Prop) : Subst → Subst → Prop :=
  Relation.ReflTransGen (BindStepAt V)

lemma BindSteps.bindStepsAt (h : BindSteps s r) : BindStepsAt (fun _ => True) s r := by
  have hstep : BindStep ≤ BindStepAt fun _ => True := fun _ _ ⟨n, t, hn, hr⟩ =>
    ⟨n, t, trivial, hn, hr⟩
  exact Relation.ReflTransGen.mono hstep _ _ h

/-- Binding a name leaves the names that are bound where they are. -/
lemma names_bind_isPrefix (s : Subst) (n : Name) (t : Ty) : s.names <+: (s.bind n t).names := by
  rw [← names_replaceIn (n := n) (u := s.apply t)]
  show _ <+: (putBinding n (s.apply t) (s.replaceIn n (s.apply t)).bindings).map Prod.fst
  by_cases hn : n ∈ (s.replaceIn n (s.apply t)).names
  · rw [map_fst_putBinding_of_mem hn]
    exact List.prefix_rfl
  · rw [map_fst_putBinding_of_not_mem hn]
    exact List.prefix_append _ _

lemma BindStepsAt.names_isPrefix (h : BindStepsAt V s r) : s.names <+: r.names := by
  induction h with
  | refl => exact List.prefix_rfl
  | tail _ hstep ih =>
    obtain ⟨n, t, -, -, rfl⟩ := hstep
    exact ih.trans (names_bind_isPrefix _ n t)

/-- What the last substitution makes of a type is what the first made of it, with names of the set
replaced one after another. -/
lemma BindStepsAt.exists_replaceAll (h : BindStepsAt V s r) :
    ∃ replacements : List (Name × Ty), (∀ p ∈ replacements, V p.1) ∧
      ∀ t, r.apply t = (s.apply t).replaceAll replacements := by
  induction h with
  | refl => exact ⟨[], by simp, fun _ => rfl⟩
  | @tail mid _ _ hstep ih =>
    obtain ⟨replacements, hV, happly⟩ := ih
    obtain ⟨n, t, hn, hunresolved, rfl⟩ := hstep
    refine ⟨replacements ++ [(n, mid.apply t)], ?_, fun u => ?_⟩
    · intro p hp
      rcases List.mem_append.1 hp with hp | hp
      · exact hV p hp
      · rw [List.mem_singleton.1 hp]
        exact hn
    · rw [apply_bind hunresolved, happly u, Ty.replaceAll_append]
      rfl

/-- What comes out without names of the set stays as it is. -/
lemma BindStepsAt.apply_eq (h : BindStepsAt V s r) (ht : (s.apply t).Over fun n => ¬ V n) :
    r.apply t = s.apply t := by
  obtain ⟨replacements, hV, happly⟩ := h.exists_replaceAll
  rw [happly]
  refine Ty.replaceAll_of_not_mentions fun p hp => ?_
  rw [← Bool.not_eq_true]
  intro hmentions
  exact ht p.1 hmentions (hV p hp)

/-! ## Closed sets of names -/

/-- From names of the set the substitution leads to names of the set. -/
def ClosedOn (V : Name → Prop) (s : Subst) : Prop := ∀ b ∈ s.bindings, V b.1 → b.2.Over V

lemma closedOn_single (ht : t.Over V) : (single n t).ClosedOn V := by
  intro b hb _
  obtain rfl : b = (n, t) := List.mem_singleton.1 hb
  exact ht

lemma ClosedOn.apply (hs : s.ClosedOn V) (ht : t.Over V) : (s.apply t).Over V :=
  (Ty.hereditary_over V).apply ht fun n u hn hu => hs (n, u) hu (ht n hn)

lemma ClosedOn.bind (hs : s.ClosedOn V) (ht : t.Over V) : (s.bind n t).ClosedOn V := by
  rintro ⟨m, u⟩ hb hm
  rcases mem_bindings_bind hb with ⟨rfl, rfl⟩ | ⟨v, hv, rfl⟩
  · exact hs.apply ht
  · exact (Ty.hereditary_over V).substitute (hs (m, v) hv hm) (hs.apply ht)

end Subst

/-- A task speaks of names of the set only, and starts from a substitution that is closed on it. -/
def Task.Confined (V : Name → Prop) : Task → Prop
  | .unify a b => a.Over V ∧ b.Over V
  | .unifyAll s pairs => s.ClosedOn V ∧ ∀ pq ∈ pairs, pq.1.Over V ∧ pq.2.Over V
  | .extend s n t => s.ClosedOn V ∧ V n ∧ t.Over V
  | .extendAll s bindings => s.ClosedOn V ∧ ∀ b ∈ bindings, V b.1 ∧ b.2.Over V

/-- The answer to a confined task is reached by binding names of the set, and is closed on it. -/
theorem Yields.confined {task : Task} (h : Yields task r) (htask : task.Confined V) :
    Subst.BindStepsAt V task.start r ∧ r.ClosedOn V := by
  have hsingle : ∀ {n t}, V n → t.Over V →
      Subst.BindStepsAt V .empty (.single n t) ∧ (Subst.single n t).ClosedOn V := fun hn ht =>
    ⟨.single ⟨_, _, hn, by simp [Subst.Unresolved], (Subst.bind_empty _ _).symm⟩,
      Subst.closedOn_single ht⟩
  -- what unifying types over the set yields is all over the set, keys included
  have hunify : ∀ {a b d}, Yields (.unify a b) d → a.Over V → b.Over V →
      ∀ p ∈ d.bindings, V p.1 ∧ p.2.Over V := fun hd ha hb =>
    hd.binds (Ty.hereditary_over V) (fun ht hn => ht _ hn) ⟨.inl ha, hb⟩
  induction h with
  | varLeft n t => exact hsingle (htask.1 n (by simp)) htask.2
  | varRight n _ => exact hsingle (htask.2 n (by simp)) htask.1
  | constant _ _ => exact ⟨.refl, by simp [Subst.ClosedOn, Subst.empty]⟩
  | func _ _ _ ihr ihps =>
    obtain ⟨hleft, hright⟩ := htask
    have hV := Ty.hereditary_over V
    obtain ⟨hsteps, hclosed⟩ := ihr ⟨hV.result hleft, hV.result hright⟩
    obtain ⟨hsteps', hclosed'⟩ := ihps ⟨hclosed, fun pq hpq =>
      ⟨hV.param hleft (List.of_mem_zip hpq).1, hV.param hright (List.of_mem_zip hpq).2⟩⟩
    exact ⟨hsteps.trans hsteps', hclosed'⟩
  | pairsNil s => exact ⟨.refl, htask.1⟩
  | pairsCons hd _ _ _ ihs ihrest =>
    obtain ⟨hs, hpairs⟩ := htask
    rw [List.forall_mem_cons] at hpairs
    obtain ⟨hsteps, hclosed⟩ := ihs ⟨hs, hunify hd hpairs.1.1 hpairs.1.2⟩
    obtain ⟨hsteps', hclosed'⟩ := ihrest ⟨hclosed, hpairs.2⟩
    exact ⟨hsteps.trans hsteps', hclosed'⟩
  | keep _ _ => exact ⟨.refl, htask.1⟩
  | bind hn _ =>
    obtain ⟨hs, hV, ht⟩ := htask
    exact ⟨.single ⟨_, _, hV, hn, rfl⟩, hs.bind ht⟩
  | @reconcile s n t old d s' hold _ _ hd _ _ ihs =>
    obtain ⟨hs, hV, ht⟩ := htask
    exact ihs ⟨hs, hunify hd ht (hs (n, old) (Subst.get?_eq_some_iff.1 hold) hV)⟩
  | bindingsNil s => exact ⟨.refl, htask.1⟩
  | bindingsCons _ _ ihs ihrest =>
    obtain ⟨hs, hbs⟩ := htask
    rw [List.forall_mem_cons] at hbs
    obtain ⟨hsteps, hclosed⟩ := ihs ⟨hs, hbs.1⟩
    obtain ⟨hsteps', hclosed'⟩ := ihrest ⟨hclosed, hbs.2⟩
    exact ⟨hsteps.trans hsteps', hclosed'⟩

end TypeSolver
