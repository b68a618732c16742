import TypeSolver.Proofs.Unify.ResolvedForm

/-!
# Adding bindings to a substitution

A binding is added by resolving its type, replacing its name in the bindings that mention the name,
and putting it in.  All of this is one step if a substitution is read as a function on types:
applying the new substitution is applying the old one and then replacing the name
(`extend_composes`).  There is no condition on the old substitution, whose bindings may mention one
another in any way.

## Normal forms

Merging into the empty substitution adds the bindings of another one by one, and since their names
differ each is such a step (`compose_empty`).  So what comes out has the same names and the same
solutions, whatever chains there were, and it is in resolved form unless there is a cycle.

A substitution in resolved form comes out as it was.  Where a binding is added, its type mentions no
name that has been bound to something else, and so it is not changed; and its name is mentioned
before only if it stands for itself, and so nothing else is changed either
(`Subst.Idempotent.bindings_bind`).  A larger type that mentions its own name is the one thing that
merging leaves alone although it is not resolved; without such bindings, the substitutions that come
out as they were are exactly those in resolved form (`compose_empty_normalises`).
-/

namespace TypeSolver

variable {s b : Subst} {n : Name} {t : Ty}

namespace Subst

/-! ## One binding -/

/-- Binding a name that is bound to itself to itself again changes nothing, and so the step is
composition there too. -/
lemma exists_extend_composes (hn : s.Unresolved n) (t : Ty) :
    ∃ r, (∀ depth, extend (depth + 1) s n t = .ok r) ∧
      ∀ u, r.apply u = (s.apply u).substitute n (s.apply t) := by
  by_cases hself : s.get? n = some (.var n) ∧ t = .var n
  · obtain ⟨hget, rfl⟩ := hself
    have hbeq : (Ty.var n == Ty.var n) = true := Ty.beq_iff_alike.2 ⟨rfl, Ty.alike_of_eq rfl⟩
    have hname : s.apply (.var n) = .var n := by
      rw [apply_eq_assign, Ty.assign_var]
      exact hn
    refine ⟨s, fun depth => ?_, fun u => ?_⟩
    · simp [extend, hget, hbeq]
    · rw [hname, Ty.substitute_self]
  · refine ⟨s.bind n t, extend_bind hn fun old hold => ?_, apply_bind hn t⟩
    rw [Bool.eq_false_iff]
    intro hbeq
    rcases unresolved_iff.1 hn with hnone | hsome
    · rw [hnone] at hold
      cases hold
    · rw [hsome, Option.some.injEq] at hold
      subst hold
      exact hself ⟨hsome, Ty.eq_var_of_alike (Ty.alike_of_beq hbeq)⟩

lemma apply_single (n : Name) (t u : Ty) : (single n t).apply u = u.substitute n t := by
  rw [apply_eq_assign, toAssignment_single, Ty.substitute_eq_assign]

end Subst

/-- Adding a binding for a name that is not bound, or only to itself, always succeeds, and what the
new substitution makes of a type is what the old one makes of it, with the name replaced by its
resolved type.  The functions on types behind it agree: replacing a variable is applying a
substitution of one binding, it brings in the variables of the replacement for the one replaced, and
where there is nothing to replace it changes nothing, so that passing over such bindings gives the
same substitution as rewriting them all. -/
theorem extend_composes :
    (∀ (s : Subst) (n : Name) (t : Ty), s.get? n = none ∨ s.get? n = some (.var n) →
      ∃ r, (∀ depth, extend (depth + 1) s n t = .ok r) ∧
        ∀ u, r.apply u = (s.apply u).substitute n (s.apply t)) ∧
    (∀ (u : Ty) (n : Name) (w : Ty),
      u.substitute n w = (Subst.single n w).apply u ∧
      (u.mentions n = false → u.substitute n w = u) ∧
      ∀ k, (u.substitute n w).mentions k = true ↔
        (k ≠ n ∧ u.mentions k = true) ∨ (u.mentions n = true ∧ w.mentions k = true)) ∧
    ∀ (s : Subst) (n : Name) (w : Ty), s.replaceIn n w = s.mapTypes fun u => u.substitute n w := by
  refine ⟨?_, ?_, ?_⟩
  · intro s n t hn
    exact Subst.exists_extend_composes (Subst.unresolved_iff.2 hn) t
  · intro u n w
    refine ⟨(Subst.apply_single n w u).symm, ?_, fun k => Ty.mentions_substitute⟩
    exact fun h => Ty.substitute_of_not_mentions h w
  · intro s n w
    exact Subst.replaceIn_eq_mapTypes

/-- A name that is bound to itself, one that leads to it, and one that has nothing to do with it. -/
def selfBound : Subst := .ofList [("x", .var "y"), ("y", .var "y"), ("z", .number)]

/-- The name gets a type that leads back to it, and the binding that does not mention it stays. -/
theorem extend_composes_of_self_binding :
    selfBound.get? "y" = some (.var "y") ∧
    extend 1 selfBound "y" (.func [.var "x"] (.var "z")) =
      .ok (.ofList [("x", .func [.var "y"] .number), ("y", .func [.var "y"] .number),
        ("z", .number)]) ∧
    (∃ r, (∀ depth, extend (depth + 1) selfBound "y" (.func [.var "x"] (.var "z")) = .ok r) ∧
      ∀ u, r.apply u =
        (selfBound.apply u).substitute "y" (selfBound.apply (.func [.var "x"] (.var "z")))) ∧
    Ty.number.mentions "y" = false ∧ Ty.number.substitute "y" .string = .number :=
  ⟨rfl, rfl, extend_composes.1 _ _ _ (.inr rfl), rfl, (extend_composes.2.1 _ _ _).2.1 rfl⟩

/-! ## Bindings one by one -/

namespace Subst

/-- The substitution with bindings put in, one after another. -/
def bindAll (s : Subst) (bindings : List (Name × Ty)) : Subst :=
  bindings.foldl (fun acc b => acc.bind b.1 b.2) s

lemma bindAll_cons (s : Subst) (n : Name) (t : Ty) (rest : List (Name × Ty)) :
    s.bindAll ((n, t) :: rest) = (s.bind n t).bindAll rest := rfl

/-- Bindings of new names are put in, and the names come in the order of the bindings. -/
lemma foldlM_extend_of_new (depth : Nat) (bindings : List (Name × Ty))
    (h : (s.names ++ bindings.map Prod.fst).Nodup) :
    bindings.foldlM (fun acc b => extend (depth + 1) acc b.1 b.2) s = .ok (s.bindAll bindings) ∧
      (s.bindAll bindings).names = s.names ++ bindings.map Prod.fst := by
  induction bindings generalizing s with
  | nil => exact ⟨rfl, (List.append_nil _).symm⟩
  | cons b rest ih =>
    obtain ⟨n, t⟩ := b
    have hnew : s.get? n = none := by
      refine get?_eq_none_iff.2 fun hn => ?_
      exact (List.nodup_append.1 h).2.2 n hn n (by simp) rfl
    have hnames : (s.bind n t).names = s.names ++ [n] := names_bind_of_new hnew
    have hrest : ((s.bind n t).names ++ rest.map Prod.fst).Nodup := by
      rw [hnames, List.append_assoc]
      exact h
    obtain ⟨hfold, hall⟩ := ih hrest
    rw [List.foldlM_cons, extend_of_new hnew, ok_bind, bindAll_cons]
    refine ⟨hfold, ?_⟩
    rw [hall, hnames, List.append_assoc]
    rfl

/-- A binding of a resolved substitution, added after those that come before it there, changes none
of them and is not changed. -/
lemma Idempotent.bindings_bind (hb : b.Idempotent) {rest : List (Name × Ty)}
    (hbindings : b.bindings = s.bindings ++ (n, t) :: rest) :
    (s.bind n t).bindings = s.bindings ++ [(n, t)] := by
  have hmem : (n, t) ∈ b.bindings := by simp [hbindings]
  have hbefore : ∀ c ∈ s.bindings, c ∈ b.bindings := fun c hc => by simp [hbindings, hc]
  have hfree := idempotent_iff_unresolved.1 hb
  have hnew : s.get? n = none := by
    rw [get?_eq_none_iff]
    have hnodup := b.nodup
    rw [hbindings, List.map_append, List.map_cons] at hnodup
    exact fun hn => (List.nodup_append.1 hnodup).2.2 n hn n (by simp) rfl
  -- what all of the substitution leaves alone is left alone by its first bindings
  have hunresolved : ∀ k, b.Unresolved k → s.Unresolved k := by
    intro k hk
    cases hget : s.get? k with
    | none => exact unresolved_iff.2 (.inl hget)
    | some u =>
      have hu := toAssignment_of_mem (hbefore _ (get?_eq_some_iff.1 hget))
      exact unresolved_iff.2 (.inr (hget.trans (congrArg some (hu.symm.trans hk))))
  have hresolved : s.apply t = t := by
    rw [apply_eq_assign, Ty.assign_eq_self_iff]
    exact fun k hk => hunresolved k (hfree _ hmem k hk)
  have hreplace : s.replaceIn n t = s := by
    refine replaceIn_eq_self fun c hc => ?_
    cases hmention : c.2.mentions n with
    | false => exact Ty.substitute_of_not_mentions hmention t
    | true =>
      have hself : t = .var n :=
        (toAssignment_of_mem hmem).symm.trans (hfree c (hbefore c hc) n hmention)
      rw [hself, Ty.substitute_self]
  rw [Subst.bind, hresolved, hreplace, bindings_put_of_new hnew]

lemma Idempotent.bindAll_eq (hb : b.Idempotent) {rest : List (Name × Ty)}
    (hbindings : b.bindings = s.bindings ++ rest) : s.bindAll rest = b := by
  induction rest generalizing s with
  | nil => exact eq_of_bindings (by rw [hbindings, List.append_nil]; rfl)
  | cons c rest ih =>
    obtain ⟨n, t⟩ := c
    rw [bindAll_cons]
    refine ih ?_
    rw [hb.bindings_bind hbindings, hbindings, List.append_assoc]
    rfl

end Subst

/-! ## Merging into the empty substitution -/

lemma compose_empty (b : Subst) (depth : Nat) :
    compose (depth + 2) .empty b = .ok (Subst.empty.bindAll b.bindings) ∧
      (Subst.empty.bindAll b.bindings).names = b.names := by
  have h := Subst.foldlM_extend_of_new (s := .empty) depth b.bindings b.nodup
  exact ⟨by rw [compose, h.1], h.2⟩

/-- Merging a substitution into the empty one succeeds.  The outcome binds the same names in the
same order and has the same solutions; it is in resolved form if no name is bound in it to a larger
type that mentions the name.  If no name is so bound in the substitution itself, it comes out as it
was exactly if it was in resolved form. -/
theorem compose_empty_normalises (b : Subst) :
    ∃ r, (∀ depth, compose (depth + 2) .empty b = .ok r) ∧
      r.names = b.names ∧
      (∀ θ, r.SatisfiedBy θ ↔ b.SatisfiedBy θ) ∧
      (r.Acyclic → ∀ c ∈ r.bindings, r.apply c.2 = c.2) ∧
      (b.Acyclic → (r = b ↔ ∀ c ∈ b.bindings, b.apply c.2 = c.2)) := by
  have hcompose := fun depth => (compose_empty b depth).1
  have hresolved : (Subst.empty.bindAll b.bindings).Acyclic →
      (Subst.empty.bindAll b.bindings).Idempotent :=
    (Subst.Reachable.empty.compose (hcompose 0)).idempotent_iff_acyclic.2
  refine ⟨Subst.empty.bindAll b.bindings, hcompose, (compose_empty b 0).2, fun θ => ?_,
    fun hr => ?_, fun hb => ?_⟩
  · rw [(yields_of_compose (hcompose 0)).satisfiedBy_iff]
    exact and_iff_right Subst.satisfiedBy_empty
  · exact Subst.idempotent_iff_fixes.1 (hresolved hr)
  · rw [← Subst.idempotent_iff_fixes]
    refine ⟨fun heq => ?_, fun hidem => hidem.bindAll_eq rfl⟩
    rw [heq] at hresolved
    exact hresolved hb

/-- A name that is bound to a larger type which mentions it comes out as it was, and is not
resolved: applying the substitution to its type makes the type grow. -/
example : compose 2 .empty (.single "x" (.func [] (.var "x"))) =
      .ok (.single "x" (.func [] (.var "x"))) ∧
    (Subst.single "x" (.func [] (.var "x"))).apply (.func [] (.var "x")) =
      .func [] (.func [] (.var "x")) :=
  ⟨rfl, rfl⟩

/-- A chain in which every name stands before the one that it leads to, and a name on its own. -/
def chain : Subst :=
  .ofList [("x", .func [.var "y"] (.var "w")), ("y", .var "z"), ("z", .number), ("w", .var "w")]

/-- The chain with its names resolved. -/
def resolvedChain : Subst :=
  .ofList [("x", .func [.number] (.var "w")), ("y", .number), ("z", .number), ("w", .var "w")]

/-- The chain is resolved; and what comes out of that comes out again as it is. -/
theorem compose_empty_normalises_of_chain :
    chain.Acyclic ∧ resolvedChain.Acyclic ∧ compose 2 .empty chain = .ok resolvedChain ∧
    (∀ c ∈ resolvedChain.bindings, resolvedChain.apply c.2 = c.2) ∧
    compose 2 .empty resolvedChain = .ok resolvedChain := by
  have hacyclic : resolvedChain.Acyclic := by decide
  obtain ⟨r, hr, -, -, hfixes, -⟩ := compose_empty_normalises chain
  obtain rfl : resolvedChain = r := Except.ok.inj (hr 0)
  obtain ⟨r, hr', -, -, -, hidentity⟩ := compose_empty_normalises resolvedChain
  obtain rfl := (hidentity hacyclic).2 (hfixes hacyclic)
  exact ⟨by decide, hacyclic, hr 0, hfixes hacyclic, hr' 0⟩

end TypeSolver
