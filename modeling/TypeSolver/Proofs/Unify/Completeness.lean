import TypeSolver.Proofs.Unify.ResolvedForm

/-!
# Solvable equations are solved

The recursion of the unifier need not end: without an occurs check `x` may be unified with a type
that mentions `x`, and reconciling such bindings goes on for ever.  This file shows that it ends,
and with an answer, whenever the equations have a solution at all and no objects and no NaN literals
are in the way (two objects never agree, and a NaN is not equal to itself).

## The measure

Fix a solution `θ`.  An equation weighs what its two sides weigh under `θ`, which is the same.

* Unifying two functions leads to equations between their parts, which weigh less.
* Adding a binding to a name that is bound unifies the two types, which weigh the same.  If both are
  larger than a variable, what comes of it weighs less.  If one is a variable, it is bound instead;
  and since the substitution is in resolved form, that happens at most twice before a name turns up
  that is unresolved (`exists_extend`).

So the weight is the measure, and the resolved form bounds the steps at one weight.  The induction
is on a bound for the weight, and `Completes` is what is proved of each bound.
-/

namespace TypeSolver

variable {θ : Assignment} {s r : Subst} {n : Name} {t : Ty} {w : Nat}

/-! ## Weights of bound names -/

/-- A substitution that has a solution has no cycle: the name would weigh more than itself. -/
lemma Subst.SatisfiedBy.acyclic (h : s.SatisfiedBy θ) : s.Acyclic := by
  rintro n ⟨t, ht, hne, hn⟩
  have hweight : (θ n).weight = (t.assign θ).weight := Ty.weight_eq_of_alike (h (n, t) ht)
  have hlt : (θ n).weight < (t.assign θ).weight := Ty.weight_lt_of_mentions hn hne
  omega

/-- What every bound name stands for weighs at most `w`. -/
def Subst.Within (θ : Assignment) (w : Nat) (s : Subst) : Prop :=
  ∀ b ∈ s.bindings, (θ b.1).weight ≤ w

/-- Every equation of a task weighs at most `w`. -/
def Task.Within (θ : Assignment) (w : Nat) : Task → Prop
  | .unify a _ => (a.assign θ).weight ≤ w
  | .unifyAll s pairs => s.Within θ w ∧ ∀ pq ∈ pairs, (pq.1.assign θ).weight ≤ w
  | .extend s n _ => s.Within θ w ∧ (θ n).weight ≤ w
  | .extendAll s bindings => s.Within θ w ∧ ∀ b ∈ bindings, (θ b.1).weight ≤ w

lemma Subst.within_single : (single n t).Within θ w ↔ (θ n).weight ≤ w := by
  simp [Within, single]

lemma Subst.within_empty : empty.Within θ w := by
  simp [Within, empty]

/-- The parts of two functions weigh less than the functions. -/
lemma weight_parts_le {ps : List Ty} (qs : List Ty) {r : Ty}
    (hw : ((Ty.func ps r).assign θ).weight ≤ w + 1) :
    (r.assign θ).weight ≤ w ∧ ∀ pq ∈ ps.zip qs, (pq.1.assign θ).weight ≤ w := by
  rw [Ty.assign_func] at hw
  refine ⟨?_, fun pq hpq => ?_⟩
  · have hlt := Ty.weight_lt_func_result (ps.map (Ty.assign θ)) (r.assign θ)
    omega
  · have hmem : pq.1.assign θ ∈ ps.map (Ty.assign θ) :=
      List.mem_map_of_mem (List.of_mem_zip hpq).1
    have hlt := Ty.weight_lt_func_of_mem hmem (r.assign θ)
    omega

/-- The equations of an answer weigh no more than those of its task. -/
lemma Yields.within {task : Task} (h : Yields task r) (hsolved : task.SolvedBy θ)
    (hw : task.Within θ w) : r.Within θ w := by
  induction h with
  | varLeft n t => exact Subst.within_single.2 hw
  | varRight n _ =>
    rw [Subst.within_single]
    exact (Ty.weight_eq_of_alike hsolved).symm.trans_le hw
  | constant _ _ => exact Subst.within_empty
  | @func ps qs r q s s' hlen hr _ ihr ihps =>
    obtain ⟨hrq, hpairs⟩ := (assign_func_alike_iff hlen).1 hsolved
    obtain ⟨hresult, hparams⟩ := weight_parts_le qs (Nat.le_succ_of_le hw)
    exact ihps ⟨hr.satisfiedBy_iff.2 hrq, hpairs⟩ ⟨ihr hrq hresult, hparams⟩
  | pairsNil s => exact hw.1
  | pairsCons hd hs _ ihd ihs ihrest =>
    obtain ⟨hsat, hpairs⟩ := hsolved
    obtain ⟨hsw, hpw⟩ := hw
    rw [List.forall_mem_cons] at hpairs hpw
    have hd' := hd.satisfiedBy_iff.2 hpairs.1
    exact ihrest ⟨hs.satisfiedBy_iff.2 ⟨hsat, hd'⟩, hpairs.2⟩
      ⟨ihs ⟨hsat, hd'⟩ ⟨hsw, ihd hpairs.1 hpw.1⟩, hpw.2⟩
  | keep _ _ => exact hw.1
  | bind _ _ =>
    rintro ⟨m, u⟩ hb
    rcases Subst.mem_bindings_bind hb with ⟨rfl, rfl⟩ | ⟨v, hv, rfl⟩
    · exact hw.2
    · exact hw.1 (m, v) hv
  | @reconcile s n t old d s' hold _ _ hd _ ihd ihs =>
    obtain ⟨hsat, hnt⟩ := hsolved
    have hold' : θ n ≈ old.assign θ := hsat (n, old) (Subst.get?_eq_some_iff.1 hold)
    have hto : t.assign θ ≈ old.assign θ := Setoid.trans (Setoid.symm hnt) hold'
    refine ihs ⟨hsat, hd.satisfiedBy_iff.2 hto⟩ ⟨hw.1, ihd hto ?_⟩
    exact (Ty.weight_eq_of_alike hnt).symm.trans_le hw.2
  | bindingsNil s => exact hw.1
  | bindingsCons hs _ ihs ihrest =>
    obtain ⟨hsat, hbs⟩ := hsolved
    obtain ⟨hsw, hbw⟩ := hw
    rw [List.forall_mem_cons] at hbs hbw
    exact ihrest ⟨hs.satisfiedBy_iff.2 ⟨hsat, hbs.1⟩, hbs.2⟩
      ⟨ihs ⟨hsat, hbs.1⟩ ⟨hsw, hbw.1⟩, hbw.2⟩

/-- What unifying two types that are no variables leads to weighs less than they do. -/
lemma Yields.within_of_no_variables {a b : Ty} {d : Subst} (h : Yields (.unify a b) d)
    (ha : a.varName? = none) (hb : b.varName? = none) (hab : a.assign θ ≈ b.assign θ)
    (hw : (a.assign θ).weight ≤ w + 1) : d.Within θ w := by
  cases h with
  | varLeft n t => simp [Ty.varName?] at ha
  | varRight n _ => simp [Ty.varName?] at hb
  | constant _ _ => exact Subst.within_empty
  | func hlen hr hps =>
    obtain ⟨hrq, hpairs⟩ := (assign_func_alike_iff hlen).1 hab
    obtain ⟨hresult, hparams⟩ := weight_parts_le _ hw
    exact hps.within ⟨hr.satisfiedBy_iff.2 hrq, hpairs⟩ ⟨hr.within hrq hresult, hparams⟩

/-! ## Types that a solution makes alike -/

namespace Ty

variable {a b : Ty}

/-- Only a function or a variable can come to be alike to a function. -/
lemma exists_func_of_alike {ps : List Ty} {r : Ty} (hb : b.varName? = none)
    (h : (func ps r).assign θ ≈ b.assign θ) :
    ∃ qs q, b = func qs q ∧ ps.length = qs.length := by
  rw [assign_func] at h
  cases b with
  | func qs q =>
    rw [assign_func, alike_func] at h
    have hlen := h.1.length_eq
    rw [List.length_map, List.length_map] at hlen
    exact ⟨qs, q, rfl, hlen⟩
  | var n => simp [varName?] at hb
  | object fs =>
    rw [alike_iff] at h
    simp at h
  | _ =>
    rw [alike_iff] at h
    simp [assign, canonical] at h

/-- Only an equal constant or a variable can come to be alike to a constant that is not NaN. -/
lemma beq_of_alike_constant (ha : a.isConstant = true) (hnan : a.nanFree = true)
    (hb : b.varName? = none) (h : a.assign θ ≈ b.assign θ) : (a == b) = true := by
  have hconst : b.isConstant = true := by
    have hcanonical := isConstant_canonical ha
    rw [assign_of_isConstant ha, alike_iff] at h
    rw [h] at hcanonical
    cases b with
    | var n => cases hb
    | func qs q => simp [isConstant] at hcanonical
    | object fs => simp [isConstant] at hcanonical
    | _ => rfl
  rw [assign_of_isConstant ha, assign_of_isConstant hconst] at h
  exact beq_iff_alike.2 ⟨hnan, h⟩

end Ty

/-! ## What is kept along the way -/

/-- No object and no NaN literal occurs in the type. -/
def Ty.Plain (t : Ty) : Prop := t.objectFree = true ∧ t.nanFree = true

lemma Ty.hereditary_plain : Ty.Hereditary Ty.Plain := hereditary_objectFree.and hereditary_nanFree

lemma Ty.plain_var (n : Name) : (var n).Plain := ⟨rfl, rfl⟩

/-- A substitution in resolved form that a solution satisfies and that has no objects and no NaN
literals. -/
structure Subst.Admits (s : Subst) (θ : Assignment) : Prop where
  idempotent : s.Idempotent
  satisfied : s.SatisfiedBy θ
  plain : s.All Ty.Plain

lemma Subst.admits_empty : empty.Admits θ :=
  ⟨idempotent_empty, satisfiedBy_empty, by simp [All, empty]⟩

lemma Yields.admits {task : Task} (h : Yields task r) (hstart : task.start.Idempotent)
    (hsolved : task.SolvedBy θ) (hplain : task.All Ty.Plain) : r.Admits θ where
  idempotent := hstart.bindSteps h.bindSteps (h.satisfiedBy_iff.2 hsolved).acyclic
  satisfied := h.satisfiedBy_iff.2 hsolved
  plain := h.all Ty.hereditary_plain hplain

lemma Subst.Admits.unresolved (h : s.Admits θ) {k : Name} (hn : s.get? n = some (.var k)) :
    s.Unresolved k :=
  idempotent_iff_unresolved.1 h.idempotent (n, .var k) (get?_eq_some_iff.1 hn) k (by simp)

/-! ## Adding one binding -/

/-- Two types can be unified and the answer can be added to a substitution. -/
def Merges (s : Subst) (t u : Ty) : Prop :=
  ∃ d r, Yields (.unify t u) d ∧ Yields (.extendAll s d.bindings) r

/-- A binding can be added if its type can be merged with one that the name has. -/
lemma exists_extend_of_merges
    (h : ∀ old, s.get? n = some old → old ≠ .var n → Merges s t old) :
    ∃ r, Yields (.extend s n t) r := by
  cases hget : s.get? n with
  | none =>
    exact ⟨_, .bind (Subst.unresolved_iff.2 (.inl hget)) (by simp [hget])⟩
  | some old =>
    cases heq : old == t with
    | true => exact ⟨s, .keep hget heq⟩
    | false =>
      by_cases hself : old = .var n
      · subst hself
        refine ⟨_, .bind (Subst.unresolved_iff.2 (.inr hget)) fun old' hold' => ?_⟩
        rwa [← Option.some.inj (hget.symm.trans hold')]
      · obtain ⟨d, r, hd, hr⟩ := h old hget hself
        exact ⟨r, .reconcile hget heq hself hd hr⟩

lemma exists_extend_of_unresolved (hn : s.Unresolved n) : ∃ r, Yields (.extend s n t) r := by
  refine exists_extend_of_merges fun old hold hne => ?_
  rcases Subst.unresolved_iff.1 hn with hnone | hself
  · simp [hnone] at hold
  · exact absurd (Option.some.inj (hold.symm.trans hself)) hne

lemma merges_var_left (h : ∃ r, Yields (.extend s n t) r) : Merges s (.var n) t := by
  obtain ⟨r, hr⟩ := h
  exact ⟨.single n t, r, .varLeft n t, .bindingsCons hr (.bindingsNil r)⟩

lemma merges_var_right (ht : t.varName? = none) (h : ∃ r, Yields (.extend s n t) r) :
    Merges s t (.var n) := by
  obtain ⟨r, hr⟩ := h
  exact ⟨.single n t, r, .varRight n ht, .bindingsCons hr (.bindingsNil r)⟩

/-! ## The induction on the weight -/

/-- Equations that weigh at most `w` and have the solution `θ` are solved. -/
structure Completes (θ : Assignment) (w : Nat) : Prop where
  unify : ∀ {a b : Ty}, a.Plain → b.Plain → a.assign θ ≈ b.assign θ →
    (a.assign θ).weight ≤ w → ∃ d, Yields (.unify a b) d
  extendAll : ∀ {s : Subst} {bindings : List (Name × Ty)}, s.Admits θ →
    (∀ b ∈ bindings, b.2.Plain ∧ θ b.1 ≈ b.2.assign θ ∧ (θ b.1).weight ≤ w) →
    ∃ r, Yields (.extendAll s bindings) r

namespace Completes

variable {a b old u : Ty}

/-- The answer to an equation that weighs at most `w` can be added to a substitution. -/
lemma exists_compose (ih : Completes θ w) (hs : s.Admits θ) (ha : a.Plain) (hb : b.Plain)
    (hab : a.assign θ ≈ b.assign θ) {d : Subst} (hd : Yields (.unify a b) d)
    (hdw : d.Within θ w) : ∃ r, Yields (.extendAll s d.bindings) r ∧ r.Admits θ := by
  have hdsat : d.SatisfiedBy θ := hd.satisfiedBy_iff.2 hab
  have hdplain : d.All Ty.Plain := hd.all Ty.hereditary_plain ⟨ha, hb⟩
  obtain ⟨r, hr⟩ := ih.extendAll hs fun b hb => ⟨(hdplain b hb).2, hdsat b hb, hdw b hb⟩
  exact ⟨r, hr, hr.admits hs.idempotent ⟨hs.satisfied, hdsat⟩ ⟨hs.plain, hdplain⟩⟩

lemma unifyAll (ih : Completes θ w) {pairs : List (Ty × Ty)} (hs : s.Admits θ)
    (h : ∀ pq ∈ pairs, pq.1.Plain ∧ pq.2.Plain ∧ pq.1.assign θ ≈ pq.2.assign θ ∧
      (pq.1.assign θ).weight ≤ w) : ∃ r, Yields (.unifyAll s pairs) r := by
  induction pairs generalizing s with
  | nil => exact ⟨s, .pairsNil s⟩
  | cons pq rest ihrest =>
    obtain ⟨⟨ha, hb, hab, hw⟩, hrest⟩ := List.forall_mem_cons.1 h
    obtain ⟨d, hd⟩ := ih.unify ha hb hab hw
    obtain ⟨s', hs', hadmits⟩ := ih.exists_compose hs ha hb hab hd (hd.within hab hw)
    obtain ⟨r, hr⟩ := ihrest hadmits hrest
    exact ⟨r, .pairsCons hd hs' hr⟩

lemma unify_succ (ih : Completes θ w) (ha : a.Plain) (hb : b.Plain)
    (hab : a.assign θ ≈ b.assign θ) (hw : (a.assign θ).weight ≤ w + 1) :
    ∃ d, Yields (.unify a b) d := by
  cases hva : a.varName? with
  | some n =>
    obtain rfl := varName?_eq_some.1 hva
    exact ⟨_, .varLeft n b⟩
  | none =>
    cases hvb : b.varName? with
    | some n =>
      obtain rfl := varName?_eq_some.1 hvb
      exact ⟨_, .varRight n hva⟩
    | none =>
      cases a with
      | var n => simp [Ty.varName?] at hva
      | object fs => simp [Ty.Plain, Ty.objectFree, Ty.every, Ty.kind] at ha
      | func ps r =>
        obtain ⟨qs, q, rfl, hlen⟩ := Ty.exists_func_of_alike hvb hab
        obtain ⟨hrq, hpairs⟩ := (assign_func_alike_iff hlen).1 hab
        obtain ⟨hresult, hparams⟩ := weight_parts_le qs hw
        have hrplain := Ty.hereditary_plain.result ha
        have hqplain := Ty.hereditary_plain.result hb
        obtain ⟨s, hs⟩ := ih.unify hrplain hqplain hrq hresult
        have hadmits := hs.admits Subst.idempotent_empty hrq ⟨hrplain, hqplain⟩
        obtain ⟨r', hr'⟩ := ih.unifyAll hadmits fun pq hpq =>
          ⟨Ty.hereditary_plain.param ha (List.of_mem_zip hpq).1,
            Ty.hereditary_plain.param hb (List.of_mem_zip hpq).2, hpairs pq hpq, hparams pq hpq⟩
        exact ⟨r', .func hlen hs hr'⟩
      | _ => exact ⟨.empty, .constant rfl (Ty.beq_of_alike_constant rfl ha.2 hvb hab)⟩

/-- Types that are no variables can be merged: what comes of it weighs less. -/
lemma merges (ih : Completes θ w) (hs : s.Admits θ) (ha : a.Plain) (hb : b.Plain)
    (hva : a.varName? = none) (hvb : b.varName? = none) (hab : a.assign θ ≈ b.assign θ)
    (hw : (a.assign θ).weight ≤ w + 1) : Merges s a b := by
  obtain ⟨d, hd⟩ := ih.unify_succ ha hb hab hw
  have hdw : d.Within θ w := hd.within_of_no_variables hva hvb hab hw
  obtain ⟨r, hr, -⟩ := ih.exists_compose hs ha hb hab hd hdw
  exact ⟨d, r, hd, hr⟩

/-- A type can be merged with a bound one if, should it be a variable, the variable can be bound to
that one. -/
lemma merges_bound (ih : Completes θ w) (hs : s.Admits θ) (ht : t.Plain)
    (hold : s.get? n = some old) (hnt : θ n ≈ t.assign θ) (hw : (θ n).weight ≤ w + 1)
    (hvar : ∀ m, t = .var m → ∃ r, Yields (.extend s m old) r) : Merges s t old := by
  have hmem := Subst.get?_eq_some_iff.1 hold
  cases hvt : t.varName? with
  | some m =>
    rw [varName?_eq_some] at hvt
    exact hvt ▸ merges_var_left (hvar m hvt)
  | none =>
    cases hvo : old.varName? with
    | some k =>
      -- the bound type is a variable: in resolved form that variable is still free
      rw [varName?_eq_some] at hvo
      subst hvo
      exact merges_var_right hvt (exists_extend_of_unresolved (hs.unresolved hold))
    | none =>
      have hto : t.assign θ ≈ old.assign θ :=
        Setoid.trans (Setoid.symm hnt) (hs.satisfied (n, old) hmem)
      have hwt : (t.assign θ).weight ≤ w + 1 := (Ty.weight_eq_of_alike hnt).symm.trans_le hw
      exact ih.merges hs ht (hs.plain (n, old) hmem).2 hvt hvo hto hwt

/-- A type that is resolved already can be bound to a name. -/
lemma exists_extend_of_fixed (ih : Completes θ w) (hs : s.Admits θ) (hu : u.Plain)
    (hfixed : s.apply u = u) (hnu : θ n ≈ u.assign θ) (hw : (θ n).weight ≤ w + 1) :
    ∃ r, Yields (.extend s n u) r := by
  refine exists_extend_of_merges fun old hold _ => ih.merges_bound hs hu hold hnu hw ?_
  rintro m rfl
  rw [Subst.apply_eq_assign] at hfixed
  exact exists_extend_of_unresolved hfixed

lemma exists_extend (ih : Completes θ w) (hs : s.Admits θ) (ht : t.Plain)
    (hnt : θ n ≈ t.assign θ) (hw : (θ n).weight ≤ w + 1) : ∃ r, Yields (.extend s n t) r := by
  refine exists_extend_of_merges fun old hold _ => ih.merges_bound hs ht hold hnt hw ?_
  rintro m rfl
  have hmem := Subst.get?_eq_some_iff.1 hold
  have hmn : θ m ≈ θ n := Setoid.symm hnt
  have hmold : θ m ≈ old.assign θ := Setoid.trans hmn (hs.satisfied (n, old) hmem)
  have hwm : (θ m).weight ≤ w + 1 := (Ty.weight_eq_of_alike hmn).trans_le hw
  exact ih.exists_extend_of_fixed hs (hs.plain (n, old) hmem).2
    (Subst.idempotent_iff_fixes.1 hs.idempotent (n, old) hmem) hmold hwm

lemma extendAll_succ (ih : Completes θ w) {bindings : List (Name × Ty)} (hs : s.Admits θ)
    (h : ∀ b ∈ bindings, b.2.Plain ∧ θ b.1 ≈ b.2.assign θ ∧ (θ b.1).weight ≤ w + 1) :
    ∃ r, Yields (.extendAll s bindings) r := by
  induction bindings generalizing s with
  | nil => exact ⟨s, .bindingsNil s⟩
  | cons b rest ihrest =>
    obtain ⟨⟨ht, hnt, hw⟩, hrest⟩ := List.forall_mem_cons.1 h
    obtain ⟨s', hs'⟩ := ih.exists_extend hs ht hnt hw
    have hadmits := hs'.admits hs.idempotent ⟨hs.satisfied, hnt⟩ ⟨hs.plain, Ty.plain_var _, ht⟩
    obtain ⟨r, hr⟩ := ihrest hadmits hrest
    exact ⟨r, .bindingsCons hs' hr⟩

end Completes

/-- Equations with a solution are solved, whatever they weigh. -/
theorem completes (θ : Assignment) (w : Nat) : Completes θ w := by
  induction w with
  | zero =>
    constructor
    · intro a b _ _ _ hw
      exact absurd hw (Ty.weight_pos _).not_ge
    · intro s bindings _ h
      cases bindings with
      | nil => exact ⟨s, .bindingsNil s⟩
      | cons b rest => exact absurd (h b (by simp)).2.2 (Ty.weight_pos _).not_ge
  | succ w ih => exact ⟨ih.unify_succ, ih.extendAll_succ⟩

/-- Two types with a common instance are unified. -/
lemma exists_yields_unify {a b : Ty} (ha : a.Plain) (hb : b.Plain)
    (hab : a.assign θ ≈ b.assign θ) : ∃ d, Yields (.unify a b) d :=
  (completes θ _).unify ha hb hab le_rfl

/-- An equation that has a solution in common with a substitution can be added to it. -/
lemma Subst.Admits.exists_merge (hs : s.Admits θ) {a b : Ty} (ha : a.Plain) (hb : b.Plain)
    (hab : a.assign θ ≈ b.assign θ) :
    ∃ d r, Yields (.unify a b) d ∧ Yields (.extendAll s d.bindings) r ∧ r.Admits θ := by
  obtain ⟨d, hd⟩ := exists_yields_unify ha hb hab
  have hdw : d.Within θ (a.assign θ).weight := hd.within hab le_rfl
  obtain ⟨r, hr, hadmits⟩ := (completes θ _).exists_compose hs ha hb hab hd hdw
  exact ⟨d, r, hd, hr, hadmits⟩

end TypeSolver
