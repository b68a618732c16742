import TypeSolver.Proofs.Instance.Slots
import TypeSolver.Proofs.Solver.Pass
import TypeSolver.Proofs.Unify.Solutions

/-!
# What a call contributes

The instance of a callee is unified with the call as it is written, and then the bindings of the
names that the instance introduced are dropped.  Dropping bindings is harmless only if no dropped
name is left in a binding that is kept, and if whatever two kept names had to do with each other
through a dropped one has been written down without it.

## Dropped names are keys only

An instance is *guarded* when each of its slots either holds nothing but a fresh name or has no
fresh name in it.  Then a fresh name meets the call alone and on the left, so it is bound at once
and never looked at as a type again (`Instance.Guarded.binds`).  Without nested renaming every
instance is guarded.

## Dropping is projection

If the dropped names occur as keys only, the kept bindings are satisfied by exactly those
assignments that can be changed at the dropped names so as to satisfy all bindings
(`Subst.satisfiedBy_without`).  For an instance such a change is a choice of values for the
variables in slots, so what a call contributes says that the call is an instance of the callee: no
more and no less.
-/

namespace TypeSolver

variable {M : Name → Prop} {θ : Assignment} {s e : Subst} {names : FreshNames}

/-! ## Dropped names are keys only -/

/-- A substitution in which all names, bound or mentioned, satisfy a condition. -/
def Subst.Over (M : Name → Prop) (s : Subst) : Prop := s.Binds M (Ty.Over M)

namespace Instance

/-- All names of the instance satisfy a condition, but for fresh names that fill a slot. -/
def Guarded (M : Name → Prop) (i : Instance) : Prop :=
  i.type.Over M ∨ ∃ ps r, i.type = .func ps r ∧
    ∀ slot ∈ r :: ps, slot.MayLead (fun n => i.isSynthetic n = true) (Ty.Over M)

/-- Unifying a guarded instance with a call binds fresh names, but binds nothing to them. -/
lemma Guarded.binds {i : Instance} (hi : i.Guarded M) {args : List Ty} {q : Ty}
    (hcall : (Ty.func args q).Over M) (h : Yields (.unify i.type (.func args q)) e) :
    e.Binds (fun n => M n ∨ i.isSynthetic n = true) (Ty.Over M) := by
  have hP := Ty.hereditary_over M
  have hK : ∀ {t : Ty} {n : Name}, t.Over M → t.mentions n = true →
      M n ∨ i.isSynthetic n = true := fun ht hn => .inl (ht _ hn)
  rcases hi with hover | ⟨ps, r, htype, hslots⟩
  · exact h.binds hP hK ⟨.inl hover, hcall⟩
  · have hlead : ∀ slot ∈ r :: ps,
        slot.MayLead (fun n => M n ∨ i.isSynthetic n = true) (Ty.Over M) := by
      intro slot hslot
      rcases hslots slot hslot with hover | ⟨n, hn, hfresh⟩
      · exact .inl hover
      · exact .inr ⟨n, hn, .inr hfresh⟩
    rw [List.forall_mem_cons] at hlead
    rw [htype] at h
    cases h with
    | constant hconst _ => simp [Ty.isConstant] at hconst
    | func hlen hr hps =>
      -- slot by slot: only here does the instance stand on the left
      refine hps.binds hP hK ⟨hr.binds hP hK ⟨hlead.1, hP.result hcall⟩, fun pq hpq => ?_⟩
      obtain ⟨hp, hq⟩ := List.of_mem_zip hpq
      exact ⟨hlead.2 _ hp, hP.param hcall hq⟩

lemma mem_strip {i : Instance} {b : Name × Ty} :
    b ∈ (i.strip e).bindings ↔ b ∈ e.bindings ∧ i.isSynthetic b.1 = false := by
  simp [strip, Subst.without]

/-- What is left of the answer has no fresh name in it. -/
lemma Guarded.over_strip {i : Instance} (hi : i.Guarded M) {args : List Ty} {q : Ty}
    (hcall : (Ty.func args q).Over M) (h : Yields (.unify i.type (.func args q)) e) :
    (i.strip e).Over M := by
  intro b hb
  obtain ⟨hmem, hkept⟩ := mem_strip.1 hb
  obtain ⟨hname, htype⟩ := hi.binds hcall h b hmem
  refine ⟨hname.resolve_right ?_, htype⟩
  simp [hkept]

end Instance

/-- An instance is guarded if it renames nothing inside a slot that holds more than a variable, and
no name there is excluded.  The variables that fill a slot may be any. -/
lemma Ty.guarded_of_slots {nested : Bool} (names : FreshNames) {ps : List Ty} {r : Ty}
    (hslots : ∀ slot ∈ r :: ps, slot.varName? = none →
      slot.slotNames nested = [] ∧ slot.Over M) :
    ((func ps r).instantiate nested names).1.Guarded M := by
  refine .inr ⟨_, _, by rw [instantiate_func], fun slot' hslot' => ?_⟩
  rw [← List.map_cons (f := renameSlot names.freshName nested)] at hslot'
  obtain ⟨slot, hslot, rfl⟩ := List.mem_map.1 hslot'
  cases hvar : slot.varName? with
  | none =>
    obtain ⟨hnone, hover⟩ := hslots slot hslot hvar
    rw [renameSlot_eq_self hnone]
    exact .inl hover
  | some n =>
    obtain rfl := varName?_eq_some.1 hvar
    refine .inr ⟨names.freshName n, renameSlot_var, ?_⟩
    exact isSynthetic_func.2 ⟨_, hslot, n, by simp, rfl⟩

/-- An instance is guarded if it renames nothing inside its slots. -/
lemma Ty.guarded_of_innerSlotNames {nested : Bool} (names : FreshNames) {t : Ty} (ht : t.Over M)
    (hinner : t.innerSlotNames nested = []) : (t.instantiate nested names).1.Guarded M := by
  by_cases hfunc : t.kind = .function
  · obtain ⟨ps, r, rfl⟩ := Ty.kind_eq_function.1 hfunc
    rw [innerSlotNames, List.flatMap_eq_nil_iff] at hinner
    refine guarded_of_slots names fun slot hslot hvar => ⟨?_, over_func_iff.1 ht slot hslot⟩
    simpa [hvar] using hinner slot hslot
  · rw [instantiate_of_not_func hfunc]
    exact .inl ht

/-! ## Dropping is projection -/

/-- If no bound type mentions a dropped name, the assignments that satisfy the rest are those that
can be changed at the dropped names to satisfy all. -/
lemma Subst.satisfiedBy_without {drop : Name → Bool}
    (hfree : ∀ b ∈ s.bindings, b.2.Over fun n => drop n = false) :
    (s.without drop).SatisfiedBy θ ↔
      ∃ θ' : Assignment, (∀ n, drop n = false → θ' n = θ n) ∧ s.SatisfiedBy θ' := by
  have hmem : ∀ b, b ∈ (s.without drop).bindings ↔ b ∈ s.bindings ∧ drop b.1 = false := by
    simp [without]
  have hagree : ∀ {θ' : Assignment}, (∀ n, drop n = false → θ' n = θ n) →
      ∀ b ∈ s.bindings, b.2.assign θ' = b.2.assign θ := fun hθ' b hb =>
    Ty.assign_eq_assign_iff.2 fun n hn => hθ' n (hfree b hb n hn)
  constructor
  · intro h
    -- a dropped name takes the value that its own binding gives it
    let θ' : Assignment := fun n => if drop n then (s.toAssignment n).assign θ else θ n
    have hθ' : ∀ n, drop n = false → θ' n = θ n := fun n hn => by simp [θ', hn]
    refine ⟨θ', hθ', fun b hb => ?_⟩
    rw [hagree hθ' b hb]
    cases hdrop : drop b.1 with
    | true =>
      have hval : θ' b.1 = b.2.assign θ := by simp [θ', hdrop, toAssignment_of_mem hb]
      exact Ty.alike_of_eq hval
    | false =>
      rw [hθ' b.1 hdrop]
      exact h b ((hmem b).2 ⟨hb, hdrop⟩)
  · rintro ⟨θ', hθ', h⟩ b hb
    obtain ⟨hb, hdrop⟩ := (hmem b).1 hb
    rw [← hθ' b.1 hdrop, ← hagree hθ' b hb]
    exact h b hb

/-- Values for the variables in slots can be had from an assignment that differs from a given one at
fresh names only. -/
lemma Ty.exists_assignment_fill (names : FreshNames) (ps : List Ty) (r : Ty) (σ θ : Assignment) :
    ∃ θ' : Assignment,
      (∀ n, ((func ps r).instantiate false names).1.isSynthetic n = false → θ' n = θ n) ∧
      (func ps r).fill (fun n => θ' (names.freshName n)) θ = (func ps r).fill σ θ := by
  let i := ((func ps r).instantiate false names).1
  let θ' : Assignment := fun n =>
    if i.isSynthetic n then Function.extend names.freshName σ θ n else θ n
  refine ⟨θ', fun n hn => by simp [θ', i, hn], fill_congr fun slot hslot n hn => ?_⟩
  subst hn
  have hfresh : i.isSynthetic (names.freshName n) = true :=
    isSynthetic_func.2 ⟨_, hslot, n, by simp, rfl⟩
  -- one to one: a fresh name tells which variable it stands for
  simp only [θ', hfresh, if_true]
  exact names.freshName_injective.extend_apply σ θ n

/-- What is left of unifying an instance with a call says that the call is an instance of the
function, if neither mentions a name of the instance. -/
lemma Instance.satisfiedBy_strip_iff {ps args : List Ty} {r q : Ty}
    (hfunc : (Ty.func ps r).Over fun n =>
      ((Ty.func ps r).instantiate false names).1.isSynthetic n = false)
    (hcall : (Ty.func args q).Over fun n =>
      ((Ty.func ps r).instantiate false names).1.isSynthetic n = false)
    (h : Yields (.unify ((Ty.func ps r).instantiate false names).1.type (.func args q)) e) :
    (((Ty.func ps r).instantiate false names).1.strip e).SatisfiedBy θ ↔
      ∃ σ : Assignment, (Ty.func args q).assign θ ≈ (Ty.func ps r).fill σ θ := by
  set callee := ((Ty.func ps r).instantiate false names).1 with hcallee
  have hkeys := (Ty.guarded_of_innerSlotNames names hfunc (Ty.innerSlotNames_shallow _)).binds
    hcall h
  have hproject : (callee.strip e).SatisfiedBy θ ↔ ∃ θ' : Assignment,
      (∀ n, callee.isSynthetic n = false → θ' n = θ n) ∧ e.SatisfiedBy θ' :=
    Subst.satisfiedBy_without fun b hb => (hkeys b hb).2
  have hinstance : ∀ {θ' : Assignment}, (∀ n, callee.isSynthetic n = false → θ' n = θ n) →
      (e.SatisfiedBy θ' ↔
        (Ty.func ps r).fill (fun n => θ' (names.freshName n)) θ ≈ (Ty.func args q).assign θ) := by
    intro θ' hθ'
    rw [h.satisfiedBy_iff, Task.SolvedBy, hcallee, Ty.assign_instantiate hfunc hθ',
      Ty.assign_eq_assign_iff.2 fun n hn => hθ' n (hcall n hn)]
  rw [hproject]
  constructor
  · rintro ⟨θ', hθ', hsat⟩
    exact ⟨_, Setoid.symm ((hinstance hθ').1 hsat)⟩
  · rintro ⟨σ, hσ⟩
    obtain ⟨θ', hθ', hfill⟩ := Ty.exists_assignment_fill names ps r σ θ
    refine ⟨θ', hθ', (hinstance hθ').2 ?_⟩
    rw [hfill]
    exact Setoid.symm hσ

namespace Solver

/-- Without nested renaming, what a call of a function contributes is satisfied by exactly the
assignments under which the call is an instance of the callee: for some choice of values for the
variables that stand in slots of the callee, the call and the callee are alike.  The names of the
instance must not occur in the callee or in the call. -/
theorem satisfiedBy_call_iff {depth : Nat} {s d : Subst} {names names' : FreshNames} {f q : Ty}
    {args : List Ty}
    (hfunc : (s.apply f).kind = .function)
    (hfresh : ∀ n, ((s.apply f).instantiate false names).1.isSynthetic n = true →
      (s.apply f).mentions n = false ∧ (∀ a ∈ args, a.mentions n = false) ∧ q.mentions n = false)
    (h : contribution depth false names s (.apply f args q) = (.ok (.binds d), names'))
    (θ : Assignment) :
    d.SatisfiedBy θ ↔
      ∃ σ : Assignment, (Ty.func args q).assign θ ≈ (s.apply f).fill σ θ := by
  obtain ⟨ps, r, hpr⟩ := Ty.kind_eq_function.1 hfunc
  cases contributes_of_contribution h with
  | @apply _ _ _ callee _ e hcallee he =>
    rw [hpr] at hfresh hcallee ⊢
    obtain rfl : ((Ty.func ps r).instantiate false names).1 = callee := by rw [hcallee]
    refine Instance.satisfiedBy_strip_iff ?_ ?_ he
    · intro n hn
      rw [← Bool.not_eq_true]
      intro hsyn
      simp [(hfresh n hsyn).1] at hn
    · intro n hn
      rw [← Bool.not_eq_true]
      intro hsyn
      obtain ⟨-, hargs, hq⟩ := hfresh n hsyn
      rcases Ty.mentions_func.1 hn with ⟨a, ha, hna⟩ | hnq
      · simp [hargs a ha] at hna
      · simp [hq] at hnq

/-- Two arguments and the result meet in one variable of the callee, which also stands inside a
function, where it is not renamed. -/
theorem satisfiedBy_call_iff_of_shared_parameter :
    contribution 9 false (.start "'")
        (.single "f" (.func [.var "x", .var "x", .func [.var "y"] (.var "x")] (.var "x")))
        (.apply (.var "f") [.var "p", .var "q", .func [.number] (.var "z")] (.var "r")) =
      (.ok (.binds (.ofList [("p", .var "r"), ("q", .var "r"), ("x", .var "z"), ("y", .number)])),
        ⟨"'", 1⟩) ∧
    ((Subst.ofList [("p", .var "r"), ("q", .var "r"), ("x", .var "z"),
        ("y", .number)]).SatisfiedBy (fun _ => .number) ↔
      ∃ σ : Assignment,
        (Ty.func [.var "p", .var "q", .func [.number] (.var "z")] (.var "r")).assign
            (fun _ => .number) ≈
          (Ty.func [.var "x", .var "x", .func [.var "y"] (.var "x")] (.var "x")).fill σ
            fun _ => .number) := by
  have hcontribution : contribution 9 false (.start "'")
        (.single "f" (.func [.var "x", .var "x", .func [.var "y"] (.var "x")] (.var "x")))
        (.apply (.var "f") [.var "p", .var "q", .func [.number] (.var "z")] (.var "r")) =
      (.ok (.binds (.ofList [("p", .var "r"), ("q", .var "r"), ("x", .var "z"), ("y", .number)])),
        ⟨"'", 1⟩) := rfl
  refine ⟨hcontribution, satisfiedBy_call_iff rfl ?_ hcontribution _⟩
  intro n hn
  have hmem : n ∈ ["x'0", "x'0", "x'0"] := List.contains_iff_mem.1 hn
  obtain rfl : n = "x'0" := by simpa using hmem
  decide

end Solver

end TypeSolver
