import Mathlib.Data.Finite.Sum
import Mathlib.Logic.Equiv.Fintype
import TypeSolver.Proofs.Solver.Hygiene
import TypeSolver.Proofs.Unify.Renaming

/-!
# The solver does not look at names

Renaming the variables of a batch, one to one, renames the solution and the trace, and changing the
marker changes nothing at all, as long as no name of either batch is one that its instances could
make (`solveWithTrace_rename`).

## Two runs in step

Outside calls a pass is made of operations that respect the renaming.  A call makes an instance, and
its fresh names are texts built from the variable, the marker and a number: those of the two runs
are not related by the renaming that relates the batches.  But a call involves finitely many names,
and on those a single one-to-one map does both: it renames the names of the batch as before, and
takes each fresh name of the one run to its partner in the other (`InStep.exists_embedding`).  It is
one to one because in neither run is a fresh name also a name of the batch.  The unifier respects
that map too, and once the fresh names are dropped, nothing of it is left but the renaming.

A failure may show fresh names inside the types that clash, so of a failure the two runs share the
kinds of the two types, which is all that is reported of it.
-/

namespace TypeSolver

variable {ρ π : Name ↪ Name} {M : Name → Prop} {s : Subst}

/-! ## Renaming batches, steps and traces -/

/-- What is reported of a failure: the kinds of two types that clash. -/
def Failure.kinds : Failure → Option (Kind × Kind)
  | .mismatch l r => some (l.kind, r.kind)
  | .exhausted => none

lemma Failure.kinds_rename (failure : Failure) : (failure.rename ρ).kinds = failure.kinds := by
  cases failure <;> simp [rename, kinds]

namespace Constraint

/-- The constraint with its variables renamed. -/
def rename (ρ : Name → Name) : Constraint → Constraint
  | equals l r => equals (l.rename ρ) (r.rename ρ)
  | apply f args r => apply (f.rename ρ) (args.map (Ty.rename ρ)) (r.rename ρ)
  | concat a b r => concat (a.rename ρ) (b.rename ρ) (r.rename ρ)
  | index o f r => index (o.rename ρ) (f.rename ρ) (r.rename ρ)

@[simp] lemma kind_rename {ρ : Name → Name} (c : Constraint) : (c.rename ρ).kind = c.kind := by
  cases c <;> rfl

lemma types_rename {ρ : Name → Name} (c : Constraint) :
    (c.rename ρ).types = c.types.map (Ty.rename ρ) := by
  cases c <;> simp [rename, types]

end Constraint

lemma occursIn_map_rename {ρ : Name → Name} {constraints : List Constraint} {k : Name} :
    OccursIn (constraints.map (Constraint.rename ρ)) k ↔
      ∃ n, OccursIn constraints n ∧ ρ n = k := by
  constructor
  · rintro ⟨c', hc', t', ht', hk⟩
    obtain ⟨c, hc, rfl⟩ := List.mem_map.1 hc'
    rw [Constraint.types_rename] at ht'
    obtain ⟨t, ht, rfl⟩ := List.mem_map.1 ht'
    obtain ⟨n, hn, rfl⟩ := Ty.mentions_rename.1 hk
    exact ⟨n, ⟨c, hc, t, ht, hn⟩, rfl⟩
  · rintro ⟨n, ⟨c, hc, t, ht, hn⟩, rfl⟩
    refine ⟨c.rename ρ, List.mem_map_of_mem hc, t.rename ρ, ?_, Ty.mentions_rename.2 ⟨n, hn, rfl⟩⟩
    rw [Constraint.types_rename]
    exact List.mem_map_of_mem ht

/-- The contribution with all its names renamed. -/
def Contribution.rename (ρ : Name ↪ Name) : Contribution → Contribution
  | .binds delta => .binds (delta.rename ρ)
  | .skips reason => .skips reason

/-- The step with all its names renamed. -/
def Step.rename (ρ : Name ↪ Name) (step : Step) : Step :=
  ⟨step.constraint.rename ρ, step.contribution.rename ρ⟩

/-- The account of a constraint with the names renamed that it lists as bound. -/
def TraceStep.rename (ρ : Name → Name) (step : TraceStep) : TraceStep :=
  { step with bound := step.bound.map ρ }

/-- The trace with the names renamed that its steps list as bound. -/
def Trace.rename (ρ : Name → Name) (trace : Trace) : Trace := ⟨trace.steps.map (TraceStep.rename ρ)⟩

lemma Step.account_rename (step : Step) (i : Nat) :
    (step.rename ρ).account i = (step.account i).rename ρ := by
  obtain ⟨c, delta | reason⟩ := step
  · simp [Step.rename, Contribution.rename, Step.account, TraceStep.rename, Subst.names_rename]
  · simp [Step.rename, Contribution.rename, Step.account, TraceStep.rename]

lemma Run.trace_rename {run run' : Run} (h : run'.steps = run.steps.map (Step.rename ρ)) :
    run'.trace = run.trace.rename ρ := by
  unfold Run.trace Trace.rename
  refine congrArg Trace.mk (List.ext_getElem (by simp [h]) fun i _ _ => ?_)
  simp [h, Step.account_rename]

/-! ## Two supplies in step -/

/-- Two supplies of names at the same generation, neither of which makes a name of its own batch.
The names of the one batch are images of those of the other. -/
structure InStep (ρ : Name ↪ Name) (M : Name → Prop) (names names' : FreshNames) : Prop where
  next_eq : names'.next = names.next
  plain : ∀ n, M n → ¬ FreshNames.Marked names.marker n
  plain_image : ∀ n, M n → ¬ FreshNames.Marked names'.marker (ρ n)

lemma FreshNames.marked_freshName (names : FreshNames) (n : Name) :
    Marked names.marker (names.freshName n) := ⟨n, names.next, rfl⟩

namespace InStep

variable {names names' : FreshNames}

lemma of_marker {names₁ names₁' : FreshNames} (h : InStep ρ M names names')
    (hnext : names₁'.next = names₁.next) (hmarker : names₁.marker = names.marker)
    (hmarker' : names₁'.marker = names'.marker) : InStep ρ M names₁ names₁' :=
  ⟨hnext, by rw [hmarker]; exact h.plain, by rw [hmarker']; exact h.plain_image⟩

/-- On the names of one type, the renaming and the partnership of fresh names are parts of a single
one-to-one map. -/
lemma exists_embedding (h : InStep ρ M names names') {t : Ty} (ht : t.Over M) :
    ∃ π : Name ↪ Name, ∀ n, t.mentions n = true →
      π n = ρ n ∧ π (names.freshName n) = names'.freshName (ρ n) := by
  let A := {n // t.mentions n = true}
  have : Finite A := t.finite_mentions
  let source : A ⊕ A → Name := Sum.elim (fun a => a.1) fun a => names.freshName a.1
  let target : A ⊕ A → Name := Sum.elim (fun a => ρ a.1) fun a => names'.freshName (ρ a.1)
  have hsource : Function.Injective source := by
    refine Subtype.val_injective.sumElim
      (names.freshName_injective.comp Subtype.val_injective) fun a b hab => ?_
    exact h.plain a.1 (ht a.1 a.2) (hab ▸ names.marked_freshName b.1)
  have htarget : Function.Injective target := by
    refine (ρ.injective.comp Subtype.val_injective).sumElim
      (names'.freshName_injective.comp (ρ.injective.comp Subtype.val_injective)) fun a b hab => ?_
    have hab : ρ a.1 = names'.freshName (ρ b.1) := hab
    exact h.plain_image a.1 (ht a.1 a.2) (hab ▸ names'.marked_freshName (ρ b.1))
  obtain ⟨σ, hσ⟩ := Equiv.Perm.exists_extending_pair source target hsource htarget
  exact ⟨σ.toEmbedding, fun n hn => ⟨hσ (.inl ⟨n, hn⟩), hσ (.inr ⟨n, hn⟩)⟩⟩

end InStep

/-! ## Instances -/

/-- An instance has the type of another with all names renamed, and introduces the renamed names. -/
structure Instance.Renames (π : Name ↪ Name) (i i' : Instance) : Prop where
  type_eq : i'.type = i.type.rename π
  isSynthetic_eq : ∀ n, i'.isSynthetic (π n) = i.isSynthetic n

lemma Instance.Renames.strip_eq {i i' : Instance} (h : i.Renames π i') (e : Subst) :
    i'.strip (e.rename π) = (i.strip e).rename π :=
  Subst.without_rename h.isSynthetic_eq

namespace Ty

variable {names names' : FreshNames} {t : Ty}

lemma slotNames_rename : (t.rename π).slotNames false = (t.slotNames false).map π := by
  cases t <;> simp [rename, assign, slotNames]

lemma renameSlot_rename (h : t.Over fun n => π (names.freshName n) = names'.freshName (π n)) :
    (t.rename π).renameSlot names'.freshName false =
      (t.renameSlot names.freshName false).rename π := by
  cases hvar : t.varName? with
  | some n =>
    obtain rfl := varName?_eq_some.1 hvar
    simp [h n]
  | none => rw [renameSlot_of_shallow hvar, renameSlot_of_shallow (by simp [hvar])]

/-- A map that takes fresh names to fresh names takes the instance of a type to the instance of its
image. -/
lemma instantiate_renames (h : t.Over fun n => π (names.freshName n) = names'.freshName (π n)) :
    (t.instantiate false names).1.Renames π ((t.rename π).instantiate false names').1 := by
  by_cases hfunc : t.kind = .function
  · obtain ⟨ps, r, rfl⟩ := kind_eq_function.1 hfunc
    rw [over_func_iff] at h
    constructor
    · rw [List.forall_mem_cons] at h
      rw [rename_func, instantiate_func, instantiate_func, rename_func, renameSlot_rename h.1,
        List.map_map, List.map_map]
      exact congrArg (func · _) (List.map_congr_left fun p hp => renameSlot_rename (h.2 p hp))
    · intro k
      rw [Bool.eq_iff_iff, rename_func, isSynthetic_func, isSynthetic_func, ← List.map_cons]
      simp only [List.mem_map, exists_exists_and_eq_and, slotNames_rename]
      refine exists_congr fun slot => and_congr_right fun hmem => ?_
      refine exists_congr fun n => and_congr_right fun hn => ?_
      rw [← h slot hmem n (mentions_of_mem_slotNames hn), π.injective.eq_iff]
  · rw [instantiate_of_not_func hfunc, instantiate_of_not_func (by simpa using hfunc)]
    exact ⟨rfl, fun _ => rfl⟩

lemma instantiate_inStep (h : InStep ρ M names names') (π : Name → Name) :
    InStep ρ M (t.instantiate false names).2 ((t.rename π).instantiate false names').2 := by
  refine h.of_marker ?_ (instantiate_names _ _ _).1 (instantiate_names _ _ _).1
  by_cases hfunc : t.kind = .function
  · obtain ⟨ps, r, rfl⟩ := kind_eq_function.1 hfunc
    rw [rename_func, instantiate_func, instantiate_func, h.next_eq]
  · rw [instantiate_of_not_func hfunc, instantiate_of_not_func (by simpa using hfunc), h.next_eq]

end Ty

namespace Solver

/-! ## One constraint -/

/-- Two outcomes that agree: the values correspond, or two failures are reported alike. -/
inductive Agree {α : Type} (φ : α → α) : Except Failure α → Except Failure α → Prop where
  | ok (a : α) : Agree φ (.ok a) (.ok (φ a))
  | error {failure failure' : Failure} (h : failure'.kinds = failure.kinds) :
    Agree φ (.error failure) (.error failure')

lemma agree_renameAnswer (x : Except Failure Subst) :
    Agree (Subst.rename ρ) x (renameAnswer ρ x) := by
  cases x with
  | ok s => exact .ok s
  | error failure => exact .error failure.kinds_rename

lemma Agree.map {α β : Type} {φ : α → α} {ψ : β → β} {x x' : Except Failure α} {f f' : α → β}
    (h : Agree φ x x') (hf : ∀ a, x = .ok a → f' (φ a) = ψ (f a)) :
    Agree ψ (x.map f) (x'.map f') := by
  cases h with
  | ok a =>
    show Agree ψ (.ok (f a)) (.ok (f' (φ a)))
    rw [hf a rfl]
    exact .ok (f a)
  | error h => exact .error h

lemma Agree.mapError_eq {α : Type} {φ : α → α} {x x' : Except Failure α} (h : Agree φ x x') :
    x'.mapError Failure.kinds = (x.map φ).mapError Failure.kinds := by
  cases h with
  | ok a => rfl
  | error h => exact congrArg Except.error h

variable {depth : Nat} {names names' : FreshNames}

lemma agree_unify (ρ : Name ↪ Name) (depth : Nat) (a b : Ty) :
    Agree (Contribution.rename ρ) ((unify depth a b).map .binds)
      ((unify depth (a.rename ρ) (b.rename ρ)).map .binds) := by
  rw [unify_rename]
  exact (agree_renameAnswer _).map fun _ _ => rfl

lemma agree_callContribution (h : InStep ρ M names names') (hs : s.Over M) {f q : Ty}
    {args : List Ty} (hc : ∀ t ∈ f :: q :: args, t.Over M) :
    Agree (Contribution.rename ρ) (callContribution depth false names s f args q).1
      (callContribution depth false names' (s.rename ρ) (f.rename ρ) (args.map (Ty.rename ρ))
        (q.rename ρ)).1 := by
  simp only [List.forall_mem_cons] at hc
  obtain ⟨hf, hq, hargs⟩ := hc
  -- one type with all the names that the call involves
  let involved : Ty := .func (s.apply f :: args) q
  have hover : involved.Over M := by
    simp only [involved, Ty.over_func_iff, List.forall_mem_cons]
    exact ⟨hq, hs.apply hf, hargs⟩
  obtain ⟨π, hπ⟩ := h.exists_embedding hover
  obtain ⟨hcallee, hcall⟩ : (s.apply f).Over (fun n => involved.mentions n = true) ∧
      (Ty.func args q).Over fun n => involved.mentions n = true := by
    have hall : involved.Over fun n => involved.mentions n = true := fun _ hn => hn
    simp only [involved, Ty.over_func_iff, List.forall_mem_cons] at hall ⊢
    exact ⟨hall.2.1, hall.1, hall.2.2⟩
  have hagree : ∀ t : Ty, t.Over (fun n => involved.mentions n = true) →
      t.rename ρ = t.rename π := fun t ht => Ty.rename_congr fun n hn => (hπ n (ht n hn)).1.symm
  have hinst : ((s.apply f).instantiate false names).1.Renames π
      (((s.apply f).rename π).instantiate false names').1 := by
    refine Ty.instantiate_renames fun n hn => ?_
    obtain ⟨hplain, hfresh⟩ := hπ n (hcallee n hn)
    rw [hfresh, hplain]
  simp only [callContribution]
  rw [Subst.apply_rename, hagree _ hcallee, hinst.type_eq, ← Ty.rename_func, hagree _ hcall,
    unify_rename]
  refine (agree_renameAnswer _).map fun e he => congrArg Contribution.binds ?_
  -- what is left of the answer has names of the call only, and on these the two maps agree
  have hguarded := Ty.guarded_of_innerSlotNames names hcallee (Ty.innerSlotNames_shallow _)
  rw [hinst.strip_eq]
  exact Subst.rename_congr (hguarded.over_strip hcall (yields_of_unify he)) fun n hn => (hπ n hn).1

lemma agree_joinContribution (s : Subst) (a b q : Ty) :
    Agree (Contribution.rename ρ) (joinContribution depth s a b q)
      (joinContribution depth (s.rename ρ) (a.rename ρ) (b.rename ρ) (q.rename ρ)) := by
  unfold joinContribution
  rw [Subst.apply_rename, Subst.apply_rename, Ty.stringLit?_rename, Ty.stringLit?_rename]
  split
  · rename_i x y _ _
    exact agree_unify ρ depth q (.stringLit (x ++ y))
  · exact .ok (Contribution.skips .unresolvedOperand)

lemma agree_accessContribution (s : Subst) (o f q : Ty) :
    Agree (Contribution.rename ρ) (accessContribution depth s o f q)
      (accessContribution depth (s.rename ρ) (o.rename ρ) (f.rename ρ) (q.rename ρ)) := by
  unfold accessContribution
  rw [Subst.apply_rename, Subst.apply_rename, Ty.stringLit?_rename]
  cases s.apply o with
  | object fields =>
    rw [Ty.rename_object]
    cases (s.apply f).stringLit? with
    | none => exact .ok (Contribution.skips .unresolvedOperand)
    | some name =>
      simp only [Subst.lookup_map_type]
      cases fields.lookup name with
      | none => exact .ok (Contribution.skips .missingField)
      | some type => exact agree_unify ρ depth q type
  | _ => exact .ok (Contribution.skips .notAnObject)

/-- What a constraint contributes, and the supply that it leaves, correspond in two runs in step. -/
lemma agree_contribution (depth : Nat) (h : InStep ρ M names names') (hs : s.Over M) {c : Constraint}
    (hc : ∀ t ∈ c.types, t.Over M) :
    Agree (Contribution.rename ρ) (contribution depth false names s c).1
        (contribution depth false names' (s.rename ρ) (c.rename ρ)).1 ∧
      InStep ρ M (contribution depth false names s c).2
        (contribution depth false names' (s.rename ρ) (c.rename ρ)).2 := by
  cases c with
  | equals l r => exact ⟨agree_unify ρ depth l r, h⟩
  | apply f args q =>
    refine ⟨agree_callContribution h hs hc, ?_⟩
    simp only [Constraint.rename, contribution, callContribution, Subst.apply_rename]
    exact Ty.instantiate_inStep h ρ
  | concat a b q => exact ⟨agree_joinContribution s a b q, h⟩
  | index o f q => exact ⟨agree_accessContribution s o f q, h⟩

/-! ## A batch -/

lemma over_of_contribution {c : Constraint} {d : Subst} {rest : FreshNames} (hs : s.Over M)
    (hc : ∀ t ∈ c.types, t.Over M)
    (h : contribution depth false names s c = (.ok (.binds d), rest)) : d.Over M := by
  refine (contributes_of_contribution h).over hs hc fun f args q hcall => ?_
  subst hcall
  exact Ty.guarded_of_innerSlotNames names (hs.apply (hc f (by simp [Constraint.types])))
    (Ty.innerSlotNames_shallow _)

/-- Two runs in step make corresponding steps and come to corresponding results. -/
lemma agree_runFrom (depth : Nat) (h : InStep ρ M names names') (hs : s.Over M) {cs : List Constraint}
    (hcs : ∀ c ∈ cs, ∀ t ∈ c.types, t.Over M) :
    (runFrom depth false names' (s.rename ρ) (cs.map (Constraint.rename ρ))).steps =
        (runFrom depth false names s cs).steps.map (Step.rename ρ) ∧
      Agree (Subst.rename ρ) (runFrom depth false names s cs).result
        (runFrom depth false names' (s.rename ρ) (cs.map (Constraint.rename ρ))).result := by
  induction cs generalizing names names' s with
  | nil => exact ⟨rfl, .ok s⟩
  | cons c rest ih =>
    rw [List.forall_mem_cons] at hcs
    obtain ⟨hagree, hstep⟩ := agree_contribution depth h hs hcs.1
    rcases hc : contribution depth false names s c with ⟨x, supply⟩
    rcases hc' : contribution depth false names' (s.rename ρ) (c.rename ρ) with ⟨x', supply'⟩
    rw [hc, hc'] at hagree hstep
    rw [List.map_cons]
    simp only [runFrom, hc, hc']
    cases hagree with
    | error hkinds => exact ⟨rfl, .error hkinds⟩
    | ok k =>
      cases k with
      | skips reason =>
        obtain ⟨hsteps, hresult⟩ := ih hstep hs hcs.2
        exact ⟨congrArg (_ :: ·) hsteps, hresult⟩
      | binds d =>
        have hd : d.Over M := over_of_contribution hs hcs.1 hc
        simp only [Contribution.rename, compose_rename]
        cases hcompose : compose depth s d with
        | error failure => exact ⟨rfl, .error failure.kinds_rename⟩
        | ok s' =>
          obtain ⟨hsteps, hresult⟩ :=
            ih hstep ((yields_of_compose hcompose).over_extendAll hs hd) hcs.2
          exact ⟨congrArg (_ :: ·) hsteps, hresult⟩

/-- Without nested renaming, neither the spelling of names nor the marker matters.  Rename the
variables of a batch one to one and change the marker: if no name of either batch is one that its
instances could make, the solution and the trace are those of the first batch, with the names
renamed and all else the same, the order of the bindings included; or both batches fail, at types of
the same kinds. -/
theorem solveWithTrace_rename {config config' : Config} {ρ : Name ↪ Name}
    {constraints : List Constraint}
    (hshallow : config.freshenNestedFunctions = false)
    (hshallow' : config'.freshenNestedFunctions = false)
    (hplain : ∀ n, OccursIn constraints n → ¬ FreshNames.Marked config.syntheticMarker n)
    (hplain' : ∀ n, OccursIn (constraints.map (Constraint.rename ρ)) n →
      ¬ FreshNames.Marked config'.syntheticMarker n)
    (depth : Nat) :
    (solveWithTrace depth config' (constraints.map (Constraint.rename ρ))).mapError
        Failure.kinds =
      ((solveWithTrace depth config constraints).map fun answer =>
        (answer.1.rename ρ, answer.2.rename ρ)).mapError Failure.kinds := by
  have hstep : InStep ρ (OccursIn constraints) (.start config.syntheticMarker)
      (.start config'.syntheticMarker) :=
    ⟨rfl, hplain, fun n hn => hplain' (ρ n) (occursIn_map_rename.2 ⟨n, hn, rfl⟩)⟩
  obtain ⟨hsteps, hresult⟩ := agree_runFrom depth hstep Subst.over_empty
    fun c hc t ht n hn => ⟨c, hc, t, ht, hn⟩
  refine Agree.mapError_eq ?_
  unfold solveWithTrace run
  rw [hshallow, hshallow']
  refine hresult.map fun s _ => ?_
  rw [← Run.trace_rename hsteps]
  rfl

/-- A function that is called twice. -/
def twoCalls : List Constraint :=
  [.equals (.var "f") (.func [.var "x"] (.var "x")), .apply (.var "f") [.number] (.var "p"),
    .apply (.var "f") [.var "p"] (.var "q")]

lemma eq_of_occursIn_twoCalls {n : Name} (h : OccursIn twoCalls n) :
    n = "f" ∨ n = "x" ∨ n = "p" ∨ n = "q" := by
  simp only [OccursIn, twoCalls, List.mem_cons, List.not_mem_nil, or_false, exists_eq_or_imp,
    exists_eq_left, Constraint.types, Ty.mentions, Ty.mentionsList, Bool.or_false, Bool.or_self,
    beq_iff_eq, Bool.false_eq_true] at h
  tauto

/-- The renamed batch is spelled with names that would be fresh ones under the marker of the first.
-/
theorem solveWithTrace_rename_of_marked_names :
    let ρ : Name ↪ Name := ⟨fun n => n ++ "'0", fun _ _ h => (String.append_left_inj _).1 h⟩
    (∀ n, OccursIn twoCalls n → ¬ FreshNames.Marked "'" n) ∧
    (∀ n, OccursIn (twoCalls.map (Constraint.rename ρ)) n → ¬ FreshNames.Marked "#" n) ∧
    (solveWithTrace 9 ⟨"#", false, false, 1000000⟩ (twoCalls.map (Constraint.rename ρ))).mapError
        Failure.kinds =
      ((solveWithTrace 9 ⟨"'", false, false, 1000000⟩ twoCalls).map fun answer =>
        (answer.1.rename ρ, answer.2.rename ρ)).mapError Failure.kinds ∧
    ∃ s trace, solveWithTrace 9 ⟨"'", false, false, 1000000⟩ twoCalls = .ok (s, trace) ∧
      s.names = ["f", "p", "q"] := by
  intro ρ
  have hplain : ∀ n, OccursIn twoCalls n → ¬ FreshNames.Marked "'" n := by
    intro n hn hmarked
    have hmem := hmarked.mem (c := '\'') (by decide)
    rcases eq_of_occursIn_twoCalls hn with rfl | rfl | rfl | rfl <;> revert hmem <;> decide
  have hplain' : ∀ n, OccursIn (twoCalls.map (Constraint.rename ρ)) n →
      ¬ FreshNames.Marked "#" n := by
    intro k hk hmarked
    have hmem := hmarked.mem (c := '#') (by decide)
    obtain ⟨n, hn, rfl⟩ := occursIn_map_rename.1 hk
    rcases eq_of_occursIn_twoCalls hn with rfl | rfl | rfl | rfl <;> revert hmem <;> decide
  exact ⟨hplain, hplain', solveWithTrace_rename rfl rfl hplain hplain' 9, _, _, rfl, rfl⟩

end Solver

end TypeSolver
