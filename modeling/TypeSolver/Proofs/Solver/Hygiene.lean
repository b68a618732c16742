import TypeSolver.Proofs.Solver.Call

/-!
# The names of a solution

A solution should speak of the names of its batch.  The instances that calls make bring in names of
their own, and this file says how far those get.

## One constraint, and a pass

What a constraint contributes has the names of the constraint and of the solution so far, if the
instance that a call makes is guarded (`Contributes.over`); so a pass in which every instance is
guarded stays within the names of its batch (`Pass.over`).  Both are stated for any condition on
names, so that they serve for "occurs in the batch" as well as for weaker conditions.

## With and without nested renaming

Without nested renaming every instance is guarded, whatever the names of the batch look like, so no
fresh name is seen in a solution or in a trace (`over_of_shallow`).

With it, a fresh name can stand inside a function that fills a slot, and if the call has a variable
there, the variable is bound to the function, with the fresh name in it.  Only the bindings *of*
fresh names are dropped, so that name stays, and a later equation may even bind it
(`fresh_name_escapes`).  What remains true is `over_derived`: every name is one of the batch, or is
made from one of the batch by adding marks, with numbers below the size of the batch; and nothing
escapes if no callee has, when it is called, a function with variables of its own in a slot.
-/

namespace TypeSolver

variable {M : Name → Prop} {s d r : Subst}

/-! ## Names -/

/-- The types of a constraint. -/
def Constraint.types : Constraint → List Ty
  | .equals l r => [l, r]
  | .apply f args r => f :: r :: args
  | .concat a b r => [a, b, r]
  | .index o f r => [o, f, r]

/-- A name that occurs as a variable in a batch. -/
def OccursIn (constraints : List Constraint) (n : Name) : Prop :=
  ∃ c ∈ constraints, ∃ t ∈ c.types, t.mentions n = true

/-- All names that the steps of a trace list as bound satisfy a condition. -/
def Trace.Over (M : Name → Prop) (trace : Trace) : Prop :=
  ∀ step ∈ trace.steps, ∀ n ∈ step.bound, M n

namespace FreshNames

/-- A name as a supply makes them: another name, the marker and a number. -/
def Marked (marker : String) (n : Name) : Prop :=
  ∃ (base : Name) (generation : Nat), n = base ++ marker ++ toString generation

/-- A name made from a given one by marking it, as often as may be, with numbers below a limit. -/
inductive Derived (marker : String) (limit : Nat) (M : Name → Prop) : Name → Prop where
  | given {n : Name} (h : M n) : Derived marker limit M n
  | marked {base : Name} {generation : Nat} (h : Derived marker limit M base)
    (hlimit : generation < limit) :
    Derived marker limit M (base ++ marker ++ toString generation)

/-- A marked name has the characters of its marker. -/
lemma Marked.mem {marker : String} {n : Name} (h : Marked marker n) {c : Char}
    (hc : c ∈ marker.toList) : c ∈ n.toList := by
  obtain ⟨base, generation, rfl⟩ := h
  simp [String.toList_append, hc]

end FreshNames

/-! ## One constraint -/

lemma Subst.over_empty : empty.Over M := binds_empty

lemma Subst.Over.apply (hs : s.Over M) {t : Ty} (ht : t.Over M) : (s.apply t).Over M :=
  Binds.apply (Ty.hereditary_over M) hs ht

lemma Subst.Over.mono {N : Name → Prop} (hs : s.Over M) (h : ∀ n, M n → N n) : s.Over N :=
  fun b hb => ⟨h _ (hs b hb).1, fun n hn => h n ((hs b hb).2 n hn)⟩

lemma Yields.over {a b : Ty} (h : Yields (.unify a b) d) (ha : a.Over M) (hb : b.Over M) :
    d.Over M :=
  h.binds (Ty.hereditary_over M) (fun ht hn => ht _ hn) ⟨.inl ha, hb⟩

lemma Yields.over_extendAll (h : Yields (.extendAll s d.bindings) r) (hs : s.Over M)
    (hd : d.Over M) : r.Over M :=
  h.binds (Ty.hereditary_over M) (fun ht hn => ht _ hn) ⟨hs, hd⟩

lemma Ty.Over.of_lookup {fields : List (String × Ty)} {name : String} {t : Ty}
    (h : (object fields).Over M) (ht : fields.lookup name = some t) : t.Over M := by
  intro n hn
  exact h n (mentions_object.2 ⟨(name, t), Subst.mem_of_lookup ht, hn⟩)

namespace Solver

variable {nested : Bool} {names names' : FreshNames} {c : Constraint} {cs : List Constraint}
  {steps : List Step}

/-- The marker stays, and a constraint takes at most one generation of names, whether it contributes
or fails. -/
lemma contribution_names_le (depth : Nat) (nested : Bool) (names : FreshNames) (s : Subst)
    (c : Constraint) :
    (contribution depth nested names s c).2.marker = names.marker ∧
      (contribution depth nested names s c).2.next ≤ names.next + 1 := by
  cases c with
  | apply f args q => exact Ty.instantiate_names nested names (s.apply f)
  | _ => exact ⟨rfl, Nat.le_succ _⟩

lemma Contributes.names_le {k : Contribution} (h : Contributes nested names s c k names') :
    names'.marker = names.marker ∧ names'.next ≤ names.next + 1 := by
  obtain ⟨depth, hdepth⟩ := h.contribution_eventually
  have hnames := contribution_names_le depth nested names s c
  rwa [hdepth depth le_rfl] at hnames

/-- A contribution has the names of its constraint and of the solution it was made in, if the
instance that it makes is guarded. -/
lemma Contributes.over (h : Contributes nested names s c (.binds d) names') (hs : s.Over M)
    (hc : ∀ t ∈ c.types, t.Over M)
    (hcall : ∀ f args q, c = .apply f args q →
      ((s.apply f).instantiate nested names).1.Guarded M) : d.Over M := by
  cases h with
  | equals hd =>
    simp only [Constraint.types, List.forall_mem_cons] at hc
    obtain ⟨hl, hr, -⟩ := hc
    exact hd.over hl hr
  | @apply f q args callee _ e hcallee he =>
    simp only [Constraint.types, List.forall_mem_cons] at hc
    obtain ⟨-, hq, hargs⟩ := hc
    have hguarded := hcall f args q rfl
    rw [hcallee] at hguarded
    exact hguarded.over_strip (Ty.over_func_iff.2 (List.forall_mem_cons.2 ⟨hq, hargs⟩)) he
  | concat _ _ hd =>
    simp only [Constraint.types, List.forall_mem_cons] at hc
    obtain ⟨-, -, hr, -⟩ := hc
    exact hd.over hr (Ty.over_of_isConstant rfl)
  | @index o f q _ _ _ _ ho _ htype hd =>
    simp only [Constraint.types, List.forall_mem_cons] at hc
    obtain ⟨hobj, -, hq, -⟩ := hc
    have hobject := hs.apply hobj
    rw [ho] at hobject
    exact hd.over hq (hobject.of_lookup htype)

/-! ## A pass -/

/-- A pass stays within the names of its batch, and so does every contribution on the way, if the
instances that its calls make are guarded. -/
theorem Pass.over (h : Pass nested names s cs steps r) (hs : s.Over M)
    (hcs : ∀ c ∈ cs, ∀ t ∈ c.types, t.Over M)
    (hcalls : ∀ k f args q, cs[k]? = some (.apply f args q) →
      ∀ steps' s', Pass nested names s (cs.take k) steps' s' → (s'.apply f).Over M →
      ∀ supply : FreshNames, supply.marker = names.marker → supply.next ≤ names.next + k →
        ((s'.apply f).instantiate nested supply).1.Guarded M) :
    r.Over M ∧ ∀ step ∈ steps, ∀ d, step.contribution = .binds d → d.Over M := by
  -- the calls of the rest are one place further on in the whole batch, after one more step
  induction h with
  | nil names s => exact ⟨hs, by simp⟩
  | @skips names names' s r c rest steps reason hc _ ih =>
    rw [List.forall_mem_cons] at hcs
    obtain ⟨hmarker, hnext⟩ := hc.names_le
    obtain ⟨hr, hsteps⟩ := ih hs hcs.2 fun k f args q hk steps' s' hpass hover supply hsm hsn =>
      hcalls (k + 1) f args q hk _ s' (.skips hc hpass) hover supply (hsm.trans hmarker) (by omega)
    refine ⟨hr, List.forall_mem_cons.2 ⟨?_, hsteps⟩⟩
    intro d hd
    cases hd
  | @binds names names' s d s' r c rest steps hc hadd _ ih =>
    rw [List.forall_mem_cons] at hcs
    obtain ⟨hmarker, hnext⟩ := hc.names_le
    have hd : d.Over M := by
      refine hc.over hs hcs.1 fun f args q hcall => ?_
      subst hcall
      have hf : (s.apply f).Over M := hs.apply (hcs.1 f (by simp [Constraint.types]))
      exact hcalls 0 f args q rfl [] s (.nil names s) hf names rfl le_rfl
    obtain ⟨hr, hsteps⟩ := ih (hadd.over_extendAll hs hd) hcs.2
      fun k f args q hk steps' s'' hpass hover supply hsm hsn =>
        hcalls (k + 1) f args q hk _ s'' (.binds hc hadd hpass) hover supply (hsm.trans hmarker)
          (by omega)
    refine ⟨hr, List.forall_mem_cons.2 ⟨?_, hsteps⟩⟩
    rintro d' ⟨⟩
    exact hd

variable {depth : Nat} {config : Config} {constraints : List Constraint} {trace : Trace}

/-- A pass from the start is the answer of the solver at some depth. -/
lemma Pass.exists_solve
    (h : Pass config.freshenNestedFunctions (.start config.syntheticMarker) .empty cs steps r) :
    ∃ depth, solve depth config cs = .ok r := by
  obtain ⟨enough, hrun⟩ := h.runFrom_eventually
  exact ⟨enough, by rw [solve, run, hrun enough le_rfl]⟩

/-- If the instances of all callees, as they are resolved when they are called, are guarded, then a
solution and its trace have names of the batch only. -/
lemma over_of_solveWithTrace (h : solveWithTrace depth config constraints = .ok (s, trace))
    (hM : ∀ n, OccursIn constraints n → M n)
    (hcalls : ∀ k f args q, constraints[k]? = some (.apply f args q) →
      ∀ depth' s', solve depth' config (constraints.take k) = .ok s' → (s'.apply f).Over M →
      ∀ supply : FreshNames, supply.marker = config.syntheticMarker → supply.next ≤ k →
        ((s'.apply f).instantiate config.freshenNestedFunctions supply).1.Guarded M) :
    s.Over M ∧ trace.Over M := by
  obtain ⟨steps, hpass, htrace⟩ := pass_of_solveWithTrace h
  have hcs : ∀ c ∈ constraints, ∀ t ∈ c.types, t.Over M := fun c hc t ht n hn =>
    hM n ⟨c, hc, t, ht, hn⟩
  obtain ⟨hs, hsteps⟩ := hpass.over Subst.over_empty hcs
    fun k f args q hk steps' s' hprefix hover supply hmarker hnext => by
      obtain ⟨depth', hsolve⟩ := hprefix.exists_solve
      exact hcalls k f args q hk depth' s' hsolve hover supply hmarker
        (by simpa [FreshNames.start] using hnext)
  refine ⟨hs, ?_⟩
  intro account haccount n hn
  rw [htrace, List.mem_mapIdx] at haccount
  obtain ⟨i, hi, rfl⟩ := haccount
  unfold Step.account at hn
  split at hn
  · rename_i delta hdelta
    obtain ⟨b, hb, rfl⟩ := List.mem_map.1 hn
    exact (hsteps _ (List.getElem_mem hi) delta hdelta b hb).1
  · simp at hn

/-! ## Without nested renaming -/

/-- Without nested renaming, every name that a solution binds or mentions and every name that its
trace lists occurs in the batch, for any marker and any batch.  So if no name of the batch looks
like a fresh one, none of the solution or the trace does. -/
theorem over_of_shallow {depth : Nat} {config : Config} {constraints : List Constraint}
    {s : Subst} {trace : Trace} (hshallow : config.freshenNestedFunctions = false)
    (h : solveWithTrace depth config constraints = .ok (s, trace)) :
    (s.Over (OccursIn constraints) ∧ trace.Over (OccursIn constraints)) ∧
    ((∀ n, OccursIn constraints n → ¬ FreshNames.Marked config.syntheticMarker n) →
      s.Over (fun n => ¬ FreshNames.Marked config.syntheticMarker n) ∧
      trace.Over fun n => ¬ FreshNames.Marked config.syntheticMarker n) := by
  obtain ⟨hs, htrace⟩ : s.Over (OccursIn constraints) ∧ trace.Over (OccursIn constraints) := by
    refine over_of_solveWithTrace h (fun n hn => hn) ?_
    intro k f args q _ depth' s' _ hover supply _ _
    rw [hshallow]
    exact Ty.guarded_of_innerSlotNames supply hover (Ty.innerSlotNames_shallow _)
  refine ⟨⟨hs, htrace⟩, fun hplain => ⟨hs.mono hplain, fun step hstep n hn => ?_⟩⟩
  exact hplain n (htrace step hstep n hn)

/-- A function that takes another one, called twice. -/
theorem over_of_shallow_of_two_calls :
    ∃ s trace,
      solveWithTrace 9 Preset.standard.config
        [.equals (.var "f") (.func [.var "x", .func [.var "y"] (.var "x")] (.var "x")),
          .apply (.var "f") [.number, .var "g"] (.var "p"),
          .apply (.var "f") [.var "p", .var "h"] (.var "q")] = .ok (s, trace) ∧
      s.Over (OccursIn
        [.equals (.var "f") (.func [.var "x", .func [.var "y"] (.var "x")] (.var "x")),
          .apply (.var "f") [.number, .var "g"] (.var "p"),
          .apply (.var "f") [.var "p", .var "h"] (.var "q")]) ∧
      s.get? "q" = some .number ∧
        trace.steps.map TraceStep.bound = [["f"], ["p", "g"], ["p", "h"]] := by
  have hsolved : ∃ s trace,
      solveWithTrace 9 Preset.standard.config
        [.equals (.var "f") (.func [.var "x", .func [.var "y"] (.var "x")] (.var "x")),
          .apply (.var "f") [.number, .var "g"] (.var "p"),
          .apply (.var "f") [.var "p", .var "h"] (.var "q")] = .ok (s, trace) ∧
      s.get? "q" = some .number ∧
        trace.steps.map TraceStep.bound = [["f"], ["p", "g"], ["p", "h"]] :=
    ⟨_, _, rfl, rfl, rfl⟩
  obtain ⟨s, trace, h, hq, hbound⟩ := hsolved
  exact ⟨s, trace, h, (over_of_shallow rfl h).1.1, hq, hbound⟩

/-! ## With nested renaming -/

/-- The instance of a type over derived names is over derived names. -/
lemma guarded_of_derived {marker : String} {limit : Nat} {names : FreshNames} {t : Ty}
    (ht : t.Over (FreshNames.Derived marker limit M)) (hmarker : names.marker = marker)
    (hnext : names.next < limit) :
    (t.instantiate nested names).1.Guarded (FreshNames.Derived marker limit M) := by
  subst hmarker
  have hslot : ∀ slot : Ty, slot.Over (FreshNames.Derived names.marker limit M) →
      (slot.renameSlot names.freshName nested).Over (FreshNames.Derived names.marker limit M) :=
    fun slot hover =>
      hover.renameSlot fun n hn => .marked (hover n (Ty.mentions_of_mem_slotNames hn)) hnext
  left
  by_cases hfunc : t.kind = .function
  · obtain ⟨ps, r, rfl⟩ := Ty.kind_eq_function.1 hfunc
    rw [Ty.over_func_iff] at ht
    rw [Ty.instantiate_func, Ty.over_func_iff, ← List.map_cons, List.forall_mem_map]
    exact fun slot hmem => hslot slot (ht slot hmem)
  · rw [Ty.instantiate_of_not_func hfunc]
    exact ht

/-- Every name that a solution binds or mentions and every name that its trace lists is derived from
a name of the batch, with numbers below the size of the batch.  It is a name of the batch if, of all
callees as they are resolved when they are called, none has variables to rename inside its slots. -/
theorem over_derived {depth : Nat} {config : Config} {constraints : List Constraint} {s : Subst}
    {trace : Trace} (h : solveWithTrace depth config constraints = .ok (s, trace)) :
    (s.Over (FreshNames.Derived config.syntheticMarker constraints.length
        (OccursIn constraints)) ∧
      trace.Over (FreshNames.Derived config.syntheticMarker constraints.length
        (OccursIn constraints))) ∧
    ((∀ k f args q, constraints[k]? = some (.apply f args q) →
        ∀ depth' s', solve depth' config (constraints.take k) = .ok s' →
          (s'.apply f).innerSlotNames config.freshenNestedFunctions = []) →
      s.Over (OccursIn constraints) ∧ trace.Over (OccursIn constraints)) := by
  constructor
  · refine over_of_solveWithTrace h (fun n hn => .given hn) ?_
    intro k f args q hk depth' s' _ hover supply hmarker hnext
    obtain ⟨hlt, -⟩ := List.getElem?_eq_some_iff.1 hk
    exact guarded_of_derived hover hmarker (by omega)
  · intro hinner
    refine over_of_solveWithTrace h (fun n hn => hn) ?_
    intro k f args q hk depth' s' hsolve hover supply _ _
    exact Ty.guarded_of_innerSlotNames supply hover (hinner k f args q hk depth' s' hsolve)

/-- A function of a function is called with a name, which is then said to be a function. -/
def escapingBatch : List Constraint :=
  [.apply (.func [.func [.var "a"] (.var "b")] .number) [.var "g"] .number,
    .equals (.var "g") (.func [.number] .string)]

lemma eq_of_occursIn_escapingBatch {n : Name} (h : OccursIn escapingBatch n) :
    n = "a" ∨ n = "b" ∨ n = "g" := by
  obtain ⟨c, hc, t, ht, hn⟩ := h
  simp only [escapingBatch, List.mem_cons, List.not_mem_nil, or_false] at hc
  rcases hc with rfl | rfl <;> simp only [Constraint.types, List.mem_cons, List.not_mem_nil,
    or_false] at ht
  · rcases ht with rfl | rfl | rfl
    · have hab : "a" = n ∨ "b" = n := by simpa [Ty.mentions, Ty.mentionsList] using hn
      rcases hab with rfl | rfl <;> simp
    · simp [Ty.mentions] at hn
    · rw [Ty.mentions_var] at hn
      simp [← hn]
  · rcases ht with rfl | rfl
    · rw [Ty.mentions_var] at hn
      simp [← hn]
    · simp [Ty.mentions, Ty.mentionsList] at hn

/-- No name of the batch is marked, and yet its solution binds two marked names that do not occur in
the batch. -/
theorem fresh_name_escapes :
    (Config.mk "'" true false 1000000).validate = .ok () ∧
    (∀ n, OccursIn escapingBatch n → ¬ FreshNames.Marked "'" n) ∧
    solve 9 (Config.mk "'" true false 1000000) escapingBatch =
      .ok (.ofList [("g", .func [.number] .string), ("b'0", .string), ("a'0", .number)]) ∧
    ¬ OccursIn escapingBatch "b'0" ∧ ¬ OccursIn escapingBatch "a'0" := by
  refine ⟨by decide, ?_, rfl, ?_, ?_⟩
  · intro n hn hmarked
    have hmem := hmarked.mem (c := '\'') (by decide)
    rcases eq_of_occursIn_escapingBatch hn with rfl | rfl | rfl <;> revert hmem <;> decide
  · intro h
    have hname := eq_of_occursIn_escapingBatch h
    revert hname
    decide
  · intro h
    have hname := eq_of_occursIn_escapingBatch h
    revert hname
    decide

/-- The same batch, and one whose callee has no function in a slot. -/
theorem over_derived_of_escaping_names :
    (∃ s trace,
      solveWithTrace 9 (Config.mk "'" true false 1000000) escapingBatch = .ok (s, trace) ∧
      s.names = ["g", "b'0", "a'0"] ∧
      s.Over (FreshNames.Derived "'" 2 (OccursIn escapingBatch))) ∧
    ∃ s trace,
      solveWithTrace 9 (Config.mk "'" true false 1000000)
        [.apply (.func [.var "x"] (.var "x")) [.number] (.var "r")] = .ok (s, trace) ∧
      s.names = ["r"] ∧
      s.Over (OccursIn [.apply (.func [.var "x"] (.var "x")) [.number] (.var "r")]) := by
  constructor
  · have hsolved : ∃ s trace,
        solveWithTrace 9 (Config.mk "'" true false 1000000) escapingBatch = .ok (s, trace) ∧
        s.names = ["g", "b'0", "a'0"] := ⟨_, _, rfl, rfl⟩
    obtain ⟨s, trace, h, hnames⟩ := hsolved
    exact ⟨s, trace, h, hnames, (over_derived h).1.1⟩
  · have hsolved : ∃ s trace,
        solveWithTrace 9 (Config.mk "'" true false 1000000)
          [.apply (.func [.var "x"] (.var "x")) [.number] (.var "r")] = .ok (s, trace) ∧
        s.names = ["r"] := ⟨_, _, rfl, rfl⟩
    obtain ⟨s, trace, h, hnames⟩ := hsolved
    refine ⟨s, trace, h, hnames, ((over_derived h).2 ?_).1⟩
    intro k f args q hk depth' s' hsolve
    cases k with
    | zero =>
      obtain rfl : Subst.empty = s' := Except.ok.inj hsolve
      obtain ⟨rfl, -, -⟩ := Constraint.apply.inj (Option.some.inj hk)
      rfl
    | succ k => simp at hk

end Solver

end TypeSolver
