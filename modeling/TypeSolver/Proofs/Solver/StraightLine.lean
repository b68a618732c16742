import TypeSolver.Proofs.Solver.Account
import TypeSolver.Proofs.Solver.Hygiene
import TypeSolver.Proofs.Solver.Order
import TypeSolver.Proofs.Unify.Ground

/-!
# Batches that are programs

A batch whose constraints come in the order of their dependencies can be read as a program without
branches: every constraint defines a name, by a type, by another name, by joining two strings or by
reading a field.  This file gives such programs an evaluator of their own, which knows nothing of
unification and of substitutions: it keeps the names that are defined, in the order of their
definitions, and looks names up.

Operands need not be defined.  A join or a field access that cannot be evaluated leaves its name
undefined, and the name may be defined later.  Only what is copied has to be there.

`solveWithTrace_program` says that the solver is an implementation of the evaluator: the solution
is the environment, and the trace says of each statement what the evaluator made of it.  The
invariant is that the bindings of the solution are the environment, in which all types are without
variables (`runFrom_program`); so that a new name is bound at the end, and no binding changes.
-/

namespace TypeSolver

namespace StraightLine

/-! ## Programs -/

/-- What a join or a field access works on. -/
inductive Operand where
  /-- a type without variables -/
  | type (t : Ty) (ground : t.Ground)
  /-- whatever a name is defined as -/
  | name (n : Name)

/-- The operand in a constraint. -/
def Operand.toTy : Operand → Ty
  | type t _ => t
  | name n => .var n

/-- A statement that defines a name. -/
inductive Statement where
  /-- by a type without variables -/
  | define (target : Name) (type : Ty) (ground : type.Ground)
  /-- as another name -/
  | copy (target source : Name)
  /-- by joining two strings -/
  | join (target : Name) (first second : Operand)
  /-- by reading a field of an object -/
  | access (target : Name) (object field : Operand)

namespace Statement

/-- The name that is defined. -/
def target : Statement → Name
  | define v _ _ => v
  | copy v _ => v
  | join v _ _ => v
  | access v _ _ => v

/-- The name that is copied, if one is. -/
def copied : Statement → Option Name
  | copy _ u => some u
  | _ => none

/-- The constraint that a statement stands for. -/
def constraint : Statement → Constraint
  | define v t _ => .equals (.var v) t
  | copy v u => .equals (.var v) (.var u)
  | join v x y => .concat x.toTy y.toTy (.var v)
  | access v x y => .index x.toTy y.toTy (.var v)

end Statement

/-! ## The evaluator -/

/-- The names that are defined and what they are defined as, in the order of their definitions. -/
abbrev Environment := List (Name × Ty)

variable (env : Environment)

/-- The value of an operand, if it has one. -/
def Operand.value? : Operand → Option Ty
  | type t _ => some t
  | name n => env.lookup n

/-- Two values joined, or why they cannot be. -/
def joined : Option Ty → Option Ty → Except SkipReason Ty
  | some (.stringLit a), some (.stringLit b) => .ok (.stringLit (a ++ b))
  | _, _ => .error .unresolvedOperand

/-- The type of a field of a value, or why there is none. -/
def accessed : Option Ty → Option Ty → Except SkipReason Ty
  | some (.object fields), some (.stringLit name) =>
    match fields.lookup name with
    | some t => .ok t
    | none => .error .missingField
  | some (.object _), _ => .error .unresolvedOperand
  | _, _ => .error .notAnObject

namespace Statement

/-- What a statement defines its name as, or why it leaves the name undefined. -/
def outcome : Statement → Except SkipReason Ty
  | define _ t _ => .ok t
  | copy _ u =>
    match env.lookup u with
    | some t => .ok t
    | none => .error .unresolvedOperand
  | join _ x y => joined (x.value? env) (y.value? env)
  | access _ x y => accessed (x.value? env) (y.value? env)

/-- The environment after a statement. -/
def step (statement : Statement) : Environment :=
  match statement.outcome env with
  | .ok t => env ++ [(statement.target, t)]
  | .error _ => env

/-- The statement defines a name that is not defined yet, and what it copies is defined. -/
def Ready (statement : Statement) : Prop :=
  statement.target ∉ env.map Prod.fst ∧ ∀ u ∈ statement.copied, u ∈ env.map Prod.fst

instance (statement : Statement) : Decidable (statement.Ready env) :=
  inferInstanceAs (Decidable (_ ∧ _))

/-- What a trace says of a statement at a position. -/
def report (statement : Statement) (index : Nat) : TraceStep :=
  match statement.outcome env with
  | .ok _ => ⟨index, statement.constraint.kind, .unified, [statement.target]⟩
  | .error reason => ⟨index, statement.constraint.kind, .skipped reason, []⟩

end Statement

/-- The environment after a program. -/
def evaluate (program : List Statement) : Environment :=
  program.foldl Statement.step env

/-- Every statement of a program is ready when it is its turn. -/
def Ordered : Environment → List Statement → Prop
  | _, [] => True
  | env, statement :: rest => statement.Ready env ∧ Ordered (statement.step env) rest

instance decidableOrdered : (env : Environment) → (program : List Statement) →
    Decidable (Ordered env program)
  | _, [] => isTrue trivial
  | env, statement :: rest =>
    have := decidableOrdered (statement.step env) rest
    inferInstanceAs (Decidable (_ ∧ _))

/-! ## One statement -/

variable {env} {s : Subst}

/-- In a solution an operand stands for its value, and for itself if it has none. -/
lemma apply_operand (x : Operand) :
    s.apply x.toTy = (x.value? s.bindings).getD x.toTy := by
  cases x with
  | type t ground => exact ground.apply_eq s
  | name n => rfl

lemma stringLit?_apply_operand (x : Operand) :
    (s.apply x.toTy).stringLit? = (x.value? s.bindings).bind Ty.stringLit? := by
  rw [apply_operand]
  cases x with
  | type t ground => rfl
  | name n =>
    cases hvalue : Operand.value? s.bindings (.name n) <;> rfl

/-- What a statement contributes: its name bound to its value, as far as it has one. -/
def contribute (v : Name) : Except SkipReason Ty → Contribution
  | .ok t => .binds (.single v t)
  | .error reason => .skips reason

lemma joined_eq (x y : Option Ty) : joined x y =
    match x.bind Ty.stringLit?, y.bind Ty.stringLit? with
    | some a, some b => .ok (.stringLit (a ++ b))
    | _, _ => .error .unresolvedOperand := by
  rcases x with _ | x
  · rfl
  · rcases y with _ | y
    · cases x <;> rfl
    · cases x <;> cases y <;> rfl

lemma accessed_eq (x y : Option Ty) : accessed x y =
    match x, y.bind Ty.stringLit? with
    | some (.object fields), some name =>
      match fields.lookup name with
      | some t => .ok t
      | none => .error .missingField
    | some (.object _), none => .error .unresolvedOperand
    | _, _ => .error .notAnObject := by
  rcases x with _ | x
  · rfl
  · rcases y with _ | y
    · cases x <;> rfl
    · cases x <;> cases y <;> rfl

variable (depth : Nat) (nested : Bool) (names : FreshNames) {v : Name} {t : Ty}

lemma joinContribution_operands (x y : Operand) :
    Solver.joinContribution (depth + 1) s x.toTy y.toTy (.var v) =
      .ok (contribute v (joined (x.value? s.bindings) (y.value? s.bindings))) := by
  rw [Solver.joinContribution, stringLit?_apply_operand, stringLit?_apply_operand, joined_eq]
  cases (x.value? s.bindings).bind Ty.stringLit? with
  | none => rfl
  | some a => cases (y.value? s.bindings).bind Ty.stringLit? <;> rfl

lemma accessContribution_operands (x y : Operand) :
    Solver.accessContribution (depth + 1) s x.toTy y.toTy (.var v) =
      .ok (contribute v (accessed (x.value? s.bindings) (y.value? s.bindings))) := by
  rw [Solver.accessContribution, stringLit?_apply_operand, apply_operand, accessed_eq]
  cases hx : x.value? s.bindings with
  | none =>
    -- only a name can be without a value, and a name is no object
    cases x with
    | type t ground => cases hx
    | name n => rfl
  | some t =>
    rw [Option.getD_some]
    cases t with
    | object fields =>
      cases (y.value? s.bindings).bind Ty.stringLit? with
      | none => rfl
      | some name => cases hfield : fields.lookup name <;> simp [hfield, contribute, unify, Except.map]
    | _ => rfl

/-! ## Values have no variables -/

lemma Operand.ground_value (henv : ∀ b ∈ env, b.2.Ground) {x : Operand}
    (h : x.value? env = some t) : t.Ground := by
  cases x with
  | type u ground => exact Option.some.inj h ▸ ground
  | name n => exact henv _ (Subst.mem_of_lookup h)

lemma exists_stringLit_of_joined {x y : Option Ty} (h : joined x y = .ok t) :
    ∃ a, t = .stringLit a := by
  unfold joined at h
  split at h
  · exact ⟨_, (Except.ok.inj h).symm⟩
  · cases h

lemma exists_field_of_accessed {x y : Option Ty} (h : accessed x y = .ok t) :
    ∃ fields name, x = some (.object fields) ∧ fields.lookup name = some t := by
  unfold accessed at h
  split at h
  · rename_i fields name
    split at h
    · rename_i u hfield
      obtain rfl := Except.ok.inj h
      exact ⟨fields, name, rfl, hfield⟩
    · cases h
  · cases h
  · cases h

lemma Statement.ground_outcome (henv : ∀ b ∈ env, b.2.Ground) {statement : Statement}
    (h : statement.outcome env = .ok t) : t.Ground := by
  cases statement with
  | define v u ground => exact Except.ok.inj h ▸ ground
  | copy v u =>
    simp only [outcome] at h
    split at h
    · rename_i w hlookup
      exact Except.ok.inj h ▸ henv _ (Subst.mem_of_lookup hlookup)
    · cases h
  | join v x y =>
    obtain ⟨a, rfl⟩ := exists_stringLit_of_joined h
    exact fun _ => rfl
  | access v x y =>
    obtain ⟨fields, name, hobject, hfield⟩ := exists_field_of_accessed h
    have hground := Operand.ground_value henv hobject
    rw [Ty.ground_iff_over] at hground ⊢
    exact hground.of_lookup hfield

/-- The environment after a statement has no variables either. -/
lemma Statement.ground_step (henv : ∀ b ∈ env, b.2.Ground) (statement : Statement) :
    ∀ b ∈ statement.step env, b.2.Ground := by
  unfold step
  cases h : statement.outcome env with
  | error reason => exact henv
  | ok t =>
    refine List.forall_mem_append.2 ⟨henv, ?_⟩
    exact List.forall_mem_singleton.2 (statement.ground_outcome henv h)

/-! ## A program -/

/-- A statement that has a value contributes its name, bound to something that stands for the
value. -/
lemma contribution_of_outcome_ok (hs : ∀ b ∈ s.bindings, b.2.Ground) {statement : Statement}
    (h : statement.outcome s.bindings = .ok t) :
    ∃ u, s.apply u = t ∧ Solver.contribution (depth + 1) nested names s statement.constraint =
      (.ok (.binds (.single statement.target u)), names) := by
  have hvalue : s.apply t = t := (statement.ground_outcome hs h).apply_eq s
  cases statement with
  | define v u ground =>
    obtain rfl := Except.ok.inj h
    exact ⟨_, hvalue, rfl⟩
  | copy v u =>
    -- the name is bound to the other name as it is written, and that is looked up when it is merged
    refine ⟨.var u, ?_, rfl⟩
    simp only [Statement.outcome] at h
    split at h
    · rename_i w hlookup
      obtain rfl := Except.ok.inj h
      rw [Subst.apply, Subst.get?, hlookup, Option.getD_some]
    · cases h
  | join v x y =>
    rw [Statement.outcome] at h
    refine ⟨t, hvalue, ?_⟩
    rw [Statement.constraint, Solver.contribution, joinContribution_operands, h]
    rfl
  | access v x y =>
    rw [Statement.outcome] at h
    refine ⟨t, hvalue, ?_⟩
    rw [Statement.constraint, Solver.contribution, accessContribution_operands, h]
    rfl

/-- A statement that is ready and has no value is skipped, for the same reason. -/
lemma contribution_of_outcome_error {statement : Statement} {reason : SkipReason}
    (hready : statement.Ready s.bindings) (h : statement.outcome s.bindings = .error reason) :
    Solver.contribution (depth + 1) nested names s statement.constraint =
      (.ok (.skips reason), names) := by
  cases statement with
  | define v u ground => cases h
  | copy v u =>
    have hdefined : u ∈ s.names := hready.2 u rfl
    simp only [Statement.outcome] at h
    split at h
    · cases h
    · rename_i hlookup
      exact absurd hdefined (Subst.get?_eq_none_iff.1 hlookup)
  | join v x y =>
    rw [Statement.outcome] at h
    rw [Statement.constraint, Solver.contribution, joinContribution_operands, h]
    rfl
  | access v x y =>
    rw [Statement.outcome] at h
    rw [Statement.constraint, Solver.contribution, accessContribution_operands, h]
    rfl

/-- The solver goes on after a statement as the evaluator does, and reports the same of it. -/
lemma runFrom_statement (hs : ∀ b ∈ s.bindings, b.2.Ground) {statement : Statement}
    (hready : statement.Ready s.bindings) (rest : List Constraint) :
    ∃ (s' : Subst) (step : Step), s'.bindings = statement.step s.bindings ∧
      (∀ index, step.account index = statement.report s.bindings index) ∧
      Solver.runFrom (depth + 2) nested names s (statement.constraint :: rest) =
        ⟨step :: (Solver.runFrom (depth + 2) nested names s' rest).steps,
          (Solver.runFrom (depth + 2) nested names s' rest).result⟩ := by
  cases houtcome : statement.outcome s.bindings with
  | ok t =>
    obtain ⟨u, rfl, hcontribution⟩ :=
      contribution_of_outcome_ok (depth + 1) nested names hs houtcome
    have hnew : s.get? statement.target = none := Subst.get?_eq_none_iff.2 hready.1
    refine ⟨s.bind statement.target u,
      ⟨statement.constraint, .binds (.single statement.target u)⟩, ?_, fun index => ?_, ?_⟩
    · rw [Subst.bindings_bind_of_new hnew fun b hb => hs b hb _, Statement.step, houtcome]
    · rw [Statement.report, houtcome]
      rfl
    · rw [Solver.runFrom, hcontribution]
      simp only [compose_single_of_new hnew]
  | error reason =>
    have hcontribution := contribution_of_outcome_error (depth + 1) nested names hready houtcome
    refine ⟨s, ⟨statement.constraint, .skips reason⟩, ?_, fun index => ?_, ?_⟩
    · rw [Statement.step, houtcome]
    · rw [Statement.report, houtcome]
      rfl
    · rw [Solver.runFrom, hcontribution]

/-- The solver goes through a program as the evaluator does. -/
theorem runFrom_program {program : List Statement} (hs : ∀ b ∈ s.bindings, b.2.Ground)
    (h : Ordered s.bindings program) (start : Nat) :
    ∃ (r : Subst) (steps : List Step),
      Solver.runFrom (depth + 2) nested names s (program.map Statement.constraint) =
        ⟨steps, .ok r⟩ ∧
      r.bindings = evaluate s.bindings program ∧
      steps.mapIdx (fun i step => step.account (i + start)) = program.mapIdx fun i statement =>
        statement.report (evaluate s.bindings (program.take i)) (i + start) := by
  induction program generalizing s start with
  | nil => exact ⟨s, [], rfl, rfl, rfl⟩
  | cons statement rest ih =>
    obtain ⟨hready, hrest⟩ := h
    obtain ⟨s', step, hbindings, haccount, hrun⟩ := runFrom_statement depth nested names hs hready
      (rest.map Statement.constraint)
    have hground := statement.ground_step hs
    rw [← hbindings] at hground hrest
    obtain ⟨r, steps, hrunRest, hr, hsteps⟩ := ih hground hrest (start + 1)
    refine ⟨r, step :: steps, ?_, ?_, ?_⟩
    · rw [List.map_cons, hrun, hrunRest]
    · rw [hr, hbindings]
      rfl
    · rw [List.mapIdx_cons, List.mapIdx_cons, haccount]
      simp only [Nat.add_right_comm _ 1 start, Nat.add_assoc, List.take_succ_cons]
      rw [hbindings] at hsteps
      exact congrArg _ hsteps

/-- A batch that is a program is solved, at every depth from two on.  The solution is what the
evaluator makes of the program: the same names in the order of their definitions, with the same
types.  The trace has a step for each statement, at its index: it was unified, and bound its name, if
it has a value in the environment that the statements before it make, and otherwise it was skipped,
for the reason that it has none. -/
theorem solveWithTrace_program (config : Config) {program : List Statement}
    (h : Ordered [] program) {depth : Nat} (hdepth : 2 ≤ depth) :
    ∃ s : Subst, s.bindings = evaluate [] program ∧
      Solver.solve depth config (program.map Statement.constraint) = .ok s ∧
      Solver.solveWithTrace depth config (program.map Statement.constraint) =
        .ok (s, ⟨program.mapIdx fun i statement =>
          statement.report (evaluate [] (program.take i)) i⟩) := by
  obtain ⟨depth, rfl⟩ := Nat.exists_eq_add_of_le' hdepth
  obtain ⟨s, steps, hrun, hs, hsteps⟩ := runFrom_program depth config.freshenNestedFunctions
    (.start config.syntheticMarker) (s := .empty) (by simp [Subst.empty]) h 0
  have hpass : Solver.run (depth + 2) config (program.map Statement.constraint) =
      ⟨steps, .ok s⟩ := hrun
  refine ⟨s, hs, ?_, ?_⟩
  · rw [Solver.solve, hpass]
  · rw [Solver.solveWithTrace, hpass]
    exact congrArg (fun accounts => Except.ok (s, Trace.mk accounts)) hsteps

/-- A join comes too early and is repeated, an object is read at a joined name, and two field
accesses fail for different reasons. -/
def fieldProgram : List Statement :=
  [.join "k" (.name "x") (.type (.stringLit "b") fun _ => rfl),
    .define "x" (.stringLit "a") fun _ => rfl,
    .copy "y" "x",
    .define "o" (.object [("ab", .func [.number] .string)]) fun _ => rfl,
    .join "k" (.name "y") (.type (.stringLit "b") fun _ => rfl),
    .access "f" (.name "o") (.name "k"),
    .access "g" (.name "f") (.name "k"),
    .access "g" (.name "o") (.name "x")]

/-- The program ends with five definitions, and the trace has the reason of each of its three
skips. -/
theorem solveWithTrace_program_of_fields :
    Ordered [] fieldProgram ∧
    evaluate [] fieldProgram =
      [("x", .stringLit "a"), ("y", .stringLit "a"),
        ("o", .object [("ab", .func [.number] .string)]), ("k", .stringLit "ab"),
        ("f", .func [.number] .string)] ∧
    ∃ s : Subst, s.bindings = evaluate [] fieldProgram ∧
      Solver.solveWithTrace 9 Preset.standard.config (fieldProgram.map Statement.constraint) =
        .ok (s, ⟨[⟨0, .concat, .skipped .unresolvedOperand, []⟩, ⟨1, .equals, .unified, ["x"]⟩,
          ⟨2, .equals, .unified, ["y"]⟩, ⟨3, .equals, .unified, ["o"]⟩,
          ⟨4, .concat, .unified, ["k"]⟩, ⟨5, .index, .unified, ["f"]⟩,
          ⟨6, .index, .skipped .notAnObject, []⟩, ⟨7, .index, .skipped .missingField, []⟩]⟩) := by
  have hordered : Ordered [] fieldProgram := by decide
  refine ⟨hordered, rfl, ?_⟩
  obtain ⟨s, hs, -, htrace⟩ :=
    solveWithTrace_program Preset.standard.config hordered (show 2 ≤ 9 by decide)
  exact ⟨s, hs, htrace⟩

end StraightLine

end TypeSolver
