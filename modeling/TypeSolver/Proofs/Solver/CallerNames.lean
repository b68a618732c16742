import TypeSolver.Proofs.Solver.Hygiene
import TypeSolver.Proofs.Solver.Prefix

/-!
# What a call keeps of its caller's names

An instance lists the names that it introduced, and the bindings of those are dropped from what a
call contributes.  A name goes if it is on the list, and not because it looks like one that might
be, so that a caller's name which merely contains the marker should be safe.

It is, with one exception.  Fresh names are made without a look at the names in use.  Where a caller
uses the very name that the instance of its callee makes, the unifier takes the two for one, and the
caller's binding is dropped as if it were the instance's (`caller_name_dropped`).  That this is the
only way to lose a binding is `call_keeps_iff`: what is dropped are the names made of a
variable that the instance renames, the marker and the number of the instance, all three.
-/

namespace TypeSolver

variable {nested : Bool} {names : FreshNames} {n : Name} {t : Ty}

/-! ## The names of an instance -/

/-- The variables that an instance of a type renames. -/
def Ty.renamedNames (nested : Bool) : Ty → List Name
  | func ps r => slotNamesList nested ps ++ r.slotNames nested
  | _ => []

/-- What an instance introduces are the fresh names of the variables that it renames. -/
lemma Ty.isSynthetic_instantiate :
    (t.instantiate nested names).1.isSynthetic n = true ↔
      ∃ m ∈ t.renamedNames nested, n = names.freshName m := by
  rw [Instance.isSynthetic, List.contains_iff_mem]
  by_cases hfunc : t.kind = .function
  · obtain ⟨ps, r, rfl⟩ := kind_eq_function.1 hfunc
    simp only [instantiate_func, renamedNames, List.mem_map, eq_comm]
  · rw [instantiate_of_not_func hfunc]
    cases t <;> simp_all [renamedNames, kind]

/-- What is left of an answer when the names of an instance are dropped. -/
lemma Ty.get?_strip_instantiate {e : Subst} {u : Ty} :
    ((t.instantiate nested names).1.strip e).get? n = some u ↔
      e.get? n = some u ∧ ∀ m ∈ t.renamedNames nested, n ≠ names.freshName m := by
  rw [Subst.get?_eq_some_iff, Subst.get?_eq_some_iff, Instance.mem_strip, ← Bool.not_eq_true,
    isSynthetic_instantiate]
  push Not
  rfl

namespace Solver

/-! ## The supply of names -/

lemma supplyFrom_le (depth : Nat) (nested : Bool) (names : FreshNames) (s : Subst)
    (cs : List Constraint) :
    (supplyFrom depth nested names s cs).marker = names.marker ∧
      (supplyFrom depth nested names s cs).next ≤ names.next + cs.length := by
  induction cs generalizing names s with
  | nil => exact ⟨rfl, le_rfl⟩
  | cons c cs ih =>
    obtain ⟨hmarker, hnext⟩ := contribution_names_le depth nested names s c
    rw [List.length_cons]
    rcases supplyFrom_cons depth nested names s c cs with hlast | ⟨s', hrest⟩
    · rw [hlast]
      exact ⟨hmarker, by omega⟩
    · obtain ⟨hmarker', hnext'⟩ := ih (contribution depth nested names s c).2 s'
      rw [hrest]
      exact ⟨hmarker'.trans hmarker, by omega⟩

/-! ## A call in a batch -/

/-- What a call contributes within a batch: it has the bindings that unifying the instance with the
call gives, but for those of names that the instance introduced.  Such a name is made of a variable
that the instance renames, the marker, and a number no greater than the position of the call.  So a
name of the caller is kept if and only if it is none of these, whatever else it looks like; and if
no name of the call is marked, all are kept. -/
theorem call_keeps_iff {depth : Nat} {config : Config} {constraints : List Constraint}
    {k : Nat} {f q : Ty} {args : List Ty} {d : Subst}
    (h : (run depth config constraints).steps[k]? = some ⟨.apply f args q, .binds d⟩) :
    ∃ generation s e, generation ≤ k ∧
      supply depth config (constraints.take k) = ⟨config.syntheticMarker, generation⟩ ∧
      solve depth config (constraints.take k) = .ok s ∧
      unify depth ((s.apply f).instantiate config.freshenNestedFunctions
        ⟨config.syntheticMarker, generation⟩).1.type (.func args q) = .ok e ∧
      (∀ n t, d.get? n = some t ↔ e.get? n = some t ∧
        ∀ m ∈ (s.apply f).renamedNames config.freshenNestedFunctions,
          n ≠ m ++ config.syntheticMarker ++ toString generation) ∧
      ((∀ n, (Ty.func args q).mentions n = true →
          ¬ FreshNames.Marked config.syntheticMarker n) →
        ∀ n, (Ty.func args q).mentions n = true → d.get? n = e.get? n) := by
  obtain ⟨s, -, hs, hcall⟩ := getElem?_steps_runFrom.1 h
  obtain ⟨hmarker, hnext⟩ := supplyFrom_le depth config.freshenNestedFunctions
    (.start config.syntheticMarker) .empty (constraints.take k)
  rcases hnames : supply depth config (constraints.take k) with ⟨marker, generation⟩
  rw [← supply, hnames] at hmarker hnext hcall
  obtain rfl : marker = config.syntheticMarker := hmarker
  simp only [contribution, callContribution] at hcall
  obtain ⟨e, he, hd⟩ := map_eq_ok.1 hcall
  obtain rfl := Contribution.binds.inj hd
  refine ⟨generation, s, e, hnext.trans ?_, rfl, hs, he, fun n t => Ty.get?_strip_instantiate,
    fun hplain n hn => ?_⟩
  · exact (Nat.zero_add _).trans_le (List.length_take_le k constraints)
  · refine Option.ext fun t => Ty.get?_strip_instantiate.trans (and_iff_left fun m _ hm => ?_)
    exact hplain n hn ⟨m, generation, hm⟩

/-- Two calls of one function, with names that contain the marker. -/
def markedCallers : List Constraint :=
  [.equals (.var "f") (.func [.var "x"] (.var "x")),
    .apply (.var "f") [.number] (.var "x'7"), .apply (.var "f") [.var "x'7"] (.var "x'1")]

/-- The first call keeps the name that it has for its result; the second loses it, because its
instance makes the same name. -/
theorem call_keeps_iff_of_marked_names :
    (run 9 Preset.standard.config markedCallers).steps[1]? =
      some ⟨.apply (.var "f") [.number] (.var "x'7"), .binds (.single "x'7" .number)⟩ ∧
    (run 9 Preset.standard.config markedCallers).steps[2]? =
      some ⟨.apply (.var "f") [.var "x'7"] (.var "x'1"), .binds .empty⟩ ∧
    ∃ s e, solve 9 Preset.standard.config (markedCallers.take 2) = .ok s ∧
      unify 9 ((s.apply (.var "f")).instantiate false ⟨"'", 1⟩).1.type
        (.func [.var "x'7"] (.var "x'1")) = .ok e ∧
      ∀ n t, Subst.empty.get? n = some t ↔ e.get? n = some t ∧
        ∀ m ∈ (s.apply (.var "f")).renamedNames false, n ≠ m ++ "'" ++ toString 1 := by
  have hsecond : (run 9 Preset.standard.config markedCallers).steps[2]? =
      some ⟨.apply (.var "f") [.var "x'7"] (.var "x'1"), .binds .empty⟩ := rfl
  obtain ⟨generation, s, e, -, hnames, hs, he, hkept, -⟩ := call_keeps_iff hsecond
  obtain rfl : 1 = generation := congrArg FreshNames.next hnames
  exact ⟨rfl, hsecond, s, e, hs, he, hkept⟩

/-- The caller has a name that is the fresh name of `x` in the first instance.  Unifying the instance
with the call binds it, and what the call contributes does not. -/
theorem caller_name_dropped :
    (Ty.func [.number] (.var "x'0")).mentions "x'0" = true ∧
    unify 9 ((Ty.func [.var "x"] (.var "x")).instantiate false (.start "'")).1.type
        (.func [.number] (.var "x'0")) = .ok (.single "x'0" .number) ∧
    (run 9 Preset.standard.config
        [.apply (.func [.var "x"] (.var "x")) [.number] (.var "x'0")]).steps =
      [⟨.apply (.func [.var "x"] (.var "x")) [.number] (.var "x'0"), .binds .empty⟩] ∧
    solve 9 Preset.standard.config
        [.apply (.func [.var "x"] (.var "x")) [.number] (.var "x'0")] = .ok .empty :=
  ⟨by decide, rfl, rfl, rfl⟩

end Solver

end TypeSolver
