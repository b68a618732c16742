import TypeSolver.Proofs.Instance.Naming
import TypeSolver.Proofs.Solver.CallerNames

/-!
# Instances of one solve

Every call of a batch gets an instance of its callee, with names of its own.  That the names of two
calls differ rests on the supply: it only goes forward (`le_supplyFrom`), and an instance that makes
names takes a generation from it, so a later call finds a later generation
(`supply_lt_of_isSynthetic`).

Different generations give different names only if the marker is not all digits.  A configuration is
refused for an empty marker or one with white space, but not for digits, and with those a name can
be made twice.  `fresh_names_apart` has both sides.
-/

namespace TypeSolver

namespace Solver

variable {depth : Nat} {nested : Bool} {names : FreshNames} {s : Subst} {config : Config}
  {constraints : List Constraint} {j k : Nat} {i i' : Instance} {n : Name}

/-! ## The instance of a call -/

/-- The instance that the call at a position of a batch makes: of the callee, resolved by the
solution of what comes before, with the names that are left by then. -/
def instanceAt? (depth : Nat) (config : Config) (constraints : List Constraint) (k : Nat) :
    Option Instance :=
  match constraints[k]?, solve depth config (constraints.take k) with
  | some (.apply f _ _), .ok s =>
    some ((s.apply f).instantiate config.freshenNestedFunctions
      (supply depth config (constraints.take k))).1
  | _, _ => none

lemma instanceAt?_eq_some : instanceAt? depth config constraints k = some i ↔
    ∃ f args q s, constraints[k]? = some (.apply f args q) ∧
      solve depth config (constraints.take k) = .ok s ∧
      ((s.apply f).instantiate config.freshenNestedFunctions
        (supply depth config (constraints.take k))).1 = i := by
  unfold instanceAt?
  split
  · rename_i f args q s hc hs
    rw [hc, hs]
    simp
  · rename_i hnone
    refine iff_of_false (by simp) ?_
    rintro ⟨f, args, q, s, hc, hs, -⟩
    exact hnone f args q s hc hs

/-- A call contributes what its instance makes of it. -/
lemma getElem?_steps_call {f q : Ty} {args : List Ty} {d : Subst} :
    (run depth config constraints).steps[k]? = some ⟨.apply f args q, .binds d⟩ ↔
      constraints[k]? = some (.apply f args q) ∧
      ∃ i e, instanceAt? depth config constraints k = some i ∧
        unify depth i.type (.func args q) = .ok e ∧ i.strip e = d := by
  rw [run, getElem?_steps_runFrom]
  constructor
  · rintro ⟨s, hc, hs, hcall⟩
    obtain ⟨e, he, hd⟩ := map_eq_ok.1 hcall
    exact ⟨hc, _, e, instanceAt?_eq_some.2 ⟨f, args, q, s, hc, hs, rfl⟩, he,
      Contribution.binds.inj hd⟩
  · rintro ⟨hc, i, e, hi, he, hd⟩
    obtain ⟨f', args', q', s, hc', hs, rfl⟩ := instanceAt?_eq_some.1 hi
    obtain ⟨rfl, rfl, rfl⟩ := Constraint.apply.inj (Option.some.inj (hc'.symm.trans hc))
    exact ⟨s, hc, hs, map_eq_ok.2 ⟨e, he, congrArg Contribution.binds hd⟩⟩

/-! ## The supply goes forward -/

lemma le_contribution_names (depth : Nat) (nested : Bool) (names : FreshNames) (s : Subst)
    (c : Constraint) : names.next ≤ (contribution depth nested names s c).2.next := by
  cases c with
  | apply f args q => exact Ty.le_next_instantiate nested names (s.apply f)
  | _ => exact le_rfl

/-- What a constraint takes of the names is gone for those after it, if they only take more. -/
lemma contribution_names_le_supplyFrom {rest : List Constraint}
    (hrest : ∀ names s, names.next ≤ (supplyFrom depth nested names s rest).next)
    (names : FreshNames) (s : Subst) (c : Constraint) :
    (contribution depth nested names s c).2.next ≤
      (supplyFrom depth nested names s (c :: rest)).next := by
  rcases supplyFrom_cons depth nested names s c rest with hlast | ⟨s', hcons⟩
  · rw [hlast]
  · rw [hcons]
    exact hrest _ s'

lemma le_supplyFrom (cs : List Constraint) (names : FreshNames) (s : Subst) :
    names.next ≤ (supplyFrom depth nested names s cs).next := by
  induction cs generalizing names s with
  | nil => exact le_rfl
  | cons c cs ih =>
    exact (le_contribution_names depth nested names s c).trans
      (contribution_names_le_supplyFrom ih names s c)

lemma exists_take_eq_append {c : Constraint} (hjk : j < k) (hc : constraints[j]? = some c) :
    ∃ rest, constraints.take k = constraints.take j ++ c :: rest := by
  have hget : (constraints.take k)[j]? = some c := by rw [List.getElem?_take_of_lt hjk, hc]
  obtain ⟨hlt, rfl⟩ := List.getElem?_eq_some_iff.1 hget
  refine ⟨(constraints.take k).drop (j + 1), ?_⟩
  rw [← List.drop_eq_getElem_cons hlt]
  have hsplit := List.take_append_drop j (constraints.take k)
  rw [List.take_take, min_eq_left hjk.le] at hsplit
  exact hsplit.symm

/-- After a call whose instance introduces a name, the supply has gone on. -/
lemma supply_lt_of_isSynthetic (hjk : j < k) (hi : instanceAt? depth config constraints j = some i)
    (hn : i.isSynthetic n = true) : (supply depth config (constraints.take j)).next <
      (supply depth config (constraints.take k)).next := by
  obtain ⟨f, args, q, s, hc, hs, rfl⟩ := instanceAt?_eq_some.1 hi
  obtain ⟨rest, hrest⟩ := exists_take_eq_append hjk hc
  have htaken := Ty.next_lt_of_isSynthetic hn
  have hsupply : supply depth config (constraints.take k) = supplyFrom depth
      config.freshenNestedFunctions (supply depth config (constraints.take j)) s
      (.apply f args q :: rest) := by
    rw [supply, hrest]
    exact supplyFrom_append hs _
  rw [hsupply]
  exact htaken.trans_le
    (contribution_names_le_supplyFrom (le_supplyFrom rest) _ s (.apply f args q))

lemma marker_supply (depth : Nat) (config : Config) (constraints : List Constraint) :
    (supply depth config constraints).marker = config.syntheticMarker :=
  (supplyFrom_le depth config.freshenNestedFunctions (.start config.syntheticMarker) .empty
    constraints).1

/-- With a marker that is not all digits, a name that one call of a batch introduces is not
introduced by a later one. -/
lemma not_isSynthetic_of_lt (hmarker : ∃ c ∈ config.syntheticMarker.toList, c.isDigit = false)
    (hjk : j < k) (hi : instanceAt? depth config constraints j = some i)
    (hi' : instanceAt? depth config constraints k = some i') (hn : i.isSynthetic n = true) :
    i'.isSynthetic n = false := by
  have hlt := supply_lt_of_isSynthetic hjk hi hn
  obtain ⟨f, args, q, s, -, -, rfl⟩ := instanceAt?_eq_some.1 hi
  obtain ⟨f', args', q', s', -, -, rfl⟩ := instanceAt?_eq_some.1 hi'
  refine Ty.not_isSynthetic_of_next_ne ?_ ?_ hlt.ne hn
  · rwa [marker_supply]
  · rw [marker_supply, marker_supply]

end Solver

/-! ## Markers -/

lemma isBlank_of_isDigit {c : Char} (h : c.isDigit = true) : Text.isBlank c = false := by
  have hrange := toNat_of_isDigit h
  simp only [Text.isBlank, Text.blankRanges, List.any_cons, List.any_nil, Bool.or_false,
    Bool.or_eq_false_iff, Bool.and_eq_false_iff, decide_eq_false_iff_not]
  omega

/-- A marker of digits is accepted. -/
lemma validate_of_digits {marker : String} (hne : marker ≠ "")
    (hdigits : ∀ c ∈ marker.toList, c.isDigit = true) :
    ({ Preset.standard.config with syntheticMarker := marker } : Config).validate = .ok () := by
  have hblank : marker.toList.any Text.isBlank = false :=
    List.any_eq_false.2 fun c hc => by simp [isBlank_of_isDigit (hdigits c hc)]
  simp [Config.validate, hne, hblank, Preset.config, Config.maxConstraintsCeiling]

/-- When fresh names are told apart, and when not.  If the marker has a character that is no digit,
a fresh name determines the variable and the number that it is made of, and so no two instances of
one solve introduce a name in common.  A marker of digits only, if it has any and at most seventeen,
is accepted in a configuration, and with it every variable shares a fresh name with another, for
numbers that fit into 64 bits. -/
theorem fresh_names_apart :
    (∀ names : FreshNames, (∃ c ∈ names.marker.toList, c.isDigit = false) →
      ∀ (m n : Name) (g h : Nat), names.nameFor m g = names.nameFor n h → m = n ∧ g = h) ∧
    (∀ (depth : Nat) (config : Config) (constraints : List Constraint),
      (∃ c ∈ config.syntheticMarker.toList, c.isDigit = false) →
      ∀ j k i i', j ≠ k → Solver.instanceAt? depth config constraints j = some i →
        Solver.instanceAt? depth config constraints k = some i' →
        ∀ n, ¬ (i.isSynthetic n = true ∧ i'.isSynthetic n = true)) ∧
    ∀ marker : String, marker ≠ "" → (∀ c ∈ marker.toList, c.isDigit = true) →
      marker.length ≤ 17 →
      ({ Preset.standard.config with syntheticMarker := marker } : Config).validate = .ok () ∧
      ∀ m : Name, ∃ (n : Name) (g h : Nat), m ≠ n ∧ g < UInt64.size ∧ h < UInt64.size ∧
        (FreshNames.start marker).nameFor m g = (FreshNames.start marker).nameFor n h := by
  refine ⟨?_, ?_, ?_⟩
  · intro names hmarker m n g h heq
    exact (FreshNames.nameFor_eq_iff hmarker).1 heq
  · rintro depth config constraints hmarker j k i i' hjk hi hi' n ⟨hn, hn'⟩
    rcases Nat.lt_or_gt_of_ne hjk with hlt | hlt
    · rw [Solver.not_isSynthetic_of_lt hmarker hlt hi hi' hn] at hn'
      cases hn'
    · rw [Solver.not_isSynthetic_of_lt hmarker hlt hi' hi hn'] at hn
      cases hn
  · intro marker hne hdigits hshort
    refine ⟨validate_of_digits hne hdigits, fun m => ?_⟩
    obtain ⟨g, hg, hcollision⟩ := FreshNames.exists_collision (.start marker) hdigits hshort
    refine ⟨m ++ marker ++ "1", g, 0, fun heq => ?_, hg, by decide, hcollision m⟩
    have hlen := congrArg String.length heq
    rw [String.length_append, String.length_append] at hlen
    have hone : "1".length = 1 := rfl
    omega

/-- A function and two calls of it. -/
def twoInstances : List Constraint :=
  [.equals (.var "f") (.func [.var "x"] (.var "x")), .apply (.var "f") [.number] (.var "a"),
    .apply (.var "f") [.string] (.var "b")]

/-- A marker that ends in a digit keeps the calls apart; one of zeros is accepted and does not keep
a variable from sharing a name. -/
theorem fresh_names_apart_of_digits_in_marker :
    (∃ c ∈ "#1".toList, c.isDigit = false) ∧
    Solver.instanceAt? 9 ⟨"#1", false, false, 10⟩ twoInstances 1 =
      some ⟨.func [.var "x#10"] (.var "x#10"), ["x#10", "x#10"]⟩ ∧
    Solver.instanceAt? 9 ⟨"#1", false, false, 10⟩ twoInstances 2 =
      some ⟨.func [.var "x#11"] (.var "x#11"), ["x#11", "x#11"]⟩ ∧
    (∀ n, ¬ (
      (⟨.func [.var "x#10"] (.var "x#10"), ["x#10", "x#10"]⟩ : Instance).isSynthetic n = true ∧
      (⟨.func [.var "x#11"] (.var "x#11"), ["x#11", "x#11"]⟩ : Instance).isSynthetic n = true)) ∧
    (∀ c ∈ "00".toList, c.isDigit = true) ∧
    ({ Preset.standard.config with syntheticMarker := "00" } : Config).validate = .ok () ∧
    ∃ (n : Name) (g h : Nat), "x" ≠ n ∧ g < UInt64.size ∧ h < UInt64.size ∧
      (FreshNames.start "00").nameFor "x" g = (FreshNames.start "00").nameFor n h := by
  have hmarker : ∃ c ∈ "#1".toList, c.isDigit = false := ⟨'#', by simp, rfl⟩
  have hdigits : ∀ c ∈ "00".toList, c.isDigit = true := by simp
  obtain ⟨hvalid, hcollision⟩ := fresh_names_apart.2.2 "00" (by decide) hdigits (by decide)
  refine ⟨hmarker, rfl, rfl, ?_, hdigits, hvalid, hcollision "x"⟩
  exact fresh_names_apart.2.1 9 ⟨"#1", false, false, 10⟩ twoInstances hmarker 1 2 _ _ (by decide)
    rfl rfl

end TypeSolver
