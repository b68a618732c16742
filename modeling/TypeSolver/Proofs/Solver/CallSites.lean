import TypeSolver.Proofs.Solver.CallerNames
import TypeSolver.Proofs.Solver.Order
import TypeSolver.Proofs.Unify.Ground

/-!
# Calls of a polymorphic function

A function all of whose slots are variables can be called at any number of places, with arguments
that have nothing to do with each other.  This file says exactly what comes of such a batch, for
arguments without variables: how many arguments there are, which of them have to be equal because a
parameter is repeated, and which of them is the result.

`solve_batch` is about all calls of a batch.  For one call the argument is an invariant of the
unifier's loop over the parameters (`Linked`): the fresh name of a parameter is bound to the first
argument that it was given, and the fresh name of the result is linked to the name that the caller
has for it until the first argument for it comes.  Dropping the fresh names leaves at most the
caller's name (`contribution_call`), and no call changes what another one left.
-/

namespace TypeSolver

namespace CallSites

/-! ## Batches of calls -/

/-- A call whose arguments have no variables. -/
structure Call where
  args : List Ty
  /-- the caller's name for the result -/
  result : Name
  ground : ∀ t ∈ args, t.Ground

/-- A function all of whose slots are variables. -/
def callee (ps : List Name) (q : Name) : Ty := .func (ps.map .var) (.var q)

/-- The constraint that a call of a named function stands for. -/
def Call.constraint (f : Name) (c : Call) : Constraint := .apply (.var f) c.args (.var c.result)

/-- A function is given its type and then called. -/
def batch (f : Name) (ps : List Name) (q : Name) (calls : List Call) : List Constraint :=
  .equals (.var f) (callee ps q) :: calls.map (Call.constraint f)

/-- What is given to a name more than once is equal each time. -/
def Consistent (given : List (Name × Ty)) : Prop :=
  given.Pairwise fun x y => x.1 = y.1 → (x.2 == y.2) = true

instance (given : List (Name × Ty)) : Decidable (Consistent given) :=
  inferInstanceAs (Decidable (given.Pairwise _))

/-- The arguments are as many as the parameters, and a parameter that is repeated is given equal
arguments. -/
def Call.Fits (ps : List Name) (c : Call) : Prop :=
  c.args.length = ps.length ∧ Consistent (ps.zip c.args)

instance (ps : List Name) (c : Call) : Decidable (c.Fits ps) := inferInstanceAs (Decidable (_ ∧ _))

/-- The result of a call is the first argument given to the parameter that is returned; it is
unknown if no parameter is. -/
def Call.binding? (ps : List Name) (q : Name) (c : Call) : Option (Name × Ty) :=
  ((ps.zip c.args).lookup q).map fun t => (c.result, t)

/-! ## Arguments that were given so far -/

variable {given : List (Name × Ty)} {n p q r : Name} {a b : Ty}

lemma lookup_concat : (given ++ [(p, a)]).lookup n =
    (given.lookup n).or (if n = p then some a else none) := by
  rw [List.lookup_append, Subst.lookup_cons_eq_ite]
  rfl

/-- It is enough to compare with the first argument of the same name. -/
lemma consistent_concat : Consistent (given ++ [(p, a)]) ↔
    Consistent given ∧ ∀ b, given.lookup p = some b → (b == a) = true := by
  rw [Consistent, List.pairwise_append]
  constructor
  · rintro ⟨hgiven, -, hlast⟩
    refine ⟨hgiven, fun b hb => ?_⟩
    exact hlast (p, b) (Subst.mem_of_lookup hb) (p, a) List.mem_cons_self rfl
  · rintro ⟨hgiven, hfirst⟩
    refine ⟨hgiven, List.pairwise_singleton _ _, ?_⟩
    rintro ⟨m, c⟩ hx y hy rfl
    obtain rfl := List.mem_singleton.1 hy
    cases hlookup : given.lookup p with
    | none =>
      have hne := List.lookup_eq_none_iff.1 hlookup _ hx
      simp at hne
    | some b =>
      have hba := hfirst b hlookup
      obtain ⟨l₁, l₂, rfl, hl₁⟩ := List.lookup_eq_some_iff.1 hlookup
      rcases List.mem_append.1 hx with hx | hx
      · have hne := hl₁ _ hx
        simp at hne
      · rcases List.mem_cons.1 hx with hx | hx
        · rwa [(Prod.mk.inj hx).2]
        · -- the first argument equals this one and the new one, so that those are equal
          have hrest := (List.pairwise_cons.1 (List.pairwise_append.1 hgiven).2.1).1 _ hx rfl
          exact Ty.beq_of_beq_left hrest hba

/-! ## One parameter -/

/-- The bindings while an instance meets a call: the fresh names of the parameters have the first
arguments given to them, the fresh name of the result is linked to the caller's name until there is
an argument for it, and nothing else is bound. -/
structure Linked (ρ : Name → Name) (q r : Name) (given : List (Name × Ty)) (s : Subst) : Prop where
  ground : ∀ x ∈ given, x.2.Ground
  param : ∀ p, ρ p ≠ r → s.get? (ρ p) =
    if p = q then some ((given.lookup q).getD (.var r)) else given.lookup p
  result : s.get? r = given.lookup q
  only : ∀ n, n ≠ r → n ≠ ρ q → (∀ x ∈ given, n ≠ ρ x.1) → s.get? n = none

namespace Linked

variable {ρ : Name → Name} {s : Subst}

lemma start (hρ : Function.Injective ρ) (hq : ρ q ≠ r) :
    Linked ρ q r [] (.single (ρ q) (.var r)) where
  ground := by simp
  param p hp := by simp [Subst.get?_single, hρ.eq_iff]
  result := by simp [Subst.get?_single, hq.symm]
  only n _ hn _ := by simp [Subst.get?_single, hn]

lemma ground_of_lookup (h : Linked ρ q r given s) (hb : given.lookup p = some b) : b.Ground :=
  h.ground (p, b) (Subst.mem_of_lookup hb)

lemma ground_concat (h : Linked ρ q r given s) (ha : a.Ground) :
    ∀ x ∈ given ++ [(p, a)], x.2.Ground :=
  List.forall_mem_append.2 ⟨h.ground, List.forall_mem_singleton.2 ha⟩

lemma map_lookup (h : Linked ρ q r given s) (p n : Name) (t : Ty) :
    ((given.lookup p).map fun v => v.substitute n t) = given.lookup p := by
  cases hb : given.lookup p with
  | none => rfl
  | some b => simp [Ty.substitute_of_not_mentions (h.ground_of_lookup hb n)]

/-- A parameter that was given an argument before. -/
lemma keep (h : Linked ρ q r given s) (hb : given.lookup p = some b) (ha : a.Ground) :
    Linked ρ q r (given ++ [(p, a)]) s := by
  have hlookup : ∀ n, (given ++ [(p, a)]).lookup n = given.lookup n := by
    intro n
    rw [lookup_concat]
    split
    · subst n
      rw [hb]
      rfl
    · exact Option.or_none
  refine ⟨h.ground_concat ha, fun m hm => ?_, ?_, fun n hn hq hfree => ?_⟩
  · rw [hlookup, hlookup, h.param m hm]
  · rw [hlookup, h.result]
  · exact h.only n hn hq fun x hx => hfree x (List.mem_append_left _ hx)

/-- A parameter that is not the result is bound to its first argument. -/
lemma bind_param (h : Linked ρ q r given s) (hρ : Function.Injective ρ) (hpq : p ≠ q)
    (hp : ρ p ≠ r) (hnew : given.lookup p = none) (ha : a.Ground) :
    Linked ρ q r (given ++ [(p, a)]) (s.bind (ρ p) a) := by
  have hresult : (given ++ [(p, a)]).lookup q = given.lookup q := by
    rw [lookup_concat, if_neg hpq.symm, Option.or_none]
  refine ⟨h.ground_concat ha, fun m hm => ?_, ?_, fun n hn hq hfree => ?_⟩
  · by_cases hmp : m = p
    · subst hmp
      simp [Subst.get?_bind, ha.apply_eq, hpq, lookup_concat, hnew]
    · rw [Subst.get?_bind, if_neg (hρ.ne hmp), h.param m hm, hresult, lookup_concat, if_neg hmp,
        Option.or_none]
      split
      · -- the link is not touched, since the caller's name is no fresh name
        cases hc : given.lookup q with
        | none => simp [Ty.substitute, hp.symm]
        | some c => simp [Ty.substitute_of_not_mentions (h.ground_of_lookup hc (ρ p))]
      · exact h.map_lookup m _ _
  · rw [Subst.get?_bind, if_neg hp.symm, h.result, hresult, h.map_lookup]
  · rw [Subst.get?_bind, if_neg (hfree (p, a) (by simp)),
      h.only n hn hq fun x hx => hfree x (List.mem_append_left _ hx)]
    rfl

/-- With the first argument for the result the link is resolved. -/
lemma bind_result (h : Linked ρ q r given s) (hnew : given.lookup q = none) (ha : a.Ground) :
    Linked ρ q r (given ++ [(q, a)]) (s.bind r a) := by
  refine ⟨h.ground_concat ha, fun m hm => ?_, ?_, fun n hn hq hfree => ?_⟩
  · rw [Subst.get?_bind, if_neg hm, h.param m hm, ha.apply_eq, lookup_concat, lookup_concat, hnew]
    by_cases hmq : m = q
    · simp [hmq, Ty.substitute]
    · rw [if_neg hmq, if_neg hmq, if_neg hmq, Option.or_none, h.map_lookup]
  · rw [Subst.get?_bind, if_pos rfl, ha.apply_eq, lookup_concat, hnew]
    simp
  · rw [Subst.get?_bind, if_neg hn,
      h.only n hn hq fun x hx => hfree x (List.mem_append_left _ hx)]
    rfl

lemma get?_of_lookup (h : Linked ρ q r given s) (hp : ρ p ≠ r) (hb : given.lookup p = some b) :
    s.get? (ρ p) = some b := by
  rw [h.param p hp]
  split
  · subst p
    rw [hb]
    rfl
  · exact hb

/-- An argument that differs from the first one of its name. -/
lemma extend_of_ne {depth : Nat} (h : Linked ρ q r given s) (hp : ρ p ≠ r)
    (hb : given.lookup p = some b) (hne : (b == a) = false) (ha : a.Ground)
    (hdepth : a.weight ≤ depth) :
    ∃ x y, extend (depth + 1) s (ρ p) a = .error (.mismatch x y) := by
  have hground := h.ground_of_lookup hb
  have hget := h.get?_of_lookup hp hb
  have hclash : a.firstClash b ≠ none := by
    rw [ne_eq, Ty.firstClash_eq_none_iff ha, Ty.beq_comm, hne]
    simp
  obtain ⟨clash, hclash⟩ := Option.ne_none_iff_exists'.1 hclash
  refine ⟨clash.1, clash.2, ?_⟩
  rw [extend, hget]
  simp only [hne, Bool.false_eq_true, if_false, hground.varName?, reduceCtorEq,
    unify_eq_outcome ha hground hdepth, hclash]
  rfl

/-- The step for one argument. -/
lemma extend_param {depth : Nat} (h : Linked ρ q r given s) (hρ : Function.Injective ρ)
    (hp : ρ p ≠ r) (ha : a.Ground) (hfirst : ∀ b, given.lookup p = some b → (b == a) = true) :
    ∃ s', extend (depth + 3) s (ρ p) a = .ok s' ∧ Linked ρ q r (given ++ [(p, a)]) s' := by
  have hget := h.param p hp
  cases hlookup : given.lookup p with
  | some b =>
    refine ⟨s, ?_, h.keep hlookup ha⟩
    rw [extend, h.get?_of_lookup hp hlookup]
    simp [hfirst b hlookup]
  | none =>
    by_cases hpq : p = q
    · subst hpq
      -- the link is reconciled with the argument, which binds the caller's name
      refine ⟨s.bind r a, ?_, h.bind_result hlookup ha⟩
      rw [if_pos rfl, hlookup, Option.getD_none] at hget
      have hne : (Ty.var r == a) = false := by
        cases a with
        | var m => simpa [Ty.mentions] using ha m
        | _ => rfl
      rw [extend, hget]
      simp only [hne, Bool.false_eq_true, if_false, Ty.varName?, Option.some.injEq, hp.symm,
        unify_varRight ha.varName?]
      exact compose_single_of_new (h.result.trans hlookup) depth a
    · rw [if_neg hpq, hlookup] at hget
      exact ⟨s.bind (ρ p) a, extend_of_new hget _ a, h.bind_param hρ hpq hp hlookup ha⟩

/-- The loop over the arguments. -/
lemma foldlM_extend {depth : Nat} (h : Linked ρ q r given s) (hρ : Function.Injective ρ)
    (hgiven : Consistent given) {todo : List (Name × Ty)} (hr : ∀ x ∈ todo, ρ x.1 ≠ r)
    (hground : ∀ x ∈ todo, x.2.Ground) (hweight : ∀ x ∈ todo, x.2.weight ≤ depth + 2) :
    (Consistent (given ++ todo) →
      ∃ s', todo.foldlM (fun acc x => extend (depth + 3) acc (ρ x.1) x.2) s = .ok s' ∧
        Linked ρ q r (given ++ todo) s') ∧
    (¬ Consistent (given ++ todo) →
      ∃ x y, todo.foldlM (fun acc x => extend (depth + 3) acc (ρ x.1) x.2) s =
        .error (.mismatch x y)) := by
  induction todo generalizing given s with
  | nil =>
    rw [List.append_nil]
    exact ⟨fun _ => ⟨s, rfl, h⟩, fun hne => absurd hgiven hne⟩
  | cons x todo ih =>
    rw [List.forall_mem_cons] at hr hground hweight
    rw [List.append_cons, List.foldlM_cons]
    by_cases hfirst : ∀ b, given.lookup x.1 = some b → (b == x.2) = true
    · obtain ⟨s', hextend, hs'⟩ := h.extend_param hρ hr.1 hground.1 hfirst
      rw [hextend]
      exact ih hs' (consistent_concat.2 ⟨hgiven, hfirst⟩) hr.2 hground.2 hweight.2
    · refine ⟨fun hall => ?_, fun _ => ?_⟩
      · exact absurd (consistent_concat.1 (List.pairwise_append.1 hall).1).2 hfirst
      · push Not at hfirst
        obtain ⟨b, hb, hne⟩ := hfirst
        obtain ⟨y, z, hextend⟩ :=
          h.extend_of_ne hr.1 hb (Bool.not_eq_true _ ▸ hne) hground.1 hweight.1
        exact ⟨y, z, by rw [hextend]; rfl⟩

end Linked

/-! ## One call -/

variable {f : Name} {ps : List Name} {s : Subst} (depth : Nat) (nested : Bool) (names : FreshNames)

lemma instantiate_callee : ((callee ps q).instantiate nested names) =
    (⟨.func (ps.map fun p => .var (names.freshName p)) (.var (names.freshName q)),
      (ps ++ [q]).map names.freshName⟩, { names with next := names.next + 1 }) := by
  rw [callee, Ty.instantiate_func, Ty.slotNamesList_vars]
  simp

lemma mem_renamedNames_callee : p ∈ (callee ps q).renamedNames nested ↔ p ∈ q :: ps := by
  rw [callee, Ty.renamedNames, Ty.slotNamesList_vars, Ty.slotNames_var]
  simp [or_comm]

/-- An instance meets a call: the results first, then the parameters one by one. -/
lemma unify_instance (ρ : Name → Name) {args : List Ty} (hlen : args.length = ps.length) :
    unify (depth + 5) (.func (ps.map fun p => .var (ρ p)) (.var (ρ q))) (.func args (.var r)) =
      (ps.zip args).foldlM (fun acc x => extend (depth + 3) acc (ρ x.1) x.2)
        (.single (ρ q) (.var r)) := by
  rw [unify, if_pos (by simp [hlen]), unify_varLeft, List.zip_map_left]
  show List.foldlM _ (Subst.single (ρ q) (.var r)) _ = _
  rw [List.foldlM_map]
  congr 1
  funext acc x
  show (unify (depth + 4) (.var (ρ x.1)) x.2 >>= fun d => compose (depth + 4) acc d) = _
  rw [unify_varLeft]
  exact compose_single ..

/-- What is left of a call when the fresh names are dropped. -/
lemma bindings_strip {e : Subst} (h : Linked names.freshName q r given e)
    (hgiven : ∀ x ∈ given, x.1 ∈ ps) (hr : ∀ p ∈ q :: ps, names.freshName p ≠ r) :
    (((callee ps q).instantiate nested names).1.strip e).bindings =
      ((given.lookup q).map fun t => (r, t)).toList := by
  rw [Subst.bindings_of_only (n := r), ← h.result]
  · congr 2
    refine Option.ext fun t => Ty.get?_strip_instantiate.trans (and_iff_left fun m hm => ?_)
    exact (hr m (mem_renamedNames_callee nested |>.1 hm)).symm
  · intro m hm
    refine Option.eq_none_iff_forall_ne_some.2 fun t ht => ?_
    obtain ⟨ht, hfresh⟩ := Ty.get?_strip_instantiate.1 ht
    have hfresh : ∀ p ∈ q :: ps, m ≠ names.freshName p := fun p hp =>
      hfresh p (mem_renamedNames_callee nested |>.2 hp)
    rw [List.forall_mem_cons] at hfresh
    rw [h.only m hm hfresh.1 fun x hx => hfresh.2 _ (hgiven x hx)] at ht
    cases ht

/-- What a call contributes. -/
lemma contribution_call {c : Call} (hf : s.get? f = some (callee ps q))
    (hresult : ∀ p ∈ q :: ps, names.freshName p ≠ c.result)
    (hweight : ∀ t ∈ c.args, t.weight ≤ depth + 2) :
    (c.Fits ps → ∃ d : Subst, d.bindings = (c.binding? ps q).toList ∧
      Solver.contribution (depth + 5) nested names s (c.constraint f) =
        (.ok (.binds d), { names with next := names.next + 1 })) ∧
    (¬ c.Fits ps → ∃ x y, Solver.contribution (depth + 5) nested names s (c.constraint f) =
      (.error (.mismatch x y), { names with next := names.next + 1 })) := by
  have hcallee : s.apply (.var f) = callee ps q := by simp [Subst.apply, hf]
  have hcontribution : Solver.contribution (depth + 5) nested names s (c.constraint f) =
      ((unify (depth + 5) (.func (ps.map fun p => .var (names.freshName p))
        (.var (names.freshName q))) (.func c.args (.var c.result))).map fun d =>
          .binds (((callee ps q).instantiate nested names).1.strip d),
        { names with next := names.next + 1 }) := by
    rw [Call.constraint, Solver.contribution, Solver.callContribution, hcallee, instantiate_callee]
  rw [hcontribution]
  by_cases hlen : c.args.length = ps.length
  · rw [unify_instance depth names.freshName hlen, Call.Fits, and_iff_right hlen]
    have hstart := Linked.start names.freshName_injective (hresult q List.mem_cons_self)
    obtain ⟨hok, herror⟩ := hstart.foldlM_extend names.freshName_injective .nil
      (fun x hx => hresult _ (List.mem_cons_of_mem _ (List.of_mem_zip hx).1))
      (fun x hx => c.ground _ (List.of_mem_zip hx).2)
      (fun x hx => hweight _ (List.of_mem_zip hx).2)
    refine ⟨fun hfits => ?_, fun hfits => ?_⟩
    · obtain ⟨e, he, hlinked⟩ := hok hfits
      rw [he]
      exact ⟨_, bindings_strip nested names hlinked (fun x hx => (List.of_mem_zip hx).1) hresult, rfl⟩
    · obtain ⟨x, y, hxy⟩ := herror hfits
      rw [hxy]
      exact ⟨x, y, rfl⟩
  · refine ⟨fun hfits => absurd hfits.1 hlen, fun _ => ?_⟩
    rw [unify, if_neg (by simpa using Ne.symm hlen)]
    exact ⟨_, _, rfl⟩

/-! ## All calls -/

/-- A name that does not occur in a solution. -/
def Unused (s : Subst) (n : Name) : Prop :=
  s.get? n = none ∧ ∀ b ∈ s.bindings, b.2.mentions n = false

lemma Call.binding?_eq_some {c : Call} {x : Name × Ty} (h : c.binding? ps q = some x) :
    x.1 = c.result ∧ x.2.Ground := by
  obtain ⟨t, ht, rfl⟩ := Option.map_eq_some_iff.1 h
  exact ⟨rfl, c.ground t (List.of_mem_zip (Subst.mem_of_lookup ht)).2⟩

/-- What a call contributes goes to the end of the solution. -/
lemma compose_binding {c : Call} {d : Subst} (hd : d.bindings = (c.binding? ps q).toList)
    (hresult : Unused s c.result) :
    ∃ s', compose (depth + 2) s d = .ok s' ∧
      s'.bindings = s.bindings ++ (c.binding? ps q).toList := by
  cases hb : c.binding? ps q with
  | none =>
    refine ⟨s, ?_, (List.append_nil _).symm⟩
    rw [compose, hd, hb]
    rfl
  | some x =>
    obtain ⟨hname, hground⟩ := Call.binding?_eq_some hb
    obtain rfl : d = .single x.1 x.2 := Subst.eq_of_bindings (by rw [hd, hb]; rfl)
    rw [← hname] at hresult
    refine ⟨s.bind x.1 x.2, ?_, ?_⟩
    · exact compose_single_of_new hresult.1 depth x.2
    · rw [Subst.bindings_bind_of_new hresult.1 hresult.2, hground.apply_eq]
      rfl

/-- A call uses no name but the one for its result. -/
lemma Unused.of_append {c : Call} {s' : Subst} (h : Unused s n) (hne : n ≠ c.result)
    (hs' : s'.bindings = s.bindings ++ (c.binding? ps q).toList) : Unused s' n := by
  have hnew : ∀ x ∈ (c.binding? ps q).toList, x.1 = c.result ∧ x.2.Ground := fun x hx =>
    Call.binding?_eq_some (Option.mem_toList.1 hx)
  refine ⟨?_, ?_⟩
  · rw [Subst.get?, hs', List.lookup_append, ← Subst.get?, h.1, Option.none_or,
      List.lookup_eq_none_iff]
    intro x hx
    simpa [(hnew x hx).1] using hne
  · rw [hs', List.forall_mem_append]
    exact ⟨h.2, fun x hx => (hnew x hx).2 n⟩

/-- The pass over the calls. -/
lemma runFrom_calls {calls : List Call} (hf : s.get? f = some (callee ps q))
    (hdistinct : (calls.map Call.result).Nodup) (hunused : ∀ c ∈ calls, Unused s c.result)
    (hfresh : ∀ c ∈ calls, ∀ p ∈ q :: ps, ∀ k, names.nameFor p k ≠ c.result)
    (hweight : ∀ c ∈ calls, ∀ t ∈ c.args, t.weight ≤ depth + 2) :
    ((∀ c ∈ calls, c.Fits ps) → ∃ s',
      (Solver.runFrom (depth + 5) nested names s (calls.map (Call.constraint f))).result = .ok s' ∧
      s'.bindings = s.bindings ++ calls.filterMap (Call.binding? ps q)) ∧
    ((∃ c ∈ calls, ¬ c.Fits ps) → ∃ x y,
      (Solver.runFrom (depth + 5) nested names s (calls.map (Call.constraint f))).result =
        .error (.mismatch x y)) := by
  induction calls generalizing s names with
  | nil => exact ⟨fun _ => ⟨s, rfl, (List.append_nil _).symm⟩, by simp⟩
  | cons c calls ih =>
    rw [List.forall_mem_cons] at hunused hfresh hweight
    obtain ⟨hne, hdistinct⟩ := List.nodup_cons.1 hdistinct
    obtain ⟨hok, herror⟩ := contribution_call depth nested names hf
      (fun p hp => hfresh.1 p hp names.next) hweight.1
    rw [List.map_cons, Solver.runFrom, List.forall_mem_cons]
    by_cases hfits : c.Fits ps
    · obtain ⟨d, hd, hcontribution⟩ := hok hfits
      obtain ⟨s', hcompose, hs'⟩ := compose_binding (depth + 3) hd hunused.1
      have hf' : s'.get? f = some (callee ps q) := by
        rw [Subst.get?, hs', List.lookup_append, ← Subst.get?, hf, Option.some_or]
      have hunused' : ∀ c' ∈ calls, Unused s' c'.result := fun c' hc' =>
        (hunused.2 c' hc').of_append
          (fun heq => hne (List.mem_map.2 ⟨c', hc', heq⟩)) hs'
      obtain ⟨hall, hsome⟩ := ih { names with next := names.next + 1 } hf' hdistinct hunused'
        hfresh.2 hweight.2
      rw [hcontribution]
      simp only [hcompose]
      refine ⟨fun hcalls => ?_, fun hcalls => ?_⟩
      · obtain ⟨s'', hrun, hs''⟩ := hall hcalls.2
        refine ⟨s'', hrun, ?_⟩
        rw [hs'', hs', List.append_assoc, List.filterMap_cons]
        cases c.binding? ps q <;> rfl
      · exact hsome (by simpa [hfits] using hcalls)
    · obtain ⟨x, y, hxy⟩ := herror hfits
      refine ⟨fun hcalls => absurd hcalls.1 hfits, fun _ => ⟨x, y, ?_⟩⟩
      rw [hxy]

lemma mentions_callee : (callee ps q).mentions n = true ↔ n ∈ q :: ps := by
  rw [callee, Ty.mentions_func, List.mem_cons, or_comm, Ty.mentions_var, eq_comm]
  simp

/-- The function has its type, and nothing else is known. -/
lemma run_batch (config : Config) (f : Name) (ps : List Name) (q : Name) (calls : List Call) :
    Solver.solve (depth + 3) config (batch f ps q calls) =
      (Solver.runFrom (depth + 3) config.freshenNestedFunctions (.start config.syntheticMarker)
        (.single f (callee ps q)) (calls.map (Call.constraint f))).result := by
  have hbind : Subst.empty.bind f (callee ps q) = .single f (callee ps q) := by
    refine Subst.eq_of_bindings ?_
    rw [Subst.bindings_bind_of_new Subst.get?_empty (by simp [Subst.empty]),
      Subst.apply_eq_assign, Subst.toAssignment_empty, Ty.assign_id]
    rfl
  have hcompose : compose (depth + 3) .empty (.single f (callee ps q)) =
      .ok (.single f (callee ps q)) := by
    rw [compose_single_of_new Subst.get?_empty, hbind]
  rw [Solver.solve, Solver.run, batch, Solver.runFrom, Solver.contribution, unify_varLeft]
  simp only [Except.map, hcompose]

/-- Calls of a function all of whose slots are variables, with arguments that have no variables.
Each result has a name of its own, which is neither used by the function nor a fresh name of one of
its variables.  The batch has a solution exactly if each call has as many arguments as there are
parameters, and equal ones for a parameter that is repeated; otherwise there is a mismatch.  The
solution is the type of the function, followed in the order of the calls by their results: the first
argument given to the parameter that is returned, and nothing if none is. -/
theorem solve_batch (config : Config) {f q : Name} {ps : List Name} {calls : List Call}
    (hdistinct : (calls.map Call.result).Nodup) (hnew : ∀ c ∈ calls, c.result ∉ f :: q :: ps)
    (hfresh : ∀ c ∈ calls, ∀ p ∈ q :: ps, ∀ k : Nat,
      c.result ≠ p ++ config.syntheticMarker ++ toString k)
    {depth : Nat} (hdepth : 5 ≤ depth)
    (hweight : ∀ c ∈ calls, ∀ t ∈ c.args, t.weight + 3 ≤ depth) :
    ((∀ c ∈ calls, c.Fits ps) → ∃ s : Subst,
      Solver.solve depth config (batch f ps q calls) = .ok s ∧
      s.bindings = (f, callee ps q) :: calls.filterMap (Call.binding? ps q)) ∧
    ((∃ c ∈ calls, ¬ c.Fits ps) → ∃ x y,
      Solver.solve depth config (batch f ps q calls) = .error (.mismatch x y)) := by
  obtain ⟨depth, rfl⟩ := Nat.exists_eq_add_of_le' hdepth
  rw [run_batch (depth + 2)]
  refine runFrom_calls depth _ _ ?_ hdistinct ?_ ?_ ?_
  · rw [Subst.get?_single, if_pos rfl]
  · intro c hc
    obtain ⟨hne, hcallee⟩ := not_or.1 (mt List.mem_cons.2 (hnew c hc))
    rw [← mentions_callee, Bool.not_eq_true] at hcallee
    exact ⟨by rw [Subst.get?_single, if_neg hne], List.forall_mem_singleton.2 hcallee⟩
  · exact fun c hc p hp k => (hfresh c hc p hp k).symm
  · intro c hc t ht
    have hle := hweight c hc t ht
    omega

/-- Two unrelated calls of `(a, b, a) => b`, one with an object and one with functions; the name of
the second result has the marker. -/
def mixedCalls : List Call :=
  [⟨[.stringLit "k", .object [("k", .number)], .stringLit "k"], "r",
      by simp [Ty.Ground, Ty.mentions, Ty.mentionsFields]⟩,
    ⟨[.func [.number] .boolean, .string, .func [.number] .boolean], "r'0",
      by simp [Ty.Ground, Ty.mentions, Ty.mentionsList]⟩]

/-- A call that gives the same NaN literal twice. -/
def nanCall : Call :=
  ⟨[.numberLit (.ofCode false (Double.infinityCode + 1)), .number,
    .numberLit (.ofCode false (Double.infinityCode + 1))], "t", by simp [Ty.Ground, Ty.mentions]⟩

/-- The mixed calls have their results.  A NaN literal differs from itself, so one more call that
gives it twice to a parameter is a mismatch. -/
theorem solve_batch_of_mixed_calls :
    (∃ s : Subst, Solver.solve 9 Preset.standard.config
        (batch "f" ["a", "b", "a"] "b" mixedCalls) = .ok s ∧
      s.bindings = [("f", callee ["a", "b", "a"] "b"), ("r", .object [("k", .number)]),
        ("r'0", .string)]) ∧
    ∃ x y, Solver.solve 9 Preset.standard.config
      (batch "f" ["a", "b", "a"] "b" (mixedCalls ++ [nanCall])) = .error (.mismatch x y) := by
  have hfresh : ∀ c ∈ mixedCalls ++ [nanCall], ∀ p ∈ ["b", "a", "b", "a"], ∀ k : Nat,
      c.result ≠ p ++ Preset.standard.config.syntheticMarker ++ toString k := by
    -- no result starts with the letter of a parameter
    have hresult : ∀ c ∈ mixedCalls ++ [nanCall], c.result.toList.head? ∉ [some 'a', some 'b'] := by
      decide
    have hparam : ∀ p ∈ ["b", "a", "b", "a"], ∀ suffix : String,
        (p ++ suffix).toList.head? ∈ [some 'a', some 'b'] := by
      simp [String.toList_append]
    intro c hc p hp k h
    refine hresult c hc ?_
    rw [h, String.append_assoc]
    exact hparam p hp _
  refine ⟨?_, ?_⟩
  · exact (solve_batch Preset.standard.config (by decide) (by decide)
      (fun c hc => hfresh c (List.mem_append_left _ hc)) (by decide) (by decide)).1 (by decide)
  · exact (solve_batch Preset.standard.config (by decide) (by decide) hfresh (by decide)
      (by decide)).2 ⟨nanCall, by simp, by decide⟩

end CallSites

end TypeSolver
