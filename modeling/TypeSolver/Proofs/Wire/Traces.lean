import TypeSolver.Proofs.Wire.Types
import TypeSolver.Wire.Traces

/-!
# Traces survive JSON

A step is written member by member, and its outcome stands among the members.  `StepMember` is a
member as it is written, and `StepMember.put` what it does to the step that is being read; the
members of a step, put one after the other, make the step (`foldlM_put_ofStep`).  Names are texts
and need nothing to read back; an index has to be a 64-bit number.
-/

namespace TypeSolver.Wire

open Json

/-! ## Members of a step -/

lemma readCount_write {n : Nat} (hn : n < Nat.pow 2 64) {rest : List Char}
    (hrest : EndsNumber rest) :
    readCount (write (.number (.nat n)) ++ rest) = .ok (n, rest) := by
  obtain ⟨c, cs, hcs, hc⟩ := exists_cons_of_digits n
  have hread := readNumber_append hrest (readNumber_toDigits hn)
  rw [hcs, List.cons_append, List.nil_append] at hread
  have hminus : c ≠ '-' := by
    rintro rfl
    exact absurd hc (by decide)
  rw [write, writeNumber, hcs, List.cons_append]
  simp [readCount, skipSpace_cons (not_isSpace_of_isDigit hc), hc, hread, ok_bind, pure,
    Except.pure]

lemma readNamed_writeString {α : Type} {names : List (String × α)} {name : String} {a : α}
    (h : chosen names name = .ok a) (room : Nat) (rest : List Char) :
    readNamed names room (write (.string name) ++ rest) = .ok (a, rest) := by
  have hread : readNamed names room (write (.string name) ++ rest) =
      readChars [] none (name.toList.flatMap escapeChar ++ '"' :: rest) >>= fun found =>
        liftData (chosen names found.1) >>= fun a => .ok (a, found.2) := by
    rw [write, writeString, List.cons_append, List.append_assoc]
    rfl
  rw [hread, readChars_writeString, ok_bind, h]
  rfl

lemma readStrings_write {names : List Name} {limit room : Nat} {rest : List Char}
    (hroom : (Value.array (names.map .string)).depth ≤ room)
    (hlimit : (write (.array (names.map .string))).length ≤ limit) :
    readList (fun _ => readString) limit room (write (.array (names.map .string)) ++ rest) =
      .ok (names, rest) := by
  have hitem : ∀ name ∈ names, ∀ room rest, (Value.string name).depth ≤ room → EndsNumber rest →
      readString (write (.string name) ++ rest) = Except.map (·, rest) (pure (id name)) := by
    intro name _ _ rest _ _
    rw [write, writeString, List.cons_append, List.append_assoc]
    exact readChars_writeString name rest
  rw [readList_write hitem hroom hlimit, List.mapM_pure, List.map_id]
  rfl

/-- A member of a step as it is written. -/
inductive StepMember where
  | index (i : Nat)
  | kind (k : ConstraintKind)
  | outcome (skip : Bool)
  | reason (r : SkipReason)
  | bound (names : List Name)

namespace StepMember

/-- The name and the value of a member. -/
def entry : StepMember → String × Value
  | index i => ("index", .number (.nat i))
  | kind k => ("kind", .string k.text)
  | outcome skip => ("outcome", .string (if skip then "skipped" else "unified"))
  | reason r => ("reason", .string (reasonName r))
  | bound names => ("bound", .array (names.map .string))

/-- The step with a member put into it. -/
def put (s : PartialStep) (m : StepMember) : Except Error PartialStep :=
  match m with
  | index i => (onlyOnce "index" s.index).map fun _ => { s with index := some i }
  | kind k => (onlyOnce "kind" s.kind).map fun _ => { s with kind := some k }
  | bound names => (onlyOnce "bound" s.bound).map fun _ => { s with bound := some names }
  | m => .ok { s with others := m.entry :: s.others }

/-- The members of a step, in order. -/
def ofStep (step : TraceStep) : List StepMember :=
  match step.outcome with
  | .unified => [index step.index, kind step.kind, outcome false, bound step.bound]
  | .skipped r => [index step.index, kind step.kind, outcome true, reason r, bound step.bound]

end StepMember

lemma ofStep_eq (step : TraceStep) :
    ofStep step = .object ((StepMember.ofStep step).map StepMember.entry) := by
  obtain ⟨index, kind, outcome, bound⟩ := step
  cases outcome <;> rfl

/-- A member of a step is read as what is written. -/
lemma readStepMember_write {m : StepMember} {s : PartialStep} {limit room : Nat}
    {rest : List Char} (hindex : ∀ i, m = .index i → i < Nat.pow 2 64)
    (hroom : m.entry.2.depth ≤ room) (hlimit : (write m.entry.2).length ≤ limit)
    (hrest : EndsNumber rest) :
    readStepMember limit room s m.entry.1 (':' :: (write m.entry.2 ++ rest)) =
      (m.put s).map (·, rest) := by
  cases m with
  | index i =>
    have hread := readCount_write (hindex i rfl) hrest
    rw [StepMember.entry, readStepMember, if_pos rfl, afterColon_colon, hread, StepMember.put]
    cases onlyOnce "index" s.index <;> rfl
  | kind k =>
    have hchosen : chosen constraintKindNames k.text = .ok k := by cases k <;> rfl
    have hread := readNamed_writeString hchosen room rest
    rw [StepMember.entry, readStepMember, if_neg (by simp), if_pos rfl, afterColon_colon, hread,
      StepMember.put]
    cases onlyOnce "kind" s.kind <;> rfl
  | outcome _ | reason _ =>
    have hread := readValue_write (.string _) hroom hlimit hrest
    rw [StepMember.entry, readStepMember, if_neg (by simp), if_neg (by simp),
      if_neg (by simp), afterColon_colon, hread]
    rfl
  | bound names =>
    have hread := @readStrings_write names limit room rest hroom hlimit
    rw [StepMember.entry, readStepMember, if_neg (by simp), if_neg (by simp), if_pos rfl,
      afterColon_colon, hread, StepMember.put]
    cases onlyOnce "bound" s.bound <;> rfl

/-- The members of a step make the step. -/
lemma foldlM_put_ofStep (step : TraceStep) :
    ∃ s, (StepMember.ofStep step).foldlM StepMember.put ⟨none, none, none, []⟩ = .ok s ∧
      s.complete = .ok step := by
  obtain ⟨index, kind, outcome, bound⟩ := step
  cases outcome with
  | unified => exact ⟨_, rfl, rfl⟩
  | skipped r => cases r <;> exact ⟨_, rfl, rfl⟩

/-- A step is read back from a text. -/
lemma readStep_write {step : TraceStep} (hindex : step.index < Nat.pow 2 64) {limit room : Nat}
    {rest : List Char} (hroom : (ofStep step).depth ≤ room)
    (hlimit : (write (ofStep step)).length ≤ limit) :
    readStep limit room (write (ofStep step) ++ rest) = .ok (step, rest) := by
  rw [ofStep_eq] at hroom hlimit ⊢
  obtain ⟨room, rfl⟩ : ∃ r, room = r + 1 := ⟨room - 1, by rw [Value.depth] at hroom; omega⟩
  have hmember : ∀ s, ∀ m ∈ StepMember.ofStep step, ∀ rest, EndsNumber rest →
      readStepMember limit room s m.entry.1 (':' :: (write m.entry.2 ++ rest)) =
        (m.put s).map (·, rest) := by
    intro s m hm rest hrest
    have hmem := List.mem_map_of_mem (f := StepMember.entry) hm
    have hdepth := Value.depth_lt_of_mem_object hmem
    have hlength := (length_write_le_of_mem_object hmem).trans hlimit
    refine readStepMember_write ?_ (by omega) hlength hrest
    rintro i rfl
    obtain rfl : i = step.index := by
      rw [StepMember.ofStep] at hm
      split at hm <;> simpa using hm
    exact hindex
  obtain ⟨s, hfold, hcomplete⟩ := foldlM_put_ofStep step
  have hread := @readMembers_membersText _ _ limit rest _ _ _ _ ⟨none, none, none, []⟩ hmember
    hlimit
  rw [hfold] at hread
  rw [write_object, List.cons_append]
  refine bind_eq_ok.2 ⟨_, hread, ?_⟩
  dsimp only
  rw [hcomplete]
  rfl

/-! ## Traces -/

lemma depthList_le {vs : List Value} {n : Nat} (h : ∀ v ∈ vs, v.depth ≤ n) :
    Value.depthList vs ≤ n := by
  induction vs with
  | nil => exact Nat.zero_le n
  | cons v vs ih =>
    obtain ⟨hv, hvs⟩ := List.forall_mem_cons.1 h
    exact Nat.max_le.2 ⟨hv, ih hvs⟩

lemma depth_ofStep_le (step : TraceStep) : (ofStep step).depth ≤ 2 := by
  have hnames : Value.depthList (step.bound.map .string) ≤ 0 :=
    depthList_le fun v hv => by
      obtain ⟨name, -, rfl⟩ := List.mem_map.1 hv
      exact Nat.le_refl 0
  rw [ofStep]
  cases step.outcome <;> simp [Value.depth, Value.depthMembers] <;> omega

/-- No trace nests too deeply. -/
lemma depth_ofTrace_le (tr : Trace) : (ofTrace tr).depth ≤ maxNesting := by
  have hsteps : Value.depthList (tr.steps.map ofStep) ≤ 2 :=
    depthList_le fun v hv => by
      obtain ⟨step, -, rfl⟩ := List.mem_map.1 hv
      exact depth_ofStep_le step
  simp only [ofTrace, Value.depth, Value.depthMembers, maxNesting]
  omega

/-- The member of a trace. -/
def stepsEntry (steps : List TraceStep) : String × Value :=
  ("steps", .array (steps.map ofStep))

/-- What becomes of a trace with its member. -/
def putSteps (state : List TraceStep × List String) (steps : List TraceStep) :
    Except Error (List TraceStep × List String) :=
  if state.2.contains "steps" then .error (.data (.duplicateField "steps"))
  else .ok (steps, "steps" :: state.2)

/-- The member of a trace is read as what is written. -/
lemma readMember_write {steps : List TraceStep} {limit room : Nat}
    (h : ∀ rest, readList (readStep limit) limit (room - 1) (write (stepsEntry steps).2 ++ rest) =
      .ok (steps, rest)) (state : List TraceStep × List String) (rest : List Char) :
    (traceRecord limit room).readMember limit state (stepsEntry steps).1
        (':' :: (write (stepsEntry steps).2 ++ rest)) = (putSteps state steps).map (·, rest) := by
  have hfind : (traceRecord limit room).fields.find? (fun f => f.name == "steps") =
      some (.of "steps" (readList (readStep limit) limit (room - 1)) fun _ steps => steps) := rfl
  have hname : (stepsEntry steps).1 = "steps" := rfl
  rw [Record.readMember, hname, hfind, putSteps]
  dsimp only
  split
  · rfl
  · rw [afterColon_colon, Field.of]
    dsimp only
    rw [h]
    rfl

/-- A trace is read back from a text. -/
lemma readTrace_write {tr : Trace} (h : ∀ step ∈ tr.steps, step.index < Nat.pow 2 64)
    {limit room : Nat} {rest : List Char} (hroom : (ofTrace tr).depth ≤ room)
    (hlimit : (write (ofTrace tr)).length ≤ limit) :
    readTrace limit room (write (ofTrace tr) ++ rest) = .ok (tr, rest) := by
  have heq : ofTrace tr = .object ([tr.steps].map stepsEntry) := rfl
  rw [heq] at hroom hlimit ⊢
  obtain ⟨room, rfl⟩ : ∃ r, room = r + 1 := ⟨room - 1, by rw [Value.depth] at hroom; omega⟩
  have hmem : stepsEntry tr.steps ∈ [tr.steps].map stepsEntry := List.mem_singleton_self _
  have hlength := (length_write_le_of_mem_object hmem).trans hlimit
  have hdepth := Nat.le_of_lt_succ ((Value.depth_lt_of_mem_object hmem).trans_le hroom)
  have hitem : ∀ step ∈ tr.steps, ∀ room rest, (ofStep step).depth ≤ room → EndsNumber rest →
      readStep limit room (write (ofStep step) ++ rest) =
        Except.map (·, rest) (pure (id step)) := by
    intro step hstep room rest hroom _
    have hstepLength := length_write_le_of_mem_array (List.mem_map_of_mem (f := ofStep) hstep)
    exact readStep_write (h step hstep) hroom (hstepLength.trans hlength)
  have hlist : ∀ rest, readList (readStep limit) limit room
      (write (stepsEntry tr.steps).2 ++ rest) = .ok (tr.steps, rest) := by
    intro rest
    rw [stepsEntry, readList_write hitem hdepth hlength, List.mapM_pure, List.map_id]
    rfl
  have hmember : ∀ state, ∀ steps ∈ [tr.steps], ∀ rest, EndsNumber rest →
      (traceRecord limit (room + 1)).readMember limit state (stepsEntry steps).1
        (':' :: (write (stepsEntry steps).2 ++ rest)) = (putSteps state steps).map (·, rest) := by
    intro state steps hsteps rest _
    rw [List.mem_singleton.1 hsteps]
    exact readMember_write hlist state rest
  have hread := @readMembers_membersText _ _ limit rest _ _ _ _ ([], []) hmember hlimit
  rw [write_object, List.cons_append]
  exact bind_eq_ok.2 ⟨_, hread, rfl⟩

end TypeSolver.Wire
