import TypeSolver.Batch
import TypeSolver.Proofs.Wire.Accepted
import TypeSolver.Proofs.Wire.Nesting
import TypeSolver.Proofs.Wire.Traces

/-!
# The round trip through JSON

Writing a type, a list of constraints, a substitution or a trace as a JSON text and reading the text
gives the same value back, if its number literals are finite and its text does not nest too deeply.
A literal that is infinite or a NaN is written as `null`, and reading that is an error in the data
(`notFinite`).  What a text is written for is the only thing that it is ever read as, however deeply
it nests.

One thing is taken from the caller: that a finite literal is read from its own text as the same
number (`Exchangeable`, and `readsBack` for one number).  Reading rounds twice where the digits and
the power of ten are both inexact, so this is a property of each literal.

The other way round, the constraints that some text stands for, whoever wrote it, are read again
from the text that is written for them.  And a batch that is given as a text has the outcome of the
batch itself.
-/

namespace TypeSolver

namespace Wire

open Json

/-- How a value fares that is written as a text and read again, where `finite` says whether all its
number literals are finite. -/
structure RoundTrips {α : Type} (parse : String → Except Error α) (value : Value) (finite : Bool)
    (a : α) : Prop where
  /-- finite literals: the text is read as what was written -/
  back : finite = true → value.depth < 128 → parse value.compact = .ok a
  /-- a literal that is not finite: an error in the data -/
  refused : finite = false → value.depth < 128 → parse value.compact = .error (.data notFinite)
  /-- at any depth: the text is not read as anything else -/
  only : ∀ b, parse value.compact = .ok b → finite = true ∧ b = a

/-- Reading back with enough room is all that a round trip takes. -/
lemma RoundTrips.of_read {α : Type} {read : Nat → Nat → List Char → Except Error (α × List Char)}
    (hgrows : GrowsWithRoom read) {value : Value} {finite : Bool} {a : α}
    (hread : ∀ limit room, value.depth ≤ room → (write value).length ≤ limit →
      read limit room (write value ++ []) = (liftData (checked finite a)).map (·, [])) :
    RoundTrips (parse read) value finite a := by
  have hparse : value.depth < 128 → parse read value.compact = liftData (checked finite a) :=
    fun hdepth => parse_compact (hread _ _ (Nat.le_of_lt_succ hdepth) (Nat.le_succ _))
  refine ⟨?_, ?_, ?_⟩
  · rintro rfl hdepth
    exact hparse hdepth
  · rintro rfl hdepth
    exact hparse hdepth
  · intro b hb
    have hwide := eq_ok_of_parse_compact hgrows
      (hread _ _ (Nat.le_add_left value.depth maxNesting) (Nat.le_succ _)) hb
    cases finite with
    | false => cases hwide
    | true =>
      cases hwide
      exact ⟨rfl, rfl⟩

lemma roundTrips_ofTy {t : Ty} (h : Exchangeable t) : RoundTrips parseTy (ofTy t) t.finite t :=
  .of_read growsWithRoom_readTy fun _ _ hroom hlimit => readTy_write h hroom hlimit []

lemma roundTrips_ofConstraints {cs : List Constraint}
    (h : ∀ c ∈ cs, ∀ t ∈ c.types, Exchangeable t) :
    RoundTrips parseConstraints (ofConstraints cs) (cs.all finiteConstraint) cs :=
  .of_read growsWithRoom_readConstraints fun _ _ hroom hlimit =>
    readConstraints_write h hroom hlimit []

lemma roundTrips_ofSubst {s : Subst} (h : ∀ b ∈ s.bindings, Exchangeable b.2) :
    RoundTrips parseSubst (ofSubst s) (s.bindings.all fun b => b.2.finite) s :=
  .of_read growsWithRoom_readSubst fun _ _ hroom hlimit => readSubst_write h hroom hlimit []

/-- A trace has no literals, and none nests too deeply. -/
lemma roundTrips_ofTrace {tr : Trace} (h : ∀ step ∈ tr.steps, step.index < Nat.pow 2 64) :
    RoundTrips parseTrace (ofTrace tr) true tr := by
  have hparse : parseTrace (ofTrace tr).compact = .ok tr :=
    parse_compact (readTrace_write h (depth_ofTrace_le tr) (Nat.le_succ _))
  refine ⟨fun _ _ => hparse, (by simp), fun b hb => ⟨rfl, ?_⟩⟩
  rw [hparse] at hb
  exact (Except.ok.inj hb).symm

/-- What a text stands for is read again from the text that is written for it. -/
lemma parseConstraints_again {text : String} {cs : List Constraint}
    (h : parseConstraints text = .ok cs)
    (hliterals : ∀ c ∈ cs, ∀ t ∈ c.types, literalsReadBack t = true)
    (hdepth : (ofConstraints cs).depth < 128) :
    parseConstraints (ofConstraints cs).compact = .ok cs := by
  have hproper := proper_of_parseConstraints h
  have hfinite : cs.all finiteConstraint = true :=
    List.all_eq_true.2 fun c hc => List.all_eq_true.2 fun t ht => (hproper c hc t ht).finite
  have hexchangeable : ∀ c ∈ cs, ∀ t ∈ c.types, Exchangeable t :=
    fun c hc t ht => ⟨(hproper c hc t ht).ordered, hliterals c hc t ht⟩
  exact (roundTrips_ofConstraints hexchangeable).back hfinite hdepth

end Wire

/-- The outcome of a batch depends on its source through the constraints only. -/
lemma Batch.solve_congr {source source' : Source}
    (h : source.constraints = source'.constraints) (depth : Nat) (config : Config) :
    solve depth config source = solve depth config source' := by
  rw [solve, solve, accepted, accepted, h]

open Wire

/-- Types, lists of constraints, substitutions and traces come back from their JSON texts, and a
literal that is not finite is an error in the data; constraints that some text stands for come back
from their own text; and solving a batch given as a text is solving the batch. -/
theorem json_round_trip :
    (∀ t : Ty, Exchangeable t → RoundTrips parseTy (ofTy t) t.finite t) ∧
    (∀ cs : List Constraint, (∀ c ∈ cs, ∀ t ∈ c.types, Exchangeable t) →
      RoundTrips parseConstraints (ofConstraints cs) (cs.all finiteConstraint) cs) ∧
    (∀ s : Subst, (∀ b ∈ s.bindings, Exchangeable b.2) →
      RoundTrips parseSubst (ofSubst s) (s.bindings.all fun b => b.2.finite) s) ∧
    (∀ tr : Trace, (∀ step ∈ tr.steps, step.index < Nat.pow 2 64) →
      RoundTrips parseTrace (ofTrace tr) true tr) ∧
    (∀ (text : String) (cs : List Constraint), parseConstraints text = .ok cs →
      (∀ c ∈ cs, ∀ t ∈ c.types, literalsReadBack t = true) → (ofConstraints cs).depth < 128 →
      parseConstraints (ofConstraints cs).compact = .ok cs) ∧
    (∀ (depth : Nat) (config : Config) (cs : List Constraint),
      (∀ c ∈ cs, ∀ t ∈ c.types, Exchangeable t) → cs.all finiteConstraint = true →
      (ofConstraints cs).depth < 128 →
      Batch.solve depth config (.text (ofConstraints cs).compact) =
        Batch.solve depth config (.list cs)) := by
  refine ⟨fun t => roundTrips_ofTy, fun cs => roundTrips_ofConstraints,
    fun s => roundTrips_ofSubst, fun tr => roundTrips_ofTrace,
    fun text cs => parseConstraints_again, fun depth config cs h hfinite hdepth => ?_⟩
  have hback := (roundTrips_ofConstraints h).back hfinite hdepth
  have hconstraints : (Source.text (ofConstraints cs).compact).constraints =
      (Source.list cs).constraints := congrArg (Except.mapError BatchError.json) hback
  exact Batch.solve_congr hconstraints depth config

/-- Names that have to be escaped or lie beyond ASCII, a NaN literal, bindings that are not in the
order of their names, a skipped step, and a text with blanks and with lists for objects.  Its
constraints are read again from their own text and solved from it. -/
theorem json_round_trip_of_awkward_names :
    parseTy (ofTy (.object [("\"\\\n", .numberLit ⟨0x3ff8000000000000⟩),
        ("é😀", .func [.var "\x01"] .boolean)])).compact =
      .ok (.object [("\"\\\n", .numberLit ⟨0x3ff8000000000000⟩),
        ("é😀", .func [.var "\x01"] .boolean)]) ∧
    parseConstraints
        (ofConstraints [.equals (.var "x") (.numberLit ⟨0x7ff8000000000000⟩)]).compact =
      .error (.data notFinite) ∧
    parseSubst (ofSubst (.ofList [("y", .var "x"), ("x", .string)])).compact =
      .ok (.ofList [("y", .var "x"), ("x", .string)]) ∧
    parseTrace (ofTrace ⟨[⟨0, .index, .skipped .missingField, []⟩]⟩).compact =
      .ok ⟨[⟨0, .index, .skipped .missingField, []⟩]⟩ ∧
    parseConstraints "[ [\"eq\", [\"var\", \"x\"], [\"num\"]] ]" =
      .ok [.equals (.var "x") .number] ∧
    parseConstraints (ofConstraints [.equals (.var "x") .number]).compact =
      .ok [.equals (.var "x") .number] ∧
    Batch.solve 9 Preset.standard.config
        (.text (ofConstraints [.equals (.var "x") .number]).compact) =
      Batch.solve 9 Preset.standard.config (.list [.equals (.var "x") .number]) ∧
    Batch.solve 9 Preset.standard.config
        (.text (ofConstraints [.equals (.var "x") .number]).compact) =
      .ok ⟨.single "x" .number, none⟩ := by
  obtain ⟨htype, hconstraints, hsubst, htrace, hagain, hsolve⟩ := json_round_trip
  have hread : parseConstraints "[ [\"eq\", [\"var\", \"x\"], [\"num\"]] ]" =
      .ok [.equals (.var "x") .number] := by
    have htext : "[ [\"eq\", [\"var\", \"x\"], [\"num\"]] ]".toList =
        ['[', ' ', '[', '"', 'e', 'q', '"', ',', ' ', '[', '"', 'v', 'a', 'r', '"', ',', ' ', '"',
          'x', '"', ']', ',', ' ', '[', '"', 'n', 'u', 'm', '"', ']', ']', ' ', ']'] := rfl
    rw [parseConstraints, parse, htext]
    rfl
  have hplain : Exchangeable (.var "x") ∧ Exchangeable .number ∧ Exchangeable .string :=
    ⟨⟨rfl, rfl⟩, ⟨rfl, rfl⟩, ⟨rfl, rfl⟩⟩
  have hequation : ∀ c ∈ [Constraint.equals (.var "x") .number], ∀ t ∈ c.types, Exchangeable t := by
    simp [Constraint.types, hplain]
  have hsolved := hsolve 9 Preset.standard.config _ hequation rfl (by decide +kernel)
  refine ⟨(htype _ ⟨by decide +kernel, by decide +kernel⟩).back (by decide +kernel)
    (by decide +kernel), (hconstraints _ ?_).refused rfl (by decide +kernel),
    (hsubst _ ?_).back rfl (by decide +kernel), (htrace _ ?_).back rfl (by decide +kernel), hread,
    hagain _ _ hread (fun c hc t ht => (hequation c hc t ht).literals) (by decide +kernel),
    hsolved, hsolved.trans rfl⟩
  · have hnan : Exchangeable (.numberLit ⟨0x7ff8000000000000⟩) := ⟨rfl, rfl⟩
    simp [Constraint.types, hplain, hnan]
  · show ∀ b ∈ [("y", Ty.var "x"), ("x", Ty.string)], Exchangeable b.2
    simp [hplain]
  · simp

end TypeSolver
