import TypeSolver.Config.Document
import TypeSolver.Proofs.Outcome
import TypeSolver.Proofs.Yaml.Lexer

/-!
# Configurations survive a document

A configuration is written with every setting spelled out, and read through tokens, a tree and a
patch of the standard preset.  Each stage is followed for a written configuration: its text has the
tokens `Config.tokens` (`ofText_toYaml`), these make the tree `Config.node`, the tree is a document
with the current version and a patch for every setting (`ofNode?_node`), and the patch leaves
nothing of the preset (`config_document`).

The marker is the setting that could go wrong.  It may be any text without white space, so it may
look like nothing, a number or a comment; it has to come out as the text that it is.  Two facts
about the writer settle that: a text without gaps is taken for itself in whatever style it is
written (`isWritten_writeScalar`), and a text that is written plain is neither empty nor the word
for nothing (`option?_syntheticMarker`).

Reading ends with a check of the whole configuration, so an invalid one never comes back and the
round trip is an equivalence.
-/

namespace TypeSolver

open Yaml Yaml.Lexer

/-! ## Values -/

/-- What separates words in a document is white space. -/
lemma Text.isBlank_of_isGap {c : Char} (h : isGap c = true) : Text.isBlank c = true := by
  simp only [isGap, Yaml.isBlank, isBreak, Bool.or_eq_true, decide_eq_true_iff] at h
  rcases h with (rfl | rfl) | ((((rfl | rfl) | rfl) | rfl) | rfl) <;> decide

lemma Config.unbroken_syntheticMarker {c : Config} (h : c.validate = .ok ()) :
    Unbroken c.syntheticMarker.toList := by
  intro x hx
  rw [← Bool.not_eq_true]
  intro hgap
  have hany : c.syntheticMarker.toList.any Text.isBlank = true :=
    List.any_eq_true.2 ⟨x, hx, Text.isBlank_of_isGap hgap⟩
  simp [Config.validate, hany] at h
  split at h <;> cases h

lemma isIdentifier_toDigits (n : Nat) : IsIdentifier (Nat.toDigits 10 n) := by
  refine ⟨Nat.toDigits_ne_nil, fun c hc => .inl ?_⟩
  have hdigit : c.isDigit = true := Nat.isDigit_of_mem_toDigits (by decide) (by decide) hc
  simp [Char.isAlphanum, hdigit]

lemma digits?_toDigits (n : Nat) : digits? 10 (Nat.toDigits 10 n) = some n := by
  have hvalue : ∀ d < 10, digit? 10 (Nat.digitChar d) = some d := by decide
  rw [digits?]
  · exact foldlM_toDigits (by decide) hvalue n
  · exact Nat.toDigits_ne_nil

/-- A positive count reads back. -/
lemma nat?_toDigits {n bound : Nat} (hpos : 0 < n) (hbound : n < bound) :
    nat? bound (Nat.toDigits 10 n) = some n := by
  obtain ⟨c, cs, hcs, hzero⟩ := exists_cons_toDigits hpos
  have hplus : c ≠ '+' := by
    rintro rfl
    have hdigit : '+'.isDigit = true :=
      Nat.isDigit_of_mem_toDigits (by decide) (by decide) (hcs ▸ List.mem_cons_self)
    exact absurd hdigit (by decide)
  have hmagnitude : magnitude? (Nat.toDigits 10 n) = some n := by
    rw [hcs, magnitude?, if_neg (by simp [isPadded, hzero]), ← hcs, digits?_toDigits]
    all_goals simp [hzero]
  rw [hcs] at hmagnitude ⊢
  simp [nat?, hplus, hmagnitude, hbound]

namespace Config

variable {c : Config}

/-! ## The tree -/

/-- The scalars that a configuration is written with, by the names of its settings. -/
def scalars (c : Config) : List (String × String × Style) :=
  [("synthetic_marker", c.syntheticMarker, scalarStyle c.syntheticMarker),
    ("freshen_nested_functions", toString c.freshenNestedFunctions, .plain),
    ("record_trace", toString c.recordTrace, .plain),
    ("max_constraints", String.ofList (Nat.toDigits 10 c.maxConstraints), .plain)]

/-- The settings of a written configuration, as nodes by their names. -/
def settings (c : Config) : List (String × Node) :=
  c.scalars.map fun (name, text, style) => (name, .scalar text style none)

/-- The tree of a written configuration. -/
def node (c : Config) : Node :=
  .mapping [(.scalar "version" .plain none, .scalar "1" .plain none),
    (.scalar "solver" .plain none,
      .mapping (c.settings.map fun (name, value) => (.scalar name .plain none, value)))]

/-- The tokens of a setting. -/
def settingTokens : String × String × Style → List Token
  | (name, text, style) => [.key, .scalar name .plain, .value, .scalar text style]

/-- The tokens of a written configuration. -/
def tokens (c : Config) : List Token :=
  .blockStart :: (settingTokens ("version", "1", .plain) ++
    .key :: .scalar "solver" .plain :: .value :: .blockStart ::
      (c.scalars.flatMap settingTokens ++ [.blockEnd, .blockEnd]))

lemma ofTokens_tokens (c : Config) : Node.ofTokens c.tokens = some c.node := rfl

/-- A marker that is written plain is not the word for nothing. -/
lemma option?_syntheticMarker (c : Config) :
    Node.option? Node.text? (.scalar c.syntheticMarker (scalarStyle c.syntheticMarker) none) =
      some (some c.syntheticMarker) := by
  unfold scalarStyle
  split
  · rfl
  · split
    · rfl
    · rename_i hquotes
      rw [Bool.not_eq_true] at hquotes
      simp only [needsQuotes, isAmbiguous, Bool.or_eq_false_iff] at hquotes
      obtain ⟨⟨⟨⟨⟨⟨⟨⟨⟨⟨⟨hempty, hnull⟩, -⟩, -⟩, -⟩, -⟩, -⟩, -⟩, -⟩, -⟩, -⟩, -⟩ := hquotes
      have hne : c.syntheticMarker.isEmpty = false := by
        simpa using hempty
      simp [Node.option?, hne, hnull, Node.text?]

lemma option?_toString (b : Bool) :
    Node.option? Node.bool? (.scalar (toString b) .plain none) = some (some b) := by
  cases b <;> rfl

lemma option?_toDigits {n bound : Nat} (hpos : 0 < n) (hbound : n < bound) :
    Node.option? (Node.natBelow? bound) (.scalar (String.ofList (Nat.toDigits 10 n)) .plain none) =
      some (some n) := by
  have hdigits : (Nat.toDigits 10 n).all Char.isDigit = true :=
    List.all_eq_true.2 fun c hc => Nat.isDigit_of_mem_toDigits (by decide) (by decide) hc
  have hne : (String.ofList (Nat.toDigits 10 n)).isEmpty = false := by
    simp [Nat.toDigits_ne_nil]
  -- no word for nothing is made of digits
  have hnull : isNullWord (String.ofList (Nat.toDigits 10 n)) = false := by
    have hwords : ∀ word ∈ ["~", "null", "Null", "NULL"], word.toList.all Char.isDigit = false := by
      decide
    rw [isNullWord, List.contains_eq_mem, decide_eq_false_iff_not]
    intro hmem
    have hword := hwords _ hmem
    rw [String.toList_ofList, hdigits] at hword
    cases hword
  simp [Node.option?, hne, hnull, Node.natBelow?, isResolved, nat?_toDigits hpos hbound]

lemma maxConstraints_bounds (hc : c.validate = .ok ()) :
    0 < c.maxConstraints ∧ c.maxConstraints ≤ maxConstraintsCeiling := by
  unfold validate at hc
  split at hc
  · cases hc
  · split at hc
    · cases hc
    · split at hc
      · cases hc
      · rename_i hbounds
        simp only [Bool.or_eq_true, decide_eq_true_iff, not_or] at hbounds
        omega

/-- Every setting is spelled out, and read back as it is. -/
lemma patchOfNode?_settings (hc : c.validate = .ok ()) :
    Document.patchOfNode?
      (.mapping (c.settings.map fun (name, value) => (.scalar name .plain none, value))) =
      some c.toPatch := by
  obtain ⟨hpos, hle⟩ := maxConstraints_bounds hc
  have hfields : Node.fields?
      (.mapping (c.settings.map fun (name, value) => (.scalar name .plain none, value))) =
      some c.settings := rfl
  have hknown : Document.hasOnly
      ["synthetic_marker", "freshen_nested_functions", "record_trace", "max_constraints"]
      c.settings = true := rfl
  have hmarker : Document.setting? c.settings "synthetic_marker" Node.text? =
      some (some c.syntheticMarker) := option?_syntheticMarker c
  have hfreshen : Document.setting? c.settings "freshen_nested_functions" Node.bool? =
      some (some c.freshenNestedFunctions) := option?_toString c.freshenNestedFunctions
  have hrecord : Document.setting? c.settings "record_trace" Node.bool? =
      some (some c.recordTrace) := option?_toString c.recordTrace
  have hlimit : Document.setting? c.settings "max_constraints" (Node.natBelow? (Nat.pow 2 64)) =
      some (some c.maxConstraints) := option?_toDigits hpos (Nat.lt_of_le_of_lt hle (by decide))
  rw [Document.patchOfNode?, hfields]
  simp only [Option.bind_eq_bind, Option.bind_some, hknown, hmarker, hfreshen, hrecord, hlimit]
  rfl

lemma ofNode?_node (hc : c.validate = .ok ()) :
    Document.ofNode? c.node = some ⟨some 1, none, some c.toPatch⟩ := by
  let fields : List (String × Node) := [("version", .scalar "1" .plain none), ("solver",
    .mapping (c.settings.map fun (name, value) => (.scalar name .plain none, value)))]
  have hfields : c.node.fields? = some fields := rfl
  have hknown : Document.hasOnly ["version", "preset", "solver"] fields = true := rfl
  have hversion : Document.setting? fields "version" (Node.natBelow? (Nat.pow 2 32)) =
      some (some 1) := rfl
  have hpreset : Document.setting? fields "preset" Node.text? = some none := rfl
  have hsolver : Document.setting? fields "solver" Document.patchOfNode? =
      some (some c.toPatch) := congrArg (Option.map some) (patchOfNode?_settings hc)
  rw [Document.ofNode?, hfields]
  simp only [Option.bind_eq_bind, Option.bind_some, hknown, hversion, hpreset, hsolver]
  rfl

lemma config_document (hc : c.validate = .ok ()) :
    Document.config ⟨some 1, none, some c.toPatch⟩ = .ok c := by
  have hpatch : Preset.standard.config.patch c.toPatch = c := rfl
  have hconfig : Document.config ⟨some 1, none, some c.toPatch⟩ =
      (Preset.standard.config.patch c.toPatch).validate >>= fun _ =>
        .ok (Preset.standard.config.patch c.toPatch) := rfl
  rw [hconfig, hpatch, hc]
  rfl

/-! ## The text -/

/-- The lines of a written configuration, each with the indentation of the next. -/
lemma toList_toYaml (c : Config) :
    c.toYaml.toList =
      "version".toList ++ ':' :: ' ' :: (['1'] ++ '\n' :: (List.replicate 0 ' ' ++
        ("solver".toList ++ ':' :: '\n' :: (List.replicate 2 ' ' ++
          ("synthetic_marker".toList ++ ':' :: ' ' :: (writeScalar c.syntheticMarker ++ '\n' ::
            (List.replicate 2 ' ' ++ ("freshen_nested_functions".toList ++ ':' :: ' ' ::
              ((toString c.freshenNestedFunctions).toList ++ '\n' :: (List.replicate 2 ' ' ++
                ("record_trace".toList ++ ':' :: ' ' :: ((toString c.recordTrace).toList ++ '\n' ::
                  (List.replicate 2 ' ' ++ ("max_constraints".toList ++ ':' :: ' ' ::
                    (Nat.toDigits 10 c.maxConstraints ++ '\n' :: (List.replicate 0 ' ' ++
                      [])))))))))))))))) := by
  have hswitch : ∀ b, writeSwitch b = ' ' :: (toString b).toList := by decide
  have hversion : Nat.toDigits 10 1 = ['1'] := rfl
  simp only [toYaml, writeEntry, writeCount, hswitch, String.toList_ofList,
    Document.currentVersion, hversion, List.append_assoc, List.cons_append, List.nil_append,
    List.replicate_zero, Nat.mul_zero, Nat.mul_one]

lemma all_isAllowed_toYaml (c : Config) : c.toYaml.toList.all isAllowed = true := by
  have hnames : ∀ name ∈ ["version", "solver", "synthetic_marker", "freshen_nested_functions",
      "record_trace", "max_constraints"], name.toList.all isAllowed = true := by decide
  have hspaces : ∀ k, (List.replicate k ' ').all isAllowed = true := by
    intro k
    rw [List.all_replicate]
    split <;> rfl
  have hmarker : (writeScalar c.syntheticMarker).all isAllowed = true :=
    List.all_eq_true.2 fun x => isAllowed_of_mem_writeScalar
  have hswitch : ∀ b : Bool, (toString b).toList.all isAllowed = true := by decide
  have hdigits : (Nat.toDigits 10 c.maxConstraints).all isAllowed = true := by
    refine List.all_eq_true.2 fun x hx => isAllowed_of_isDigit ?_
    exact Nat.isDigit_of_mem_toDigits (by decide) (by decide) hx
  have hmarks : ∀ m ∈ [':', ' ', '\n', '1'], isAllowed m = true :=
    List.all_eq_true.1 (by decide)
  simp only [List.forall_mem_cons] at hnames hmarks
  simp only [toList_toYaml, List.all_append, List.all_cons, List.all_nil, hnames, hspaces, hmarker,
    hswitch, hdigits, hmarks, Bool.and_self]

/-- The text of a valid configuration has the tokens that spell it out. -/
lemma ofText_toYaml (hc : c.validate = .ok ()) : Token.ofText c.toYaml = some c.tokens := by
  have hmarker := isWritten_writeScalar (unbroken_syntheticMarker hc)
  have hswitch : ∀ b : Bool, IsWritten (toString b).toList (toString b) .plain := by
    intro b
    have hb : IsIdentifier (toString b).toList := by
      cases b <;> exact isIdentifier_of_all (by decide) (by decide)
    simpa using isWritten_plain hb.isPlain
  have hcount := fun n => isWritten_plain (isIdentifier_toDigits n).isPlain
  have hversion : IsWritten ['1'] "1" .plain := hcount 1
  obtain ⟨hname₁, hname₂, hname₃, hname₄, hname₅, hname₆⟩ :
      IsIdentifier "version".toList ∧ IsIdentifier "solver".toList ∧
        IsIdentifier "synthetic_marker".toList ∧ IsIdentifier "freshen_nested_functions".toList ∧
        IsIdentifier "record_trace".toList ∧ IsIdentifier "max_constraints".toList := by
    refine ⟨?_, ?_, ?_, ?_, ?_, ?_⟩ <;> exact isIdentifier_of_all (by decide) (by decide)
  obtain ⟨limit, hlimit⟩ : ∃ limit, c.toYaml.toList.length + 1 = limit + 18 := by
    refine ⟨c.toYaml.toList.length - 17, ?_⟩
    have hlength := congrArg List.length c.toList_toYaml
    simp only [List.length_append, List.length_cons, List.length_replicate] at hlength
    have hname : "version".toList.length + "freshen_nested_functions".toList.length = 31 := rfl
    omega
  -- one line after the other, from the start of the text to its end
  have hstart : Awaits ⟨.start c.toYaml.toList, [], true, none, [], []⟩ c.toYaml.toList 0 [] [] :=
    awaits_start (c.toList_toYaml ▸ endsGap_cons rfl (by decide) (by decide))
  nth_rewrite 2 [c.toList_toYaml] at hstart
  have hgap : ∀ {name rest : List Char}, IsIdentifier name → EndsGap (name ++ rest) :=
    fun h => endsGap_plain h.isPlain
  obtain ⟨s₁, hrun₁, h₁⟩ := reaches_entry hstart hname₁ (by decide) hversion rfl (by simp) le_rfl
    (hgap hname₂)
  obtain ⟨s₂, hrun₂, h₂⟩ := reaches_section h₁ hname₂ (by decide) (by simp) (hgap hname₃)
  obtain ⟨s₃, hrun₃, h₃⟩ := reaches_entry h₂ hname₃ (by decide) hmarker rfl (by decide) le_rfl
    (hgap hname₄)
  obtain ⟨s₄, hrun₄, h₄⟩ := reaches_entry h₃ hname₄ (by decide) (hswitch _) rfl (by decide) le_rfl
    (hgap hname₅)
  obtain ⟨s₅, hrun₅, h₅⟩ := reaches_entry h₄ hname₅ (by decide) (hswitch _) rfl (by decide) le_rfl
    (hgap hname₆)
  obtain ⟨s₆, hrun₆, h₆⟩ := reaches_entry h₅ hname₆ (by decide) (hcount _) rfl (by decide)
    (Nat.zero_le _) endsGap_nil
  have hrun := ((((hrun₁.trans hrun₂).trans hrun₃).trans hrun₄).trans hrun₅).trans hrun₆
  rw [Token.ofText, if_pos c.all_isAllowed_toYaml, hlimit]
  exact (hrun (limit + 1)).trans (run_end h₆)

/-! ## There and back -/

lemma ofYaml_toYaml (hc : c.validate = .ok ()) : ofYaml c.toYaml = .ok c := by
  have hdocument : Document.ofText? c.toYaml = some ⟨some 1, none, some c.toPatch⟩ := by
    have htree : Node.ofText c.toYaml = some c.node := by
      rw [Node.ofText, ofText_toYaml hc, Option.bind_eq_bind, Option.bind_some, ofTokens_tokens]
    rw [Document.ofText?, htree, Option.bind_eq_bind, Option.bind_some, ofNode?_node hc]
  rw [ofYaml, hdocument]
  exact config_document hc

/-- A document never asks for an invalid configuration. -/
lemma validate_of_config {document : Document} (h : document.config = .ok c) :
    c.validate = .ok () := by
  have hchecked : ∀ config : Config, (config.validate >>= fun _ => .ok config) = .ok c →
      c.validate = .ok () := by
    intro config h
    obtain ⟨⟨⟩, hvalid, hconfig⟩ := bind_eq_ok.1 h
    cases hconfig
    exact hvalid
  unfold Document.config at h
  dsimp only at h
  split at h
  · cases h
  · split at h
    · cases h
    · split at h
      · obtain ⟨preset, -, h⟩ := bind_eq_ok.1 h
        exact hchecked _ h
      · exact hchecked _ h

/-- **Round trip.**  The text of a configuration asks for that configuration exactly if it is valid,
whatever its marker looks like in a document. -/
theorem ofYaml_toYaml_eq_ok_iff (c : Config) :
    ofYaml c.toYaml = .ok c ↔ c.validate = .ok () := by
  refine ⟨fun h => ?_, ofYaml_toYaml⟩
  unfold ofYaml at h
  split at h
  · exact validate_of_config h
  · cases h

example : writeScalar "null" = "'null'".toList ∧ writeScalar "a#'" = "a#'".toList := by decide

end Config

end TypeSolver
