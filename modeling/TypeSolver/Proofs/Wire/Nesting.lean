import TypeSolver.Proofs.Wire.Types

/-!
# Nesting

How many containers may be opened inside one another decides only whether a text is read, never what
it is read as: with more room every text that was read is read as the same (`extends_readValue`, and
from it `extends_readEncoded` and `extends_readSubst`).  So what is known of a value that fits is of
use for one that does not: its text may be refused, but it is not read as something else
(`eq_ok_of_parse_compact`).
-/

namespace TypeSolver

namespace Json

/-! ## Readers that read more -/

/-- Whatever one reader reads, another reads as the same. -/
def Extends {α : Type} (read read' : List Char → Except Error (α × List Char)) : Prop :=
  ∀ cs found, read cs = .ok found → read' cs = .ok found

namespace Extends

variable {α κ σ : Type}

lemma readItems {item item' : List Char → Except Error (α × List Char)} (h : Extends item item')
    (limit : Nat) (first : Bool) (done : List α) :
    Extends (readItems item limit first done) (readItems item' limit first done) := by
  intro cs found hread
  induction limit generalizing first done cs with
  | zero => cases hread
  | succ limit ih =>
    obtain ⟨⟨more, after⟩, hnext, hread⟩ := bind_eq_ok.1 hread
    refine bind_eq_ok.2 ⟨_, hnext, ?_⟩
    cases more with
    | false => exact hread
    | true =>
      obtain ⟨⟨a, after⟩, ha, hread⟩ := bind_eq_ok.1 hread
      exact bind_eq_ok.2 ⟨_, h _ _ ha, ih false (a :: done) after hread⟩

lemma readMembers {member member' : σ → κ → List Char → Except Error (σ × List Char)}
    (h : ∀ s k, Extends (member s k) (member' s k))
    (name : List Char → Except Error (κ × List Char)) (limit : Nat) (first : Bool) (s : σ) :
    Extends (readMembers name member limit first s) (readMembers name member' limit first s) := by
  intro cs found hread
  induction limit generalizing first s cs with
  | zero => cases hread
  | succ limit ih =>
    obtain ⟨⟨more, after⟩, hnext, hread⟩ := bind_eq_ok.1 hread
    refine bind_eq_ok.2 ⟨_, hnext, ?_⟩
    cases more with
    | false => exact hread
    | true =>
      obtain ⟨⟨k, after⟩, hk, hread⟩ := bind_eq_ok.1 hread
      obtain ⟨⟨s₁, after⟩, hs, hread⟩ := bind_eq_ok.1 hread
      exact bind_eq_ok.2 ⟨_, hk, bind_eq_ok.2 ⟨_, h _ _ _ _ hs, ih false s₁ after hread⟩⟩

/-- A member whose value is read goes on alike. -/
lemma afterColon {β : Type} {read read' : List Char → Except Error (α × List Char)}
    (h : Extends read read') (next : α × List Char → Except Error (β × List Char)) :
    Extends (fun cs => afterColon read cs >>= next) (fun cs => afterColon read' cs >>= next) := by
  intro cs found hread
  obtain ⟨value, hvalue, hread⟩ := bind_eq_ok.1 hread
  obtain ⟨after, hmark, hvalue⟩ := bind_eq_ok.1 hvalue
  exact bind_eq_ok.2 ⟨value, bind_eq_ok.2 ⟨after, hmark, h _ _ hvalue⟩, hread⟩

end Extends

/-! ## Values -/

/-- What does not start with a container is read alike whatever the room is. -/
lemma readValue_eq_of_ne {limit room room' : Nat} {c : Char} {cs : List Char}
    (hc : isSpace c = false) (hbracket : c ≠ '[') (hbrace : c ≠ '\x7b') :
    readValue limit room (c :: cs) = readValue limit room' (c :: cs) := by
  unfold readValue
  rw [skipSpace_cons hc]
  simp only [hbracket, hbrace, if_false]

/-- With more room a value is read as the same. -/
lemma extends_readValue {limit room room' : Nat} (hroom : room ≤ room') :
    Extends (readValue limit room) (readValue limit room') := by
  induction room using Nat.strong_induction_on generalizing room' with
  | _ room ih =>
    intro cs found h
    obtain ⟨c, rest, hcs, hopens⟩ := starts_of_readValue h
    rw [← readValue_skipSpace, hcs] at h ⊢
    by_cases hcontainer : c = '[' ∨ c = '\x7b'
    · obtain ⟨room, rfl⟩ := hopens hcontainer
      obtain ⟨room', rfl⟩ : ∃ r, room' = r + 1 := ⟨room' - 1, by omega⟩
      have hinner : Extends (readValue limit room) (readValue limit room') :=
        ih room (Nat.lt_succ_self room) (Nat.le_of_succ_le_succ hroom)
      rcases hcontainer with rfl | rfl
      · rw [readValue_bracket] at h ⊢
        obtain ⟨items, hitems, h⟩ := bind_eq_ok.1 h
        exact bind_eq_ok.2 ⟨items, hinner.readItems _ _ _ _ _ hitems, h⟩
      · rw [readValue_brace] at h ⊢
        obtain ⟨members, hmembers, h⟩ := bind_eq_ok.1 h
        have hmember : ∀ done name,
            Extends (readPair limit room done name) (readPair limit room' done name) :=
          fun _ _ => hinner.afterColon _
        exact bind_eq_ok.2 ⟨members, Extends.readMembers hmember _ _ _ _ _ _ hmembers, h⟩
    · obtain ⟨hbracket, hbrace⟩ := not_or.1 hcontainer
      rw [← h]
      exact readValue_eq_of_ne (isSpace_of_skipSpace hcs) hbracket hbrace

lemma extends_readList {α : Type} {item : Nat → List Char → Except Error (α × List Char)}
    (hitem : ∀ {room room'}, room ≤ room' → Extends (item room) (item room'))
    {limit room room' : Nat} (hroom : room ≤ room') :
    Extends (readList item limit room) (readList item limit room') := by
  intro cs found h
  unfold readList at h
  split at h
  · cases h
  · rename_i hcs
    obtain ⟨room', rfl⟩ : ∃ r, room' = r + 1 := ⟨room' - 1, by omega⟩
    unfold readList
    rw [hcs]
    exact (hitem (Nat.le_of_succ_le_succ hroom)).readItems _ _ _ _ _ h
  · cases h

end Json

namespace Wire

open Json

/-! ## Types, constraints and substitutions -/

lemma extends_taggedMember {κ : Type} {f : Family κ} {limit room room' : Nat} (hroom : room ≤ room')
    (state : Option (Variant κ) × List (String × Value)) (name : String) :
    Extends (taggedMember f limit room state name) (taggedMember f limit room' state name) := by
  intro cs found h
  unfold taggedMember at h ⊢
  split at h
  · rename_i hname
    rw [if_pos hname]
    exact h
  · rename_i hname
    rw [if_neg hname]
    exact (extends_readValue hroom).afterColon _ _ _ h

lemma extends_read {κ : Type} (f : Family κ) {limit room room' : Nat} (hroom : room ≤ room') :
    Extends (f.read limit room) (f.read limit room') := by
  intro cs found h
  unfold Family.read at h
  split at h
  · cases h
  · cases h
  · rename_i hcs
    obtain ⟨room', rfl⟩ : ∃ r, room' = r + 1 := ⟨room' - 1, by omega⟩
    have hmember := @extends_taggedMember _ f limit _ _ (Nat.le_of_succ_le_succ hroom)
    obtain ⟨members, hmembers, h⟩ := bind_eq_ok.1 h
    unfold Family.read
    rw [hcs]
    exact bind_eq_ok.2 ⟨members, Extends.readMembers hmember _ _ _ _ _ _ hmembers, h⟩
  · rename_i hcs
    obtain ⟨room', rfl⟩ : ∃ r, room' = r + 1 := ⟨room' - 1, by omega⟩
    have hitem : Extends (readValue limit _) (readValue limit room') :=
      extends_readValue (Nat.le_of_succ_le_succ hroom)
    obtain ⟨⟨more, after⟩, hnext, h⟩ := bind_eq_ok.1 h
    unfold Family.read
    rw [hcs]
    refine bind_eq_ok.2 ⟨_, hnext, ?_⟩
    cases more with
    | false => cases h
    | true =>
      obtain ⟨v, hv, h⟩ := bind_eq_ok.1 h
      obtain ⟨items, hitems, h⟩ := bind_eq_ok.1 h
      exact bind_eq_ok.2 ⟨v, hv, bind_eq_ok.2 ⟨items, hitem.readItems _ _ _ _ _ hitems, h⟩⟩
  · cases h

lemma extends_readEncoded {κ α : Type} (f : Family κ)
    (build : κ → List (String × Part) → Except DataError α) {limit room room' : Nat}
    (hroom : room ≤ room') :
    Extends (readEncoded f build limit room) (readEncoded f build limit room') := by
  intro cs found h
  obtain ⟨value, hvalue, h⟩ := bind_eq_ok.1 h
  exact bind_eq_ok.2 ⟨value, extends_read f hroom _ _ hvalue, h⟩

lemma extends_readSubst {limit room room' : Nat} (hroom : room ≤ room') :
    Extends (readSubst limit room) (readSubst limit room') := by
  intro cs found h
  unfold readSubst at h
  split at h
  · cases h
  · rename_i hcs
    obtain ⟨room', rfl⟩ : ∃ r, room' = r + 1 := ⟨room' - 1, by omega⟩
    have hmember : ∀ s name,
        Extends (readBinding limit _ s name) (readBinding limit room' s name) := fun _ _ =>
      (extends_readEncoded typeFamily buildTy (Nat.le_of_succ_le_succ hroom)).afterColon _
    unfold readSubst
    rw [hcs]
    exact Extends.readMembers hmember _ _ _ _ _ _ h
  · cases h

/-- With more room, whatever is read is read as the same. -/
def GrowsWithRoom {α : Type} (read : Nat → Nat → List Char → Except Error (α × List Char)) :
    Prop :=
  ∀ limit ⦃room room' : Nat⦄, room ≤ room' → Extends (read limit room) (read limit room')

lemma growsWithRoom_readTy : GrowsWithRoom readTy := fun _ _ _ hroom =>
  extends_readEncoded typeFamily buildTy hroom

lemma growsWithRoom_readConstraints :
    GrowsWithRoom fun limit => readList (readConstraint limit) limit := fun _ _ _ hroom =>
  extends_readList (extends_readEncoded constraintFamily buildConstraint) hroom

lemma growsWithRoom_readSubst : GrowsWithRoom readSubst := fun _ _ _ hroom =>
  extends_readSubst hroom

/-! ## Whole texts -/

/-- What is read from the text of a value, if it fits. -/
lemma parse_compact {α : Type} {read : Nat → Nat → List Char → Except Error (α × List Char)}
    {v : Value} {result : Except Error α}
    (h : read ((write v).length + 1) maxNesting (write v ++ []) = result.map (·, [])) :
    parse read v.compact = result := by
  rw [List.append_nil] at h
  rw [parse, Value.compact, String.toList_ofList, readText, h]
  cases result <;> rfl

/-- The text of a value is read as nothing but what it would be read as with enough room. -/
lemma eq_ok_of_parse_compact {α : Type}
    {read : Nat → Nat → List Char → Except Error (α × List Char)} (hread : GrowsWithRoom read)
    {v : Value} {result : Except Error α}
    (hresult : read ((write v).length + 1) (maxNesting + v.depth) (write v ++ []) =
      result.map (·, [])) {a : α} (h : parse read v.compact = .ok a) : result = .ok a := by
  obtain ⟨⟨b, rest⟩, hb, h⟩ := bind_eq_ok.1 h
  have hwide := hread _ (Nat.le_add_right maxNesting v.depth) _ _ hb
  rw [List.append_nil] at hresult
  rw [Value.compact, String.toList_ofList, hresult] at hwide
  obtain ⟨c, rfl, hc⟩ := map_eq_ok.1 hwide
  cases hc
  exact h

end Wire

end TypeSolver
