import TypeSolver.Proofs.Wire.Types

/-!
# What is accepted

The types that a text is read as have their objects in order and their literals finite, whatever the
text: fields that are out of order or repeated are put in order while a type is built, and a numeral
that is too large is an error.  So whatever is accepted can be written again, and if its literals
read back it is accepted again as the same (`parseConstraints_again`).

The invariant travels with the data: from the numbers of a value (`numbers_of_readValue`) to the
body of a tagged value (`Body.Finite`), to its parts (`Part.Proper`), and to the type or constraint
that is built from them (`Ty.Proper`).
-/

namespace TypeSolver

/-- A type as it comes out of a text: its objects are in order and its literals are finite. -/
structure Ty.Proper (t : Ty) : Prop where
  ordered : t.ordered = true
  finite : t.finite = true

namespace Ty

lemma Proper.func {ps : List Ty} {r : Ty} (hps : ∀ p ∈ ps, p.Proper) (hr : r.Proper) :
    (Ty.func ps r).Proper :=
  ⟨every_func.2 ⟨rfl, fun p hp => (hps p hp).ordered, hr.ordered⟩,
    every_func.2 ⟨rfl, fun p hp => (hps p hp).finite, hr.finite⟩⟩

/-- However the fields are given, the object that they make is in order. -/
lemma Proper.ofFields {fs : List (String × Ty)} (hfs : ∀ f ∈ fs, f.2.Proper) :
    (Ty.ofFields fs).Proper := by
  obtain ⟨gs, heq, hpairwise, hmem⟩ := ofFields_eq fs
  rw [heq]
  exact ⟨every_object.2 ⟨decide_eq_true hpairwise, fun g hg => (hfs g (hmem g hg)).ordered⟩,
    every_object.2 ⟨rfl, fun g hg => (hfs g (hmem g hg)).finite⟩⟩

end Ty

namespace Wire

open Json

lemma of_liftData {α : Type} {x : Except DataError α} {a : α} (h : liftData x = .ok a) :
    x = .ok a := by
  cases x with
  | error e => cases h
  | ok b =>
    cases h
    rfl

/-! ## Parts -/

/-- The number, or every type, in a part is as it comes out of a text. -/
def Part.Proper : Part → Prop
  | .number x => x.isFinite = true
  | .text _ => True
  | .flag _ => True
  | .type t => t.Proper
  | .types ts => ∀ t ∈ ts, t.Proper
  | .fields fs => ∀ f ∈ fs, f.2.Proper

/-- Every number in a value is finite. -/
def FiniteValue (v : Value) : Prop := v.Numbers fun n => n.toDouble.isFinite = true

/-- Every number in a body is finite. -/
def Body.Finite : Body → Prop
  | .members ms => ∀ m ∈ ms, FiniteValue m.2
  | .items vs => ∀ v ∈ vs, FiniteValue v

lemma exists_of_mem_mapM {ε α β : Type} {f : α → Except ε β} {as : List α} {bs : List β}
    (h : as.mapM f = .ok bs) : ∀ b ∈ bs, ∃ a ∈ as, f a = .ok b := by
  induction as generalizing bs with
  | nil =>
    cases h
    simp
  | cons a as ih =>
    rw [List.mapM_cons] at h
    obtain ⟨b, hb, h⟩ := bind_eq_ok.1 h
    obtain ⟨bs, hbs, h⟩ := bind_eq_ok.1 h
    cases h
    rintro c (_ | ⟨_, hc⟩)
    · exact ⟨a, List.mem_cons_self, hb⟩
    · obtain ⟨a, ha, hac⟩ := ih hbs c hc
      exact ⟨a, List.mem_cons_of_mem _ ha, hac⟩

section Parts

variable {type : Value → Except DataError Ty}
  (htype : ∀ {v t}, FiniteValue v → type v = .ok t → t.Proper)

include htype

lemma proper_of_partOfValue {shape : Shape} {v : Value} {part : Part} (hv : FiniteValue v)
    (h : partOfValue type shape v = .ok part) : part.Proper := by
  unfold partOfValue at h
  split at h <;> try cases h
  · cases hv with
    | number hn => exact hn
  · trivial
  · trivial
  · obtain ⟨t, ht, rfl⟩ := map_eq_ok.1 h
    exact htype hv ht
  · obtain ⟨ts, hts, rfl⟩ := map_eq_ok.1 h
    cases hv with
    | array hvs =>
      intro t ht
      obtain ⟨u, hu, hut⟩ := exists_of_mem_mapM hts t ht
      exact htype (hvs u hu) hut
  · obtain ⟨fs, hfs, rfl⟩ := map_eq_ok.1 h
    cases hv with
    | object hms =>
      intro f hf
      obtain ⟨m, hm, hmf⟩ := exists_of_mem_mapM hfs f hf
      obtain ⟨t, ht, rfl⟩ := map_eq_ok.1 hmf
      exact htype (hms m hm) ht

lemma proper_of_partsOfMembers {shapes : List (String × Shape)} {done parts : List (String × Part)}
    {ms : List (String × Value)} (hms : ∀ m ∈ ms, FiniteValue m.2)
    (h : partsOfMembers type shapes done ms = .ok parts) (hdone : ∀ p ∈ done, p.2.Proper) :
    ∀ p ∈ parts, p.2.Proper := by
  induction ms generalizing done with
  | nil =>
    cases h
    exact hdone
  | cons m ms ih =>
    obtain ⟨hm, hms⟩ := List.forall_mem_cons.1 hms
    rw [partsOfMembers] at h
    split at h
    · exact ih hms h hdone
    · split at h
      · cases h
      · obtain ⟨part, hpart, h⟩ := bind_eq_ok.1 h
        refine ih hms h fun p hp => ?_
        rcases List.mem_append.1 hp with hp | hp
        · exact hdone p hp
        · rw [List.mem_singleton.1 hp]
          exact proper_of_partOfValue htype hm hpart

lemma proper_of_partsOfItems {tooShort : String} {count : Nat} {shapes : List (String × Shape)}
    {vs : List Value} {parts : List (String × Part)} (hvs : ∀ v ∈ vs, FiniteValue v)
    (h : partsOfItems type tooShort count shapes vs = .ok parts) : ∀ p ∈ parts, p.2.Proper := by
  induction shapes generalizing count vs parts with
  | nil =>
    cases vs with
    | nil =>
      cases h
      simp
    | cons v vs => cases h
  | cons shape shapes ih =>
    cases vs with
    | nil => cases h
    | cons v vs =>
      obtain ⟨hv, hvs⟩ := List.forall_mem_cons.1 hvs
      obtain ⟨part, hpart, h⟩ := bind_eq_ok.1 h
      obtain ⟨rest, hrest, h⟩ := bind_eq_ok.1 h
      cases h
      exact List.forall_mem_cons.2 ⟨proper_of_partOfValue htype hv hpart, ih hvs hrest⟩

lemma proper_of_partsOfBody {κ : Type} {v : Variant κ} {body : Body} {parts : List (String × Part)}
    (hbody : body.Finite) (h : partsOfBody type v body = .ok parts) :
    ∀ p ∈ parts, p.2.Proper := by
  cases body with
  | members ms => exact proper_of_partsOfMembers htype hbody h (by simp)
  | items vs => exact proper_of_partsOfItems htype hbody h

end Parts

section Build

variable {parts : List (String × Part)} (hparts : ∀ p ∈ parts, p.2.Proper)

include hparts

lemma exists_of_needPart {α : Type} {name : String} {pick : Part → Option α} {a : α}
    (h : needPart parts name pick = .ok a) : ∃ part : Part, part.Proper ∧ pick part = some a := by
  unfold needPart at h
  split at h
  · rename_i b hb
    cases h
    obtain ⟨part, hpart, hpick⟩ := Option.bind_eq_some_iff.1 hb
    obtain ⟨_, _, rfl, -⟩ := List.lookup_eq_some_iff.1 hpart
    exact ⟨part, hparts (name, part) (by simp), hpick⟩
  · cases h

lemma proper_of_needType {name : String} {t : Ty} (h : needType parts name = .ok t) : t.Proper := by
  obtain ⟨part, hpart, hpick⟩ := exists_of_needPart hparts h
  cases part <;> cases hpick
  exact hpart

lemma proper_of_needTypes {name : String} {ts : List Ty} (h : needTypes parts name = .ok ts) :
    ∀ t ∈ ts, t.Proper := by
  obtain ⟨part, hpart, hpick⟩ := exists_of_needPart hparts h
  cases part <;> cases hpick
  exact hpart

lemma proper_of_buildTy {kind : Kind} {t : Ty} (h : buildTy kind parts = .ok t) : t.Proper := by
  cases kind with
  | number => cases h; exact ⟨rfl, rfl⟩
  | string => cases h; exact ⟨rfl, rfl⟩
  | boolean => cases h; exact ⟨rfl, rfl⟩
  | numberLit =>
    obtain ⟨x, hx, h⟩ := bind_eq_ok.1 h
    cases h
    obtain ⟨part, hpart, hpick⟩ := exists_of_needPart hparts hx
    cases part <;> cases hpick
    exact ⟨rfl, hpart⟩
  | function =>
    obtain ⟨ps, hps, h⟩ := bind_eq_ok.1 h
    obtain ⟨r, hr, h⟩ := bind_eq_ok.1 h
    cases h
    exact .func (proper_of_needTypes hparts hps) (proper_of_needType hparts hr)
  | object =>
    obtain ⟨fs, hfs, h⟩ := bind_eq_ok.1 h
    cases h
    obtain ⟨part, hpart, hpick⟩ := exists_of_needPart hparts hfs
    cases part <;> cases hpick
    exact .ofFields hpart
  | _ =>
    -- the other kinds have a text or a truth value as their part
    obtain ⟨_, -, h⟩ := bind_eq_ok.1 h
    cases h
    exact ⟨rfl, rfl⟩

lemma proper_of_buildConstraint {kind : ConstraintKind} {c : Constraint}
    (h : buildConstraint kind parts = .ok c) : ∀ t ∈ c.types, t.Proper := by
  cases kind with
  | equals =>
    obtain ⟨l, hl, h⟩ := bind_eq_ok.1 h
    obtain ⟨r, hr, h⟩ := bind_eq_ok.1 h
    cases h
    simpa [Constraint.types] using ⟨proper_of_needType hparts hl, proper_of_needType hparts hr⟩
  | apply =>
    obtain ⟨f, hf, h⟩ := bind_eq_ok.1 h
    obtain ⟨args, hargs, h⟩ := bind_eq_ok.1 h
    obtain ⟨r, hr, h⟩ := bind_eq_ok.1 h
    cases h
    simpa [Constraint.types] using ⟨proper_of_needType hparts hf, proper_of_needType hparts hr,
      proper_of_needTypes hparts hargs⟩
  | concat =>
    obtain ⟨a, ha, h⟩ := bind_eq_ok.1 h
    obtain ⟨b, hb, h⟩ := bind_eq_ok.1 h
    obtain ⟨r, hr, h⟩ := bind_eq_ok.1 h
    cases h
    simpa [Constraint.types] using ⟨proper_of_needType hparts ha, proper_of_needType hparts hb,
      proper_of_needType hparts hr⟩
  | index =>
    obtain ⟨o, ho, h⟩ := bind_eq_ok.1 h
    obtain ⟨f, hf, h⟩ := bind_eq_ok.1 h
    obtain ⟨r, hr, h⟩ := bind_eq_ok.1 h
    cases h
    simpa [Constraint.types] using ⟨proper_of_needType hparts ho, proper_of_needType hparts hf,
      proper_of_needType hparts hr⟩

end Build

/-! ## Types in a tree -/

lemma finite_of_splitMembers {κ : Type} {f : Family κ} {tag : Option (Variant κ)}
    {done ms : List (String × Value)} {found : Variant κ × Body} (hms : ∀ m ∈ ms, FiniteValue m.2)
    (h : f.splitMembers tag done ms = .ok found) (hdone : ∀ m ∈ done, FiniteValue m.2) :
    found.2.Finite := by
  induction ms generalizing tag done with
  | nil =>
    cases tag with
    | none => cases h
    | some v =>
      cases h
      exact fun m hm => hdone m (List.mem_reverse.1 hm)
  | cons m ms ih =>
    obtain ⟨hm, hms⟩ := List.forall_mem_cons.1 hms
    unfold Family.splitMembers at h
    split at h
    · cases tag with
      | none =>
        obtain ⟨v, -, h⟩ := bind_eq_ok.1 h
        exact ih hms h hdone
      | some v => cases h
    · exact ih hms h (List.forall_mem_cons.2 ⟨hm, hdone⟩)

lemma finite_of_split {κ : Type} {f : Family κ} {v : Value} {found : Variant κ × Body}
    (hv : FiniteValue v) (h : f.split v = .ok found) : found.2.Finite := by
  unfold Family.split at h
  split at h
  · cases hv with
    | object hms => exact finite_of_splitMembers hms h (by simp)
  · cases h
  · obtain ⟨variant, -, h⟩ := bind_eq_ok.1 h
    cases h
    cases hv with
    | array hvs => exact fun v hv => hvs v (List.mem_cons_of_mem _ hv)
  · cases h

lemma proper_of_tyOfValueWithin {depth : Nat} {v : Value} {t : Ty} (hv : FiniteValue v)
    (h : tyOfValueWithin depth v = .ok t) : t.Proper := by
  induction depth generalizing v t with
  | zero => cases h
  | succ depth ih =>
    obtain ⟨⟨variant, body⟩, hsplit, h⟩ := bind_eq_ok.1 h
    obtain ⟨parts, hparts, h⟩ := bind_eq_ok.1 h
    exact proper_of_buildTy (proper_of_partsOfBody ih (finite_of_split hv hsplit) hparts) h

/-! ## Constraints in a text -/

lemma finite_of_taggedMember {κ : Type} {f : Family κ} {limit room : Nat}
    {state state' : Option (Variant κ) × List (String × Value)} {name : String}
    {cs rest : List Char} (hstate : ∀ m ∈ state.2, FiniteValue m.2)
    (h : taggedMember f limit room state name cs = .ok (state', rest)) :
    ∀ m ∈ state'.2, FiniteValue m.2 := by
  unfold taggedMember at h
  split at h
  · split at h
    · cases h
    · obtain ⟨⟨v, after⟩, -, h⟩ := bind_eq_ok.1 h
      cases h
      exact hstate
  · obtain ⟨⟨v, after⟩, hvalue, h⟩ := bind_eq_ok.1 h
    cases h
    obtain ⟨_, hvalue⟩ := of_afterColon hvalue
    exact List.forall_mem_cons.2 ⟨numbers_of_readValue hvalue, hstate⟩

/-- The body of a tagged value in a text has finite numbers only. -/
lemma finite_of_read {κ : Type} {f : Family κ} {limit room : Nat} {cs rest : List Char}
    {found : Variant κ × Body} (h : f.read limit room cs = .ok (found, rest)) :
    found.2.Finite := by
  unfold Family.read at h
  split at h
  · cases h
  · cases h
  · obtain ⟨⟨⟨tag, done⟩, after⟩, hread, h⟩ := bind_eq_ok.1 h
    have hdone : ∀ m ∈ done, FiniteValue m.2 :=
      of_readMembers (P := fun state : Option (Variant κ) × List (String × Value) =>
        ∀ m ∈ state.2, FiniteValue m.2) finite_of_taggedMember hread (by simp)
    dsimp only at h
    split at h
    · cases h
      exact fun m hm => hdone m (List.mem_reverse.1 hm)
    · cases h
  · obtain ⟨⟨more, after⟩, -, h⟩ := bind_eq_ok.1 h
    dsimp only at h
    split at h
    · obtain ⟨⟨v, after⟩, -, h⟩ := bind_eq_ok.1 h
      obtain ⟨⟨items, after⟩, hitems, h⟩ := bind_eq_ok.1 h
      cases h
      exact forall_of_readItems numbers_of_readValue hitems (by simp)
    · cases h
  · cases h

lemma proper_of_readConstraint {limit room : Nat} {cs rest : List Char} {c : Constraint}
    (h : readConstraint limit room cs = .ok (c, rest)) : ∀ t ∈ c.types, t.Proper := by
  obtain ⟨⟨⟨variant, body⟩, after⟩, hread, h⟩ := bind_eq_ok.1 h
  obtain ⟨parts, hparts, h⟩ := bind_eq_ok.1 h
  obtain ⟨found, hbuild, h⟩ := bind_eq_ok.1 h
  cases h
  exact proper_of_buildConstraint (proper_of_partsOfBody proper_of_tyOfValueWithin
    (finite_of_read hread) (of_liftData hparts)) (of_liftData hbuild)

/-- Every type in a list of constraints that a text stands for is proper. -/
lemma proper_of_parseConstraints {text : String} {cs : List Constraint}
    (h : parseConstraints text = .ok cs) : ∀ c ∈ cs, ∀ t ∈ c.types, t.Proper := by
  obtain ⟨⟨found, rest⟩, hread, h⟩ := bind_eq_ok.1 h
  obtain rfl : found = cs := by
    dsimp only at h
    split at h <;> cases h
    rfl
  dsimp only [readList] at hread
  split at hread
  · cases hread
  · exact forall_of_readItems proper_of_readConstraint hread (by simp)
  · cases hread

end Wire

end TypeSolver
