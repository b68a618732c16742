import Mathlib.Data.List.Dedup
import TypeSolver.Proofs.Instance.Naming
import TypeSolver.Proofs.Subst.Binding
import TypeSolver.Proofs.Ty.Renaming

/-!
# What an instance renames

A variable may occur in many places of a type, and an instance renames it in some of them only.  So
what an instance does is said here place by place.  A path leads from a type down to one of its
parts, and `Ty.nameAt?` is the name of the variable at its end; no occurrence is left out
(`mentions_iff_exists_nameAt?`).  A path is *eligible* if it goes through slots of functions only,
and one step far unless nested renaming is on.

The names of an instance are those of the function, with fresh names at the ends of eligible paths
(`nameAt?_instantiate`).  One step is `nameAt?_renameSlot`, which says the same of a single slot, by
induction on the path.  From there it is a renaming of places and no longer of types:

* apart from names nothing has changed, and names have changed at the ends of eligible paths only;
* a fresh name stands where its variable stood, so places are linked as they were;
* the names that the instance lists are those at the ends of eligible paths;
* the renaming can be undone by a substitution.  That alone asks for fresh names that do not occur
  in the function, for a substitution cannot tell the places of a name apart.
-/

namespace TypeSolver

namespace Ty

variable {nested : Bool} {ρ : Name → Name} {n : Name} {t : Ty}

/-! ## Places in a type -/

/-- A step from a type to one of its parts. -/
inductive Edge where
  /-- to the parameter at a position -/
  | param (index : Nat)
  /-- to the result -/
  | result
  /-- to the type of the field at a position -/
  | field (index : Nat)
deriving DecidableEq

/-- Whether a step leads to a slot of a function. -/
def Edge.isSlot : Edge → Bool
  | param _ | result => true
  | field _ => false

/-- The part of a type that a step leads to. -/
def part? : Ty → Edge → Option Ty
  | func ps _, .param i => ps[i]?
  | func _ r, .result => some r
  | object fs, .field i => fs[i]?.map Prod.snd
  | _, _ => none

/-- The name of the variable at the end of a path, if there is one. -/
def nameAt? (t : Ty) : List Edge → Option Name
  | [] => t.varName?
  | e :: path => (t.part? e).bind fun u => u.nameAt? path

/-- A path through slots of functions only, to a slot of the first function unless nested slots
count too. -/
def Eligible (nested : Bool) (path : List Edge) : Prop :=
  path ≠ [] ∧ (∀ e ∈ path, e.isSlot = true) ∧ (nested = true ∨ path.length = 1)

instance (nested : Bool) (path : List Edge) : Decidable (Eligible nested path) :=
  inferInstanceAs (Decidable (_ ∧ _ ∧ _))

/-- The type with all its variables made one: what there is to it apart from names. -/
def shape (t : Ty) : Ty := t.rename fun _ => ""

lemma mem_slots_iff {ps : List Ty} {r u : Ty} :
    u ∈ r :: ps ↔ ∃ e, (func ps r).part? e = some u := by
  rw [List.mem_cons]
  constructor
  · rintro (rfl | hu)
    · exact ⟨.result, rfl⟩
    · obtain ⟨i, hi⟩ := List.mem_iff_getElem?.1 hu
      exact ⟨.param i, hi⟩
  · rintro ⟨e, he⟩
    cases e with
    | param i => exact .inr (List.mem_of_getElem? he)
    | result => exact .inl (Option.some.inj he).symm
    | field i => cases he

lemma exists_nameAt?_iff : (∃ path, t.nameAt? path = some n) ↔
    t.varName? = some n ∨ ∃ e u, t.part? e = some u ∧ ∃ path, u.nameAt? path = some n := by
  constructor
  · rintro ⟨_ | ⟨e, path⟩, hname⟩
    · exact .inl hname
    · obtain ⟨u, hpart, hname⟩ := Option.bind_eq_some_iff.1 hname
      exact .inr ⟨e, u, hpart, path, hname⟩
  · rintro (hname | ⟨e, u, hpart, path, hname⟩)
    · exact ⟨[], hname⟩
    · exact ⟨e :: path, Option.bind_eq_some_iff.2 ⟨u, hpart, hname⟩⟩

/-- A variable occurs in a type if it stands at the end of some path. -/
lemma mentions_iff_exists_nameAt? : t.mentions n = true ↔ ∃ path, t.nameAt? path = some n := by
  induction t using Ty.induction with
  | constant t ht =>
    rw [exists_nameAt?_iff, mentions_of_isConstant ht]
    cases t <;> simp_all [isConstant, varName?, part?]
  | var m =>
    rw [exists_nameAt?_iff, mentions_var]
    simp [varName?, part?]
  | func ps r ihps ihr =>
    have hparts : ∀ u ∈ r :: ps, (u.mentions n = true ↔ ∃ path, u.nameAt? path = some n) :=
      List.forall_mem_cons.2 ⟨ihr, ihps⟩
    have hmentions : (func ps r).mentions n = true ↔ ∃ u ∈ r :: ps, u.mentions n = true := by
      rw [mentions_func, or_comm, List.exists_mem_cons_iff]
    rw [exists_nameAt?_iff, hmentions]
    constructor
    · rintro ⟨u, hu, hn⟩
      obtain ⟨e, hpart⟩ := mem_slots_iff.1 hu
      exact .inr ⟨e, u, hpart, (hparts u hu).1 hn⟩
    · rintro (h | ⟨e, u, hpart, hn⟩)
      · cases h
      · have hu := mem_slots_iff.2 ⟨e, hpart⟩
        exact ⟨u, hu, (hparts u hu).2 hn⟩
  | object fs ihfs =>
    rw [exists_nameAt?_iff, mentions_object]
    constructor
    · rintro ⟨f, hf, hn⟩
      obtain ⟨i, hi⟩ := List.mem_iff_getElem?.1 hf
      exact .inr ⟨.field i, f.2, by rw [part?, hi, Option.map_some], (ihfs f hf).1 hn⟩
    · rintro (h | ⟨e, u, hpart, hn⟩)
      · cases h
      · cases e with
        | field i =>
          obtain ⟨f, hi, rfl⟩ := Option.map_eq_some_iff.1 hpart
          have hf := List.mem_of_getElem? hi
          exact ⟨f, hf, (ihfs f hf).2 hn⟩
        | _ => cases hpart

/-! ## One slot -/

/-- A path that starts at a slot and stays in slots, without a step unless nested slots count. -/
def StaysInSlots (nested : Bool) (path : List Edge) : Prop :=
  (∀ e ∈ path, e.isSlot = true) ∧ (nested = true ∨ path = [])

instance (nested : Bool) (path : List Edge) : Decidable (StaysInSlots nested path) :=
  inferInstanceAs (Decidable (_ ∧ _))

lemma staysInSlots_nil : StaysInSlots nested [] := ⟨by simp, .inr rfl⟩

lemma staysInSlots_cons {e : Edge} {path : List Edge} : StaysInSlots nested (e :: path) ↔
    e.isSlot = true ∧ nested = true ∧ StaysInSlots nested path := by
  cases nested <;> simp [StaysInSlots]

lemma eligible_cons {e : Edge} {path : List Edge} :
    Eligible nested (e :: path) ↔ e.isSlot = true ∧ StaysInSlots nested path := by
  simp [Eligible, StaysInSlots, and_assoc]

lemma varName?_renameSlot : (t.renameSlot ρ nested).varName? = t.varName?.map ρ := by
  cases t with
  | func ps r => cases nested <;> simp [renameSlot, varName?]
  | _ => simp [renameSlot, varName?]

/-- Only a function has slots. -/
lemma part?_eq_none (ht : t.kind ≠ .function) {e : Edge} (he : e.isSlot = true) :
    t.part? e = none := by
  cases t with
  | func ps r => exact absurd rfl ht
  | _ => cases e <;> simp_all [part?, Edge.isSlot]

lemma isSlot_of_part? {ps : List Ty} {r u : Ty} {e : Edge} (h : (func ps r).part? e = some u) :
    e.isSlot = true := by
  cases e with
  | field i => cases h
  | _ => rfl

lemma part?_func_map (f : Ty → Ty) (ps : List Ty) (r : Ty) (e : Edge) :
    (func (ps.map f) (f r)).part? e = ((func ps r).part? e).map f := by
  cases e with
  | param i => exact List.getElem?_map
  | _ => rfl

lemma renameSlot_of_not_func (ht : t.kind ≠ .function) (e : Edge) :
    (t.renameSlot ρ nested).part? e = t.part? e := by
  cases t with
  | func ps r => exact absurd rfl ht
  | var n => cases e <;> rfl
  | _ => rw [renameSlot_eq_self (by simp [slotNames])]

/-- Renaming a slot renames the variables at the ends of paths that stay in slots. -/
lemma nameAt?_renameSlot (path : List Edge) : (t.renameSlot ρ nested).nameAt? path =
    if StaysInSlots nested path then (t.nameAt? path).map ρ else t.nameAt? path := by
  induction path generalizing t with
  | nil => rw [if_pos staysInSlots_nil, nameAt?, nameAt?, varName?_renameSlot]
  | cons e path ih =>
    by_cases hfunc : t.kind = .function
    · obtain ⟨ps, r, rfl⟩ := kind_eq_function.1 hfunc
      cases nested with
      | false =>
        rw [renameSlot_of_shallow rfl, if_neg]
        exact fun h => Bool.noConfusion (staysInSlots_cons.1 h).2.1
      | true =>
        rw [renameSlot_func_nested, nameAt?, nameAt?, part?_func_map]
        cases hpart : (func ps r).part? e with
        | none => simp
        | some u =>
          have hslot := isSlot_of_part? hpart
          simp only [Option.map_some, Option.bind_some, ih, staysInSlots_cons, hslot, true_and]
    · rw [nameAt?, nameAt?, renameSlot_of_not_func hfunc]
      split
      · rename_i h
        rw [part?_eq_none hfunc (staysInSlots_cons.1 h).1]
        rfl
      · rfl

/-- The variables that are renamed in the slots of a function are those at the ends of eligible
paths, if the same is known of each slot. -/
lemma exists_slot_iff_exists_eligible {ps : List Ty} {r : Ty}
    (hslots : ∀ slot ∈ r :: ps, n ∈ slot.slotNames nested ↔
      ∃ path, StaysInSlots nested path ∧ slot.nameAt? path = some n) :
    (∃ slot ∈ r :: ps, n ∈ slot.slotNames nested) ↔
      ∃ path, Eligible nested path ∧ (func ps r).nameAt? path = some n := by
  constructor
  · rintro ⟨slot, hslot, hn⟩
    obtain ⟨e, he⟩ := mem_slots_iff.1 hslot
    obtain ⟨path, hstays, hname⟩ := (hslots slot hslot).1 hn
    refine ⟨e :: path, eligible_cons.2 ⟨isSlot_of_part? he, hstays⟩, ?_⟩
    rw [nameAt?, he, Option.bind_some, hname]
  · rintro ⟨path, heligible, hname⟩
    obtain ⟨e, path, rfl⟩ := List.exists_cons_of_ne_nil heligible.1
    obtain ⟨slot, he, hslotName⟩ := Option.bind_eq_some_iff.1 hname
    have hslot := mem_slots_iff.2 ⟨e, he⟩
    exact ⟨slot, hslot, (hslots slot hslot).2 ⟨path, (eligible_cons.1 heligible).2, hslotName⟩⟩

/-- The variables that are renamed in a slot are those at the ends of paths that stay in slots. -/
lemma mem_slotNames_iff : n ∈ t.slotNames nested ↔
    ∃ path, StaysInSlots nested path ∧ t.nameAt? path = some n := by
  -- what is no function has a variable in it only by being one
  have hleaf : ∀ u : Ty, u.kind ≠ .function → (n ∈ u.slotNames nested ↔
      ∃ path, StaysInSlots nested path ∧ u.nameAt? path = some n) := by
    intro u hu
    have hnames : u.slotNames nested = u.varName?.toList := by
      cases u <;> simp_all [slotNames, varName?, kind]
    rw [hnames, Option.mem_toList]
    refine ⟨fun h => ⟨[], staysInSlots_nil, h⟩, ?_⟩
    rintro ⟨path, hstays, hname⟩
    cases path with
    | nil => exact hname
    | cons e path =>
      rw [nameAt?, part?_eq_none hu (staysInSlots_cons.1 hstays).1] at hname
      cases hname
  induction t using Ty.induction with
  | constant t ht => exact hleaf t (by cases t <;> simp_all [isConstant, kind])
  | var m => exact hleaf _ (by simp [kind])
  | object fs _ => exact hleaf _ (by simp [kind])
  | func ps r ihps ihr =>
    have hroot : (func ps r).nameAt? [] = none := rfl
    cases nested with
    | false =>
      rw [slotNames_of_shallow rfl]
      refine iff_of_false List.not_mem_nil ?_
      rintro ⟨path, ⟨-, hnil⟩, hname⟩
      rw [hnil.resolve_left Bool.false_ne_true, hroot] at hname
      cases hname
    | true =>
      have hslots := exists_slot_iff_exists_eligible (List.forall_mem_cons.2 ⟨ihr, ihps⟩)
      rw [List.exists_mem_cons_iff] at hslots
      rw [mem_slotNames_func_nested, or_comm, hslots]
      refine exists_congr fun path => and_congr_left fun hname => ?_
      cases path with
      | nil =>
        rw [hroot] at hname
        cases hname
      | cons e path => rw [eligible_cons, staysInSlots_cons, and_iff_right rfl]

/-! ## Instances -/

section Instances

variable {names : FreshNames} {ps : List Ty} {r : Ty}

/-- An instance has fresh names at the ends of eligible paths, and elsewhere the names of the
function. -/
lemma nameAt?_instantiate (path : List Edge) :
    ((func ps r).instantiate nested names).1.type.nameAt? path =
      if Eligible nested path then ((func ps r).nameAt? path).map names.freshName
      else (func ps r).nameAt? path := by
  rw [instantiate_func]
  cases path with
  | nil =>
    rw [if_neg fun h => h.1 rfl]
    rfl
  | cons e path =>
    rw [nameAt?, nameAt?, part?_func_map]
    cases hpart : (func ps r).part? e with
    | none => simp
    | some u =>
      simp only [Option.map_some, Option.bind_some, nameAt?_renameSlot, eligible_cons,
        isSlot_of_part? hpart, true_and]

/-- The names that an instance introduces stand at the ends of its eligible paths. -/
lemma isSynthetic_iff_exists_eligible :
    ((func ps r).instantiate nested names).1.isSynthetic n = true ↔ ∃ path, Eligible nested path ∧
      ((func ps r).instantiate nested names).1.type.nameAt? path = some n := by
  have hnames : ∀ m, (∃ slot ∈ r :: ps, m ∈ slot.slotNames nested) ↔
      ∃ path, Eligible nested path ∧ (func ps r).nameAt? path = some m := fun m =>
    exists_slot_iff_exists_eligible fun _ _ => mem_slotNames_iff
  rw [isSynthetic_func]
  constructor
  · rintro ⟨slot, hslot, m, hm, rfl⟩
    obtain ⟨path, heligible, hname⟩ := (hnames m).1 ⟨slot, hslot, hm⟩
    exact ⟨path, heligible, by rw [nameAt?_instantiate, if_pos heligible, hname, Option.map_some]⟩
  · rintro ⟨path, heligible, hname⟩
    rw [nameAt?_instantiate, if_pos heligible] at hname
    obtain ⟨m, hm, rfl⟩ := Option.map_eq_some_iff.1 hname
    obtain ⟨slot, hslot, hslotName⟩ := (hnames m).2 ⟨path, heligible, hm⟩
    exact ⟨slot, hslot, m, hslotName, rfl⟩

/-! ## Undoing the renaming -/

variable {θ σ : Assignment}

/-- What an assignment makes of a renamed slot, if it gives the new names what another gives the old
ones and agrees with it on the names that were there. -/
lemma assign_renameSlot (hslot : ∀ n ∈ t.slotNames nested, θ (ρ n) = σ n)
    (hrest : ∀ n, t.mentions n = true → θ n = σ n) :
    (t.renameSlot ρ nested).assign θ = t.assign σ := by
  induction t using Ty.induction with
  | constant t ht => rw [renameSlot_of_isConstant ht, assign_eq_assign_iff.2 hrest]
  | var m => simpa using hslot m (by simp)
  | object fs _ => rw [renameSlot_eq_self (by simp [slotNames]), assign_eq_assign_iff.2 hrest]
  | func ps r ihps ihr =>
    cases nested with
    | false => rw [renameSlot_of_shallow rfl, assign_eq_assign_iff.2 hrest]
    | true =>
      have hresult : (r.renameSlot ρ true).assign θ = r.assign σ :=
        ihr (fun n hn => hslot n (mem_slotNames_func_nested.2 (.inr hn)))
          fun n hn => hrest n (mentions_func.2 (.inr hn))
      have hparams : ∀ p ∈ ps, (p.renameSlot ρ true).assign θ = p.assign σ := fun p hp =>
        ihps p hp (fun n hn => hslot n (mem_slotNames_func_nested.2 (.inl ⟨p, hp, hn⟩)))
          fun n hn => hrest n (mentions_func.2 (.inl ⟨p, hp, hn⟩))
      rw [renameSlot_func_nested, assign_func, assign_func, hresult, List.map_map]
      exact congrArg (func · _) (List.map_congr_left hparams)

lemma assign_type_instantiate (hslot : ∀ slot ∈ r :: ps, ∀ n ∈ slot.slotNames nested,
      θ (names.freshName n) = σ n) (hrest : ∀ n, (func ps r).mentions n = true → θ n = σ n) :
    ((func ps r).instantiate nested names).1.type.assign θ = (func ps r).assign σ := by
  have hslots : ∀ slot ∈ r :: ps,
      (slot.renameSlot names.freshName nested).assign θ = slot.assign σ := by
    intro slot hmem
    refine assign_renameSlot (hslot slot hmem) fun n hn => hrest n (mentions_func.2 ?_)
    rcases List.mem_cons.1 hmem with rfl | hps
    · exact .inr hn
    · exact .inl ⟨slot, hps, hn⟩
  rw [List.forall_mem_cons] at hslots
  rw [instantiate_func, assign_func, assign_func, hslots.1, List.map_map]
  exact congrArg (func · _) (List.map_congr_left hslots.2)

/-- The substitution that gives renamed variables their own names back. -/
def restoring (names : FreshNames) (renamed : List Name) : Subst where
  bindings := renamed.dedup.map fun n => (names.freshName n, .var n)
  nodup := by
    rw [List.map_map]
    exact (List.nodup_dedup renamed).map names.freshName_injective

lemma mem_bindings_restoring {renamed : List Name} {k : Name} {u : Ty} :
    (k, u) ∈ (restoring names renamed).bindings ↔
      ∃ m ∈ renamed, k = names.freshName m ∧ u = var m := by
  simp [restoring, eq_comm]

/-- If no fresh name occurs in the function, the renaming can be undone. -/
lemma exists_restoring
    (hfresh : ∀ k, ((func ps r).instantiate nested names).1.isSynthetic k = true →
      (func ps r).mentions k = false) :
    ∃ back : Subst, (∀ k, k ∈ back.names ↔
        ((func ps r).instantiate nested names).1.isSynthetic k = true) ∧
      back.apply ((func ps r).instantiate nested names).1.type = func ps r := by
  set back := restoring names ((r :: ps).flatMap (slotNames nested))
  have hbound : ∀ slot ∈ r :: ps, ∀ m ∈ slot.slotNames nested,
      (names.freshName m, var m) ∈ back.bindings := fun slot hslot m hm =>
    mem_bindings_restoring.2 ⟨m, List.mem_flatMap.2 ⟨slot, hslot, hm⟩, rfl, rfl⟩
  have hnames : ∀ k, k ∈ back.names ↔
      ((func ps r).instantiate nested names).1.isSynthetic k = true := by
    intro k
    rw [isSynthetic_func]
    constructor
    · intro hk
      obtain ⟨⟨k, u⟩, hmem, rfl⟩ := List.mem_map.1 hk
      obtain ⟨m, hm, hkm, -⟩ := mem_bindings_restoring.1 hmem
      obtain ⟨slot, hslot, hslotName⟩ := List.mem_flatMap.1 hm
      exact ⟨slot, hslot, m, hslotName, hkm.symm⟩
    · rintro ⟨slot, hslot, m, hm, rfl⟩
      exact List.mem_map.2 ⟨_, hbound slot hslot m hm, rfl⟩
  refine ⟨back, hnames, ?_⟩
  rw [Subst.apply_eq_assign, assign_type_instantiate (σ := var), assign_id]
  · intro slot hslot m hm
    exact Subst.toAssignment_of_mem (hbound slot hslot m hm)
  · -- a name of the function is none of the fresh ones, so it is not bound
    intro m hm
    have hunbound : m ∉ back.names := fun hmem => by
      rw [hfresh m ((hnames m).1 hmem)] at hm
      cases hm
    exact Subst.unresolved_iff.2 (.inl (Subst.get?_eq_none_iff.2 hunbound))

end Instances

/-- An instance of a function is the function with the variables at the ends of eligible paths
renamed.  Apart from names it is the same type, and names differ at the ends of eligible paths only.
Two such places have the same name in the instance exactly if they had the same in the function, and
the names at such places are the ones that the instance lists as its own.  If none of these occurs
in the function, a substitution of them turns the instance back into the function.  And if the
marker is not all digits, an instance and the next one, of whatever types, have no such name in
common. -/
theorem instantiate_renames_eligible (nested : Bool) (names : FreshNames) :
    (∀ F : Ty, F.kind = .function → ∀ i rest, F.instantiate nested names = (i, rest) →
      i.type.shape = F.shape ∧
      (∀ path, ¬ Eligible nested path → i.type.nameAt? path = F.nameAt? path) ∧
      (∀ p q, Eligible nested p → Eligible nested q →
        (i.type.nameAt? p = i.type.nameAt? q ↔ F.nameAt? p = F.nameAt? q)) ∧
      (∀ n, i.isSynthetic n = true ↔ ∃ p, Eligible nested p ∧ i.type.nameAt? p = some n) ∧
      ((∀ n, i.isSynthetic n = true → F.mentions n = false) →
        ∃ back : Subst, (∀ n, n ∈ back.names ↔ i.isSynthetic n = true) ∧ back.apply i.type = F)) ∧
    ((∃ c ∈ names.marker.toList, c.isDigit = false) → ∀ t u : Ty, ∀ n,
      (t.instantiate nested names).1.isSynthetic n = true →
      (u.instantiate nested (t.instantiate nested names).2).1.isSynthetic n = false) := by
  refine ⟨?_, ?_⟩
  · intro F hF i rest h
    obtain ⟨ps, r, rfl⟩ := kind_eq_function.1 hF
    obtain rfl : ((func ps r).instantiate nested names).1 = i := congrArg Prod.fst h
    refine ⟨?_, ?_, ?_, ?_, ?_⟩
    · exact assign_type_instantiate (fun _ _ _ _ => rfl) fun _ _ => rfl
    · intro path hpath
      rw [nameAt?_instantiate, if_neg hpath]
    · intro p q hp hq
      rw [nameAt?_instantiate, nameAt?_instantiate, if_pos hp, if_pos hq]
      exact (Option.map_injective names.freshName_injective).eq_iff
    · exact fun n => isSynthetic_iff_exists_eligible
    · exact exists_restoring
  · intro hmarker t u n h
    exact not_isSynthetic_of_next_ne hmarker (instantiate_names nested names t).1
      (next_lt_of_isSynthetic h).ne h

/-- One variable stands in a slot, in an object and in a nested slot. -/
def mixedPlaces : Ty :=
  func [var "x", object [("a", var "x")]] (func [var "y"] (var "x"))

/-- The instance renames the variable in the two slots and not in the object.  It can be undone, and
the next instance has other names. -/
theorem instantiate_renames_eligible_of_mixed_places :
    mixedPlaces.instantiate true ⟨"#", 3⟩ =
      (⟨func [var "x#3", object [("a", var "x")]] (func [var "y#3"] (var "x#3")),
        ["x#3", "y#3", "x#3"]⟩, ⟨"#", 4⟩) ∧
    ¬ Eligible true [.param 1, .field 0] ∧
    (mixedPlaces.instantiate true ⟨"#", 3⟩).1.type.nameAt? [.param 1, .field 0] = some "x" ∧
    (∀ n, (mixedPlaces.instantiate true ⟨"#", 3⟩).1.isSynthetic n = true →
      mixedPlaces.mentions n = false) ∧
    (∃ back : Subst, (∀ n, n ∈ back.names ↔
        (mixedPlaces.instantiate true ⟨"#", 3⟩).1.isSynthetic n = true) ∧
      back.apply (mixedPlaces.instantiate true ⟨"#", 3⟩).1.type = mixedPlaces) ∧
    (∃ c ∈ "#".toList, c.isDigit = false) ∧
    (mixedPlaces.instantiate true ⟨"#", 3⟩).1.isSynthetic "x#3" = true ∧
    (mixedPlaces.instantiate true (mixedPlaces.instantiate true ⟨"#", 3⟩).2).1.isSynthetic "x#3" =
      false := by
  have hfresh : ∀ n, (mixedPlaces.instantiate true ⟨"#", 3⟩).1.isSynthetic n = true →
      mixedPlaces.mentions n = false := by
    have hnames : ∀ n ∈ ["x#3", "y#3", "x#3"], mixedPlaces.mentions n = false := by decide
    exact fun n hn => hnames n (List.contains_iff_mem.1 hn)
  have hmarker : ∃ c ∈ "#".toList, c.isDigit = false := ⟨'#', by decide, rfl⟩
  obtain ⟨hfunction, hnext⟩ := instantiate_renames_eligible true ⟨"#", 3⟩
  obtain ⟨-, hkept, -, -, hback⟩ := hfunction mixedPlaces rfl _ _ rfl
  have hobject : ¬ Eligible true [.param 1, .field 0] := by decide
  exact ⟨rfl, hobject, hkept _ hobject, hfresh, hback hfresh, hmarker, by decide,
    hnext hmarker _ _ _ (by decide)⟩

end Ty

end TypeSolver
