import TypeSolver.Instance
import TypeSolver.Proofs.Ty.Parts

/-!
# The slots of an instance

The slots of a function are its result and its parameters.  An instance renames the variables that
stand in a slot; what else stands there it leaves as it is, unless it is a function and nested
renaming is on.

The renaming is a function of the name alone, and one to one within a generation
(`FreshNames.freshName_injective`), so an instance links the slots that the function links and no
others.  It is not an assignment: the same name inside an object, or inside a function when nested
renaming is off, stays.  `Ty.fill` is what an assignment makes of a function when the names that
instances rename get values of their own, and `assign_instantiate` says that this is what an
assignment makes of an instance.
-/

namespace TypeSolver

variable {nested : Bool} {ρ : Name → Name} {M : Name → Prop} {n : Name} {t : Ty}

/-- The name that the next instance gives to a variable in a slot. -/
def FreshNames.freshName (names : FreshNames) (n : Name) : Name := names.nameFor n names.next

lemma FreshNames.freshName_injective (names : FreshNames) :
    Function.Injective names.freshName := by
  intro m n h
  simpa [freshName, nameFor] using h

namespace Ty

/-! ## Renaming -/

lemma renameSlots_eq_map (ts : List Ty) :
    renameSlots ρ nested ts = ts.map (renameSlot ρ nested) := by
  induction ts with
  | nil => rfl
  | cons t ts ih => simp [renameSlots, ih]

lemma mem_slotNamesList {ts : List Ty} :
    n ∈ slotNamesList nested ts ↔ ∃ t ∈ ts, n ∈ t.slotNames nested := by
  induction ts with
  | nil => simp [slotNamesList]
  | cons t ts ih => simp [slotNamesList, ih]

@[simp] lemma renameSlot_var : (var n).renameSlot ρ nested = var (ρ n) := by
  simp [renameSlot]

@[simp] lemma slotNames_var : (var n).slotNames nested = [n] := by
  simp [slotNames]

lemma slotNamesList_vars (ps : List Name) : slotNamesList nested (ps.map var) = ps := by
  induction ps with
  | nil => rfl
  | cons p ps ih => rw [List.map_cons, slotNamesList, slotNames_var, ih, List.singleton_append]

lemma renameSlot_func_nested (ps : List Ty) (r : Ty) :
    (func ps r).renameSlot ρ true =
      func (ps.map (renameSlot ρ true)) (r.renameSlot ρ true) := by
  simp [renameSlot, renameSlots_eq_map]

lemma mem_slotNames_func_nested {ps : List Ty} {r : Ty} : n ∈ (func ps r).slotNames true ↔
    (∃ p ∈ ps, n ∈ p.slotNames true) ∨ n ∈ r.slotNames true := by
  simp [slotNames, mem_slotNamesList]

/-- Without nested renaming a slot that is no variable stays as it is. -/
lemma renameSlot_of_shallow (h : t.varName? = none) : t.renameSlot ρ false = t := by
  cases t <;> simp_all [renameSlot, varName?]

lemma slotNames_of_shallow (h : t.varName? = none) : t.slotNames false = [] := by
  cases t <;> simp_all [slotNames, varName?]

lemma renameSlot_of_isConstant (h : t.isConstant = true) : t.renameSlot ρ nested = t := by
  cases t <;> simp_all [isConstant, renameSlot]

lemma slotNames_of_isConstant (h : t.isConstant = true) : t.slotNames nested = [] := by
  cases t <;> simp_all [isConstant, slotNames]

/-- A slot in which nothing is to be renamed stays as it is. -/
lemma renameSlot_eq_self (h : t.slotNames nested = []) : t.renameSlot ρ nested = t := by
  induction t using Ty.induction with
  | constant t ht => exact renameSlot_of_isConstant ht
  | var n => simp at h
  | object fs _ => simp [renameSlot]
  | func ps r ihps ihr =>
    cases nested with
    | false => exact renameSlot_of_shallow rfl
    | true =>
      rw [List.eq_nil_iff_forall_not_mem] at h
      have hr : r.slotNames true = [] := List.eq_nil_iff_forall_not_mem.2 fun n hn =>
        h n (mem_slotNames_func_nested.2 (.inr hn))
      have hps : ∀ p ∈ ps, p.slotNames true = [] := fun p hp =>
        List.eq_nil_iff_forall_not_mem.2 fun n hn =>
          h n (mem_slotNames_func_nested.2 (.inl ⟨p, hp, hn⟩))
      rw [renameSlot_func_nested, ihr hr, List.map_congr_left fun p hp => ihps p hp (hps p hp),
        List.map_id']

lemma mentions_of_mem_slotNames (h : n ∈ t.slotNames nested) : t.mentions n = true := by
  induction t using Ty.induction with
  | constant t ht => simp [slotNames_of_isConstant ht] at h
  | var m =>
    rw [slotNames_var, List.mem_singleton] at h
    simp [h]
  | object fs _ => simp [slotNames] at h
  | func ps r ihps ihr =>
    cases nested with
    | false => simp [slotNames] at h
    | true =>
      rcases mem_slotNames_func_nested.1 h with ⟨p, hp, hn⟩ | hn
      · exact mentions_func.2 (.inl ⟨p, hp, ihps p hp hn⟩)
      · exact mentions_func.2 (.inr (ihr hn))

/-- What renaming a slot can bring in are the new names of its variables. -/
lemma Over.renameSlot (ht : t.Over M) (hρ : ∀ n ∈ t.slotNames nested, M (ρ n)) :
    (t.renameSlot ρ nested).Over M := by
  induction t using Ty.induction with
  | constant t hconst => rwa [renameSlot_of_isConstant hconst]
  | var n =>
    intro k hk
    rw [renameSlot_var, mentions_var] at hk
    exact hk ▸ hρ n (by simp)
  | object fs _ =>
    have hself : (object fs).renameSlot ρ nested = object fs := renameSlot_eq_self (by
      simp [slotNames])
    rwa [hself]
  | func ps r ihps ihr =>
    cases nested with
    | false => rwa [renameSlot_of_shallow rfl]
    | true =>
      rw [renameSlot_func_nested]
      intro k hk
      rw [mentions_func] at hk
      rcases hk with ⟨p', hp', hk⟩ | hk
      · obtain ⟨p, hp, rfl⟩ := List.mem_map.1 hp'
        refine ihps p hp ((hereditary_over M).param ht hp) (fun n hn => ?_) k hk
        exact hρ n (mem_slotNames_func_nested.2 (.inl ⟨p, hp, hn⟩))
      · refine ihr ((hereditary_over M).result ht) (fun n hn => ?_) k hk
        exact hρ n (mem_slotNames_func_nested.2 (.inr hn))

/-- The variables that an instance renames although they fill no slot of the function itself: those
in slots of functions that stand in its slots.  Only nested renaming gets there. -/
def innerSlotNames (nested : Bool) : Ty → List Name
  | func ps r => (r :: ps).flatMap fun slot =>
    if slot.varName?.isSome then [] else slot.slotNames nested
  | _ => []

lemma innerSlotNames_shallow (t : Ty) : t.innerSlotNames false = [] := by
  cases t with
  | func ps r =>
    rw [innerSlotNames, List.flatMap_eq_nil_iff]
    intro slot _
    cases hvar : slot.varName? with
    | none => simpa using slotNames_of_shallow hvar
    | some n => simp
  | _ => rfl

/-! ## Instances -/

variable {names : FreshNames} {ps : List Ty} {r : Ty}

lemma instantiate_func : (func ps r).instantiate nested names =
    (⟨func (ps.map (renameSlot names.freshName nested)) (r.renameSlot names.freshName nested),
      (slotNamesList nested ps ++ r.slotNames nested).map names.freshName⟩,
      { names with next := names.next + 1 }) := by
  rw [← renameSlots_eq_map]
  rfl

lemma instantiate_of_not_func (h : t.kind ≠ .function) :
    t.instantiate nested names = (⟨t, []⟩, names) := by
  cases t <;> simp_all [kind, instantiate]

lemma isSynthetic_func {k : Name} :
    ((func ps r).instantiate nested names).1.isSynthetic k = true ↔
      ∃ slot ∈ r :: ps, ∃ n ∈ slot.slotNames nested, names.freshName n = k := by
  rw [instantiate_func]
  simp only [Instance.isSynthetic, List.contains_iff_mem, List.mem_map, List.mem_append,
    mem_slotNamesList, List.mem_cons]
  constructor
  · rintro ⟨n, ⟨slot, hslot, hn⟩ | hn, rfl⟩
    · exact ⟨slot, .inr hslot, n, hn, rfl⟩
    · exact ⟨r, .inl rfl, n, hn, rfl⟩
  · rintro ⟨slot, rfl | hslot, n, hn, rfl⟩
    · exact ⟨n, .inr hn, rfl⟩
    · exact ⟨n, .inl ⟨slot, hslot, hn⟩, rfl⟩

/-- Instances use one marker, and take at most one generation each. -/
lemma instantiate_names (nested : Bool) (names : FreshNames) (t : Ty) :
    (t.instantiate nested names).2.marker = names.marker ∧
      (t.instantiate nested names).2.next ≤ names.next + 1 := by
  by_cases hfunc : t.kind = .function
  · obtain ⟨ps, r, rfl⟩ := kind_eq_function.1 hfunc
    simp [instantiate_func]
  · simp [instantiate_of_not_func hfunc]

lemma le_next_instantiate (nested : Bool) (names : FreshNames) (t : Ty) :
    names.next ≤ (t.instantiate nested names).2.next := by
  by_cases hfunc : t.kind = .function
  · obtain ⟨ps, r, rfl⟩ := kind_eq_function.1 hfunc
    simp [instantiate_func]
  · simp [instantiate_of_not_func hfunc]

/-! ## What an assignment makes of an instance -/

variable {σ τ θ θ' : Assignment}

/-- A slot under two assignments: one for a variable that stands in it, one for all else. -/
def fillSlot (σ θ : Assignment) : Ty → Ty
  | var n => σ n
  | t => t.assign θ

/-- A function under two assignments: one for the variables that stand in its slots, one for what
else stands there. -/
def fill (σ θ : Assignment) : Ty → Ty
  | func ps r => func (ps.map (fillSlot σ θ)) (r.fillSlot σ θ)
  | t => t.assign θ

lemma fillSlot_of_not_var (h : t.varName? = none) : t.fillSlot σ θ = t.assign θ := by
  cases t <;> simp_all [fillSlot, varName?]

lemma fill_congr (h : ∀ slot ∈ r :: ps, ∀ n, slot = var n → σ n = τ n) :
    (func ps r).fill σ θ = (func ps r).fill τ θ := by
  have hslot : ∀ slot ∈ r :: ps, slot.fillSlot σ θ = slot.fillSlot τ θ := by
    intro slot hmem
    cases hvar : slot.varName? with
    | none => rw [fillSlot_of_not_var hvar, fillSlot_of_not_var hvar]
    | some n =>
      cases slot with
      | var m => exact h _ hmem m rfl
      | _ => simp [varName?] at hvar
  rw [List.forall_mem_cons] at hslot
  rw [fill, fill, hslot.1, List.map_congr_left hslot.2]

/-- An assignment that changes only names of the instance makes of the instance what it makes of the
function, with values of their own for the variables in slots. -/
lemma assign_instantiate
    (hfree : (func ps r).Over fun n =>
      ((func ps r).instantiate false names).1.isSynthetic n = false)
    (hθ : ∀ n, ((func ps r).instantiate false names).1.isSynthetic n = false → θ' n = θ n) :
    ((func ps r).instantiate false names).1.type.assign θ' =
      (func ps r).fill (fun n => θ' (names.freshName n)) θ := by
  have hslot : ∀ slot ∈ r :: ps, (slot.renameSlot names.freshName false).assign θ' =
      slot.fillSlot (fun n => θ' (names.freshName n)) θ := by
    intro slot hmem
    cases hvar : slot.varName? with
    | none =>
      rw [renameSlot_of_shallow hvar, fillSlot_of_not_var hvar, assign_eq_assign_iff]
      intro n hn
      refine hθ n (hfree n (mentions_func.2 ?_))
      rcases List.mem_cons.1 hmem with rfl | hps
      · exact .inr hn
      · exact .inl ⟨slot, hps, hn⟩
    | some n =>
      cases slot with
      | var m => simp [fillSlot]
      | _ => simp [varName?] at hvar
  rw [List.forall_mem_cons] at hslot
  have hparams : (ps.map (renameSlot names.freshName false)).map (assign θ') =
      ps.map (fillSlot (fun n => θ' (names.freshName n)) θ) := by
    rw [List.map_map]
    exact List.map_congr_left hslot.2
  rw [instantiate_func, assign_func, hparams, hslot.1, fill]

end Ty

end TypeSolver
