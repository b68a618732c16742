import TypeSolver.Proofs.Ty.Assignment

/-!
# What a type is made of

`Ty.every` asks a question of every part of a type, the type itself included.  "No objects" and "no
NaN literals" are such questions, and they look at the head of a part only.

`Ty.Hereditary` is what makes a property of types useful to follow through the unifier: the parts of
a function inherit it, and so does a type in which variables have been replaced by types that have
it.  Nothing else is ever done to a type.

With NaN literals out of the way, the equality that the solver computes is the one of alike types
(`Ty.beq_iff_alike`).  So it is symmetric and transitive, and lacks only reflexivity.
-/

namespace TypeSolver

namespace Ty

/-! ## Asking every part -/

mutual

/-- Whether every part of a type satisfies a condition. -/
def every (p : Ty → Bool) : Ty → Bool
  | func ps r => p (func ps r) && everyList p ps && every p r
  | object fs => p (object fs) && everyFields p fs
  | t => p t

/-- Whether every part of a list of types satisfies a condition. -/
def everyList (p : Ty → Bool) : List Ty → Bool
  | [] => true
  | t :: ts => every p t && everyList p ts

/-- Whether every part of the types of fields satisfies a condition. -/
def everyFields (p : Ty → Bool) : List (String × Ty) → Bool
  | [] => true
  | (_, t) :: fs => every p t && everyFields p fs

end

/-- Whether no object occurs in a type. -/
def objectFree : Ty → Bool := every fun t => t.kind != .object

/-- Whether no NaN literal occurs in a type. -/
def nanFree : Ty → Bool := every fun t =>
  match t with
  | numberLit x => !x.isNaN
  | _ => true

variable {p : Ty → Bool} {θ : Assignment}

lemma everyList_iff {ts : List Ty} : everyList p ts = true ↔ ∀ t ∈ ts, t.every p = true := by
  induction ts with
  | nil => simp [everyList]
  | cons t ts ih => simp [everyList, ih]

lemma everyFields_iff {fs : List (String × Ty)} :
    everyFields p fs = true ↔ ∀ f ∈ fs, f.2.every p = true := by
  induction fs with
  | nil => simp [everyFields]
  | cons f fs ih => simp [everyFields, ih]

lemma every_func {ps : List Ty} {r : Ty} : (func ps r).every p = true ↔
    p (func ps r) = true ∧ (∀ q ∈ ps, q.every p = true) ∧ r.every p = true := by
  simp [every, everyList_iff, and_assoc]

lemma every_object {fs : List (String × Ty)} : (object fs).every p = true ↔
    p (object fs) = true ∧ ∀ f ∈ fs, f.2.every p = true := by
  simp [every, everyFields_iff]

/-- A condition on the heads of parts holds after replacement if it holds of what came in. -/
lemma every_assign (hp : ∀ t, t.varName? = none → p (t.assign θ) = p t) {t : Ty}
    (ht : t.every p = true) (hθ : ∀ n, t.mentions n = true → (θ n).every p = true) :
    (t.assign θ).every p = true := by
  induction t using Ty.induction with
  | constant t hconst => rwa [assign_of_isConstant hconst]
  | var n => simpa using hθ n (by simp)
  | func ps r ihps ihr =>
    have hhead := hp (func ps r) rfl
    obtain ⟨hself, hps, hr⟩ := every_func.1 ht
    rw [assign_func] at hhead ⊢
    refine every_func.2 ⟨hhead.trans hself, ?_, ?_⟩
    · intro u hu
      obtain ⟨q, hq, rfl⟩ := List.mem_map.1 hu
      exact ihps q hq (hps q hq) fun n hn => hθ n (mentions_func.2 (.inl ⟨q, hq, hn⟩))
    · exact ihr hr fun n hn => hθ n (mentions_func.2 (.inr hn))
  | object fs ihfs =>
    have hhead := hp (object fs) rfl
    obtain ⟨hself, hfs⟩ := every_object.1 ht
    rw [assign_object] at hhead ⊢
    refine every_object.2 ⟨hhead.trans hself, ?_⟩
    intro g hg
    obtain ⟨f, hf, rfl⟩ := List.mem_map.1 hg
    exact ihfs f hf (hfs f hf) fun n hn => hθ n (mentions_object.2 ⟨f, hf, hn⟩)

/-! ## Hereditary properties -/

/-- A property that the parts of a function, the variables of a type and the results of replacing
variables inherit. -/
structure Hereditary (P : Ty → Prop) : Prop where
  param : ∀ {ps : List Ty} {r q : Ty}, P (func ps r) → q ∈ ps → P q
  result : ∀ {ps : List Ty} {r : Ty}, P (func ps r) → P r
  var : ∀ {t : Ty} {n : Name}, P t → t.mentions n = true → P (var n)
  assign : ∀ {t : Ty} {θ : Assignment}, P t → (∀ n, t.mentions n = true → P (θ n)) → P (t.assign θ)

lemma hereditary_every (hvar : ∀ n, p (.var n) = true)
    (hp : ∀ (θ : Assignment) (t : Ty), t.varName? = none → p (t.assign θ) = p t) :
    Hereditary fun t => t.every p = true where
  param h hq := (every_func.1 h).2.1 _ hq
  result h := (every_func.1 h).2.2
  var {t n} _ _ := by simpa [every] using hvar n
  assign h hθ := every_assign (hp _) h hθ

lemma hereditary_objectFree : Hereditary fun t => t.objectFree = true :=
  hereditary_every (fun _ => rfl) fun θ t ht => by
    cases t <;> simp_all [assign, kind, varName?]

lemma hereditary_nanFree : Hereditary fun t => t.nanFree = true :=
  hereditary_every (fun _ => rfl) fun θ t ht => by
    cases t <;> simp_all [assign, varName?]

lemma Hereditary.substitute {P : Ty → Prop} (hP : Hereditary P) {t u : Ty} {n : Name} (ht : P t)
    (hu : P u) : P (t.substitute n u) := by
  rw [substitute_eq_assign]
  refine hP.assign ht fun k hk => ?_
  by_cases hkn : k = n
  · subst hkn
    simpa using hu
  · rw [Function.update_of_ne hkn]
    exact hP.var ht hk

/-- Every variable of a type satisfies a condition. -/
def Over (M : Name → Prop) (t : Ty) : Prop := ∀ n, t.mentions n = true → M n

lemma over_of_isConstant {M : Name → Prop} {t : Ty} (h : t.isConstant = true) : t.Over M := by
  intro n hn
  rw [mentions_of_isConstant h] at hn
  cases hn

lemma hereditary_over (M : Name → Prop) : Hereditary (Over M) where
  param h hq n hn := h n (mentions_func.2 (.inl ⟨_, hq, hn⟩))
  result h n hn := h n (mentions_func.2 (.inr hn))
  var {t n} h hn k hk := by
    rw [mentions_var] at hk
    exact hk ▸ h n hn
  assign h hθ k hk := by
    obtain ⟨n, hn, hk⟩ := mentions_assign.1 hk
    exact hθ n hn k hk

/-- The variables of a function are those of its slots. -/
lemma over_func_iff {M : Name → Prop} {ps : List Ty} {r : Ty} :
    (func ps r).Over M ↔ ∀ slot ∈ r :: ps, slot.Over M := by
  rw [List.forall_mem_cons]
  constructor
  · exact fun h => ⟨(hereditary_over M).result h, fun p hp => (hereditary_over M).param h hp⟩
  · rintro ⟨hr, hps⟩ n hn
    rcases mentions_func.1 hn with ⟨p, hp, hnp⟩ | hnr
    · exact hps p hp n hnp
    · exact hr n hnr

/-- A type without variables. -/
def Ground (t : Ty) : Prop := ∀ n, t.mentions n = false

lemma Ground.assign_eq {t : Ty} (h : t.Ground) (θ : Assignment) : t.assign θ = t := by
  rw [assign_eq_self_iff]
  intro n hn
  rw [h n] at hn
  cases hn

lemma mentions_canonical (t : Ty) (n : Name) : t.canonical.mentions n = t.mentions n := by
  induction t using Ty.induction with
  | constant t ht =>
    rw [mentions_of_isConstant ht, mentions_of_isConstant (isConstant_canonical ht)]
  | var m => simp
  | func ps r ihps ihr =>
    rw [Bool.eq_iff_iff, canonical_func, mentions_func, mentions_func, ihr]
    refine or_congr_left ⟨?_, ?_⟩
    · rintro ⟨p', hp', hn⟩
      obtain ⟨p, hp, rfl⟩ := List.mem_map.1 hp'
      exact ⟨p, hp, ihps p hp ▸ hn⟩
    · rintro ⟨p, hp, hn⟩
      exact ⟨p.canonical, List.mem_map_of_mem hp, (ihps p hp).trans hn⟩
  | object fs ihfs =>
    rw [Bool.eq_iff_iff, canonical_object, mentions_object, mentions_object]
    constructor
    · rintro ⟨f', hf', hn⟩
      obtain ⟨f, hf, rfl⟩ := List.mem_map.1 hf'
      exact ⟨f, hf, ihfs f hf ▸ hn⟩
    · rintro ⟨f, hf, hn⟩
      exact ⟨_, List.mem_map_of_mem hf, (ihfs f hf).trans hn⟩

/-- Alike types have the same variables. -/
lemma mentions_eq_of_alike {a b : Ty} (h : a ≈ b) (n : Name) : a.mentions n = b.mentions n := by
  rw [← mentions_canonical a, ← mentions_canonical b, alike_iff.1 h]

lemma Hereditary.and {P Q : Ty → Prop} (hP : Hereditary P) (hQ : Hereditary Q) :
    Hereditary fun t => P t ∧ Q t where
  param h hq := ⟨hP.param h.1 hq, hQ.param h.2 hq⟩
  result h := ⟨hP.result h.1, hQ.result h.2⟩
  var h hn := ⟨hP.var h.1 hn, hQ.var h.2 hn⟩
  assign h hθ := ⟨hP.assign h.1 fun n hn => (hθ n hn).1, hQ.assign h.2 fun n hn => (hθ n hn).2⟩

/-! ## Equality as it is computed -/

lemma nanFree_func {ps : List Ty} {r : Ty} : (func ps r).nanFree = true ↔
    (∀ p ∈ ps, p.nanFree = true) ∧ r.nanFree = true := by
  rw [nanFree, every_func]
  exact and_iff_right rfl

lemma nanFree_object {fs : List (String × Ty)} : (object fs).nanFree = true ↔
    ∀ f ∈ fs, f.2.nanFree = true := by
  rw [nanFree, every_object]
  exact and_iff_right rfl

/-- Two objects are alike when they have the same fields, with types that are alike. -/
lemma alike_object {fs gs : List (String × Ty)} : object fs ≈ object gs ↔
    List.Forall₂ (fun f g => f.1 = g.1 ∧ f.2 ≈ g.2) fs gs := by
  rw [alike_iff, canonical_object, canonical_object, object.injEq, ← List.forall₂_eq_eq_eq,
    List.forall₂_map_left_iff, List.forall₂_map_right_iff]
  simp only [Prod.mk.injEq]
  rfl

lemma forall₂_iff_of_mem {α β : Type} {R S : α → β → Prop} {as : List α} {bs : List β}
    (h : ∀ a ∈ as, ∀ b, R a b ↔ S a b) : List.Forall₂ R as bs ↔ List.Forall₂ S as bs := by
  rw [List.forall₂_iff_zip, List.forall₂_iff_zip]
  refine and_congr_right fun _ => ⟨fun hR a b hab => ?_, fun hS a b hab => ?_⟩
  · exact (h a (List.of_mem_zip hab).1 b).1 (hR hab)
  · exact (h a (List.of_mem_zip hab).1 b).2 (hS hab)

/-- Two types compare as equal when they are alike and have no NaN literal. -/
lemma beq_iff_alike {a b : Ty} : (a == b) = true ↔ a.nanFree = true ∧ a ≈ b := by
  have hbeq : ∀ c d : Ty, (c == d) = beq c d := fun _ _ => rfl
  induction a using Ty.induction generalizing b with
  | constant a ha =>
    rw [alike_iff, hbeq]
    cases a with
    | numberLit x =>
      cases b with
      | numberLit y =>
        simp only [beq, canonical, nanFree, every, numberLit.injEq, Double.canonical_eq_iff,
          Double.beq_iff, Bool.not_eq_true']
        grind
      | _ => simp [beq, canonical]
    | _ => cases b <;> simp_all [isConstant, beq, canonical, nanFree, every]
  | var m =>
    rw [alike_iff, hbeq]
    cases b <;> simp [beq, canonical, nanFree, every]
  | func ps r ihps ihr =>
    rw [nanFree_func]
    cases b with
    | func qs q =>
      have hresult : (r == q) = true ↔ r.nanFree = true ∧ r ≈ q := ihr
      rw [hbeq, beq, Bool.and_eq_true, beqList_iff, forall₂_iff_of_mem fun p hp q => ihps p hp,
        List.forall₂_and_left, alike_func, ← hbeq r q, hresult, and_and_and_comm]
    | _ =>
      rw [hbeq, alike_iff]
      simp [beq, canonical]
  | object fs ihfs =>
    rw [nanFree_object]
    cases b with
    | object gs =>
      rw [hbeq, beq, beqFields_iff, alike_object, ← List.forall₂_and_left]
      refine forall₂_iff_of_mem fun f hf g => ?_
      have htype : (f.2 == g.2) = true ↔ f.2.nanFree = true ∧ f.2 ≈ g.2 := ihfs f hf
      rw [htype, and_left_comm]
    | _ =>
      rw [hbeq, alike_iff]
      simp [beq, canonical]

lemma alike_of_beq {a b : Ty} (h : (a == b) = true) : a ≈ b := (beq_iff_alike.1 h).2

lemma nanFree_canonical (t : Ty) : t.canonical.nanFree = t.nanFree := by
  induction t using Ty.induction with
  | constant t ht =>
    cases t with
    | numberLit x =>
      by_cases hx : x.code = 0
      · have hzero : (Double.mk 0).isNaN = false := rfl
        simp [canonical, Double.canonical, hx, nanFree, every, hzero,
          Double.isNaN_of_code_eq_zero hx]
      · simp [canonical, Double.canonical, hx]
    | _ => simp_all [isConstant, canonical]
  | var n => simp
  | func ps r ihps ihr =>
    rw [Bool.eq_iff_iff, canonical_func, nanFree_func, nanFree_func, List.forall_mem_map, ihr]
    exact and_congr_left fun _ => forall₂_congr fun p hp => by rw [ihps p hp]
  | object fs ihfs =>
    rw [Bool.eq_iff_iff, canonical_object, nanFree_object, nanFree_object, List.forall_mem_map]
    exact forall₂_congr fun f hf => by rw [ihfs f hf]

lemma nanFree_eq_of_alike {a b : Ty} (h : a ≈ b) : a.nanFree = b.nanFree := by
  rw [← nanFree_canonical a, ← nanFree_canonical b, alike_iff.1 h]

/-- Two types that compare as equal to a third compare as equal. -/
lemma beq_of_beq_left {a b c : Ty} (ha : (c == a) = true) (hb : (c == b) = true) :
    (a == b) = true := by
  rw [beq_iff_alike] at ha hb ⊢
  exact ⟨nanFree_eq_of_alike ha.2 ▸ ha.1, Setoid.trans (Setoid.symm ha.2) hb.2⟩

lemma beq_comm (a b : Ty) : (a == b) = (b == a) := by
  have hsymm : ∀ {c d : Ty}, (c == d) = true → (d == c) = true := by
    intro c d h
    rw [beq_iff_alike] at h ⊢
    exact ⟨nanFree_eq_of_alike h.2 ▸ h.1, Setoid.symm h.2⟩
  exact Bool.eq_iff_iff.2 ⟨hsymm, hsymm⟩

end Ty

end TypeSolver
