import TypeSolver.Ty.Display

/-!
# Substitutions

A substitution binds variable names to types.  It keeps its bindings in the order in which their
names were first bound, each name once: binding a name again changes its type and not its place.

`Subst.apply` replaces every variable of a type by its binding, all at once and once only: what a
binding brings in is not looked up again.
-/

namespace TypeSolver

/-- An ordered list of bindings with distinct names. -/
structure Subst where
  bindings : List (Name × Ty)
  nodup : (bindings.map Prod.fst).Nodup

namespace Subst

/-! ## Bindings as a list -/

/-- Bind a name in a list of bindings: in its place if it is there, at the end if it is not. -/
def putBinding (name : Name) (type : Ty) : List (Name × Ty) → List (Name × Ty)
  | [] => [(name, type)]
  | (n, t) :: rest => if n = name then (n, type) :: rest else (n, t) :: putBinding name type rest

theorem map_fst_putBinding_of_mem {name : Name} {type : Ty} {bs : List (Name × Ty)}
    (h : name ∈ bs.map Prod.fst) : (putBinding name type bs).map Prod.fst = bs.map Prod.fst := by
  induction bs with
  | nil => simp at h
  | cons b rest ih =>
    obtain ⟨n, t⟩ := b
    by_cases hn : n = name
    · simp [putBinding, hn]
    · have hrest : name ∈ rest.map Prod.fst := by
        simpa [Ne.symm hn] using h
      simp [putBinding, hn, ih hrest]

theorem map_fst_putBinding_of_not_mem {name : Name} {type : Ty} {bs : List (Name × Ty)}
    (h : name ∉ bs.map Prod.fst) :
    (putBinding name type bs).map Prod.fst = bs.map Prod.fst ++ [name] := by
  induction bs with
  | nil => simp [putBinding]
  | cons b rest ih =>
    obtain ⟨n, t⟩ := b
    have hn : n ≠ name := fun e => h (by simp [e])
    have hrest : name ∉ rest.map Prod.fst := fun e => h (by simp [e])
    simp [putBinding, hn, ih hrest]

theorem nodup_putBinding {name : Name} {type : Ty} {bs : List (Name × Ty)}
    (h : (bs.map Prod.fst).Nodup) : ((putBinding name type bs).map Prod.fst).Nodup := by
  by_cases hn : name ∈ bs.map Prod.fst
  · rw [map_fst_putBinding_of_mem hn]; exact h
  · rw [map_fst_putBinding_of_not_mem hn]
    refine List.nodup_append.2 ⟨h, by simp, ?_⟩
    intro a ha b hb hab
    simp only [List.mem_singleton] at hb
    exact hn (by rw [← hb, ← hab]; exact ha)

/-! ## Building -/

/-- The substitution that binds nothing. -/
def empty : Subst := ⟨[], by simp⟩

instance : Inhabited Subst := ⟨empty⟩

/-- The substitution that binds one name. -/
def single (name : Name) (type : Ty) : Subst := ⟨[(name, type)], by simp⟩

/-- Bind a name, overwriting a binding it has. -/
def put (s : Subst) (name : Name) (type : Ty) : Subst :=
  ⟨putBinding name type s.bindings, nodup_putBinding s.nodup⟩

/-- The substitution with the given bindings; of several for one name the last counts, in the place
of the first. -/
def ofList (bindings : List (Name × Ty)) : Subst :=
  bindings.foldl (fun s b => s.put b.1 b.2) empty

/-- Change every bound type, by a function of the type. -/
def mapTypes (s : Subst) (f : Ty → Ty) : Subst :=
  ⟨s.bindings.map fun b => (b.1, f b.2), by
    have h : (s.bindings.map fun b => (b.1, f b.2)).map Prod.fst = s.bindings.map Prod.fst := by
      simp [List.map_map, Function.comp_def]
    rw [h]; exact s.nodup⟩

/-- Drop the bindings of the names that satisfy a condition; the rest keep their order. -/
def without (s : Subst) (drop : Name → Bool) : Subst :=
  ⟨s.bindings.filter fun b => !drop b.1,
    s.nodup.sublist (List.filter_sublist.map Prod.fst)⟩

/-! ## Looking up -/

/-- The type bound to a name. -/
def get? (s : Subst) (name : Name) : Option Ty := s.bindings.lookup name

/-- Whether a name is bound. -/
def contains (s : Subst) (name : Name) : Bool := (s.get? name).isSome

/-- The bound names, in order. -/
def names (s : Subst) : List Name := s.bindings.map Prod.fst

/-- The number of bindings. -/
def size (s : Subst) : Nat := s.bindings.length

/-- Whether nothing is bound. -/
def isEmpty (s : Subst) : Bool := s.bindings.isEmpty

/-- Whether two substitutions bind the same names to equal types, in whatever order. -/
def sameBindings (s t : Subst) : Bool :=
  s.size == t.size && s.bindings.all fun b =>
    match t.get? b.1 with
    | some u => b.2 == u
    | none => false

/-! ## Applying -/

mutual

/-- The type with every bound variable replaced by its binding. -/
def apply (s : Subst) : Ty → Ty
  | .var n => (s.get? n).getD (.var n)
  | .func ps r => .func (applyList s ps) (apply s r)
  | .object fs => .object (applyFields s fs)
  | t => t

/-- A list of types with every bound variable replaced by its binding. -/
def applyList (s : Subst) : List Ty → List Ty
  | [] => []
  | t :: ts => apply s t :: applyList s ts

/-- Fields with every bound variable of their types replaced by its binding. -/
def applyFields (s : Subst) : List (String × Ty) → List (String × Ty)
  | [] => []
  | (k, t) :: fs => (k, apply s t) :: applyFields s fs

end

/-! ## Display -/

/-- The texts of bindings, each with a blank before it and separated by commas. -/
def displayBindings : List (Name × Ty) → String
  | [] => ""
  | [(n, t)] => " " ++ n ++ " := " ++ t.display
  | (n, t) :: rest => " " ++ n ++ " := " ++ t.display ++ "," ++ displayBindings rest

/-- The text of a substitution: a braced list of `name := type`. -/
def display (s : Subst) : String :=
  if s.isEmpty then "\x7b\x7d" else "\x7b" ++ displayBindings s.bindings ++ " \x7d"

end Subst

end TypeSolver
