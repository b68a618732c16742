import TypeSolver.Subst.Basic

/-!
# Unification

`unify` finds a substitution under which two types agree, `extend` adds one binding to a
substitution and `compose` adds all bindings of another.  The three call each other: a name that is
bound twice has its two types unified, and what that yields is merged in turn.

There is no occurs check, so a variable may come to be bound to a type that mentions it, and on some
inputs the recursion has no end.  Every function therefore takes the depth to which it may recurse;
running out of it is a failure of its own, distinct from a mismatch.  An answer that is not
`Failure.exhausted` does not depend on the depth.
-/

namespace TypeSolver

/-- Why there is no answer. -/
inductive Failure where
  /-- the two types cannot be made equal -/
  | mismatch (left right : Ty)
  /-- the recursion went deeper than allowed -/
  | exhausted
deriving Inhabited

/-- The text of a failure. -/
def Failure.message : Failure → String
  | .mismatch l r => "Types do not unify: " ++ l.kind.text ++ " and " ++ r.kind.text
  | .exhausted => "Types nest too deeply to unify"

namespace Subst

/-- Replace a variable in the bindings that mention it. -/
def replaceIn (s : Subst) (name : Name) (type : Ty) : Subst :=
  s.mapTypes fun t => if t.mentions name then t.substitute name type else t

/-- Bind a name that is free to be bound: the type is resolved by the bindings there are, and then
takes the place of the name in all of them. -/
def bind (s : Subst) (name : Name) (type : Ty) : Subst :=
  let resolved := s.apply type
  (s.replaceIn name resolved).put name resolved

end Subst

/-! ## The three operations -/

mutual

/-- A substitution under which two types agree.  A variable on the left is bound first, then one on
the right.  Equal base types and equal literals need no binding.  Functions with the same number of
parameters agree when their results and then their parameters do, from left to right.  Nothing else
agrees; in particular no two objects do. -/
def unify (depth : Nat) (left right : Ty) : Except Failure Subst :=
  match depth with
  | 0 => .error .exhausted
  | depth + 1 =>
    match left, right with
    | .var n, t => .ok (.single n t)
    | t, .var n => .ok (.single n t)
    | .number, .number => .ok .empty
    | .string, .string => .ok .empty
    | .boolean, .boolean => .ok .empty
    | .numberLit x, .numberLit y => if x == y then .ok .empty else .error (.mismatch left right)
    | .stringLit x, .stringLit y => if x == y then .ok .empty else .error (.mismatch left right)
    | .booleanLit x, .booleanLit y => if x == y then .ok .empty else .error (.mismatch left right)
    | .func ps r, .func qs q =>
      if ps.length = qs.length then do
        let results ← unify depth r q
        (ps.zip qs).foldlM (fun acc pq => do compose depth acc (← unify depth pq.1 pq.2)) results
      else .error (.mismatch left right)
    | _, _ => .error (.mismatch left right)

/-- A substitution with one more binding.  A name bound to an equal type needs nothing.  A name
bound to another type, other than the name itself, has the new type unified with the old one.  A
name that is not bound, or only to itself, is bound. -/
def extend (depth : Nat) (s : Subst) (name : Name) (type : Ty) : Except Failure Subst :=
  match depth with
  | 0 => .error .exhausted
  | depth + 1 =>
    match s.get? name with
    | none => .ok (s.bind name type)
    | some old =>
      if old == type then .ok s
      else if old.varName? = some name then .ok (s.bind name type)
      else do compose depth s (← unify depth type old)

/-- A substitution with all bindings of another added, in their order. -/
def compose (depth : Nat) (s added : Subst) : Except Failure Subst :=
  match depth with
  | 0 => .error .exhausted
  | depth + 1 => added.bindings.foldlM (fun acc b => extend depth acc b.1 b.2) s

end

/-- The depth allowed where none is given. -/
def defaultDepth : Nat := 20000

end TypeSolver
