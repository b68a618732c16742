import TypeSolver.FreshNames
import TypeSolver.Subst.Basic

/-!
# Instances

Where a function is called, the call gets its own copy of the function's type, an *instance*, in
which the variables standing directly as a parameter or as the result have fresh names.  Within one
instance a variable has one fresh name, so `(x) => x` stays linked.  Variables elsewhere in the type
are shared with the function; functions that stand directly in a slot are treated like the outer one
if the caller asks for it, and objects never are.

An instance remembers the names it introduced, so that they can be dropped from what a call
contributes.
-/

namespace TypeSolver

/-- A copy of a type with fresh names, and the names introduced by it. -/
structure Instance where
  type : Ty
  synthetic : List Name
deriving Inhabited

namespace Instance

/-- Whether a name was introduced by the instance. -/
def isSynthetic (i : Instance) (name : Name) : Bool := i.synthetic.contains name

/-- Drop the bindings of names introduced by the instance. -/
def strip (i : Instance) (s : Subst) : Subst := s.without i.isSynthetic

end Instance

namespace Ty

mutual

/-- A slot of a function with its variable renamed; with `nested`, also the slots of a function that
stands there. -/
def renameSlot (rename : Name → Name) (nested : Bool) : Ty → Ty
  | var n => var (rename n)
  | func ps r =>
    if nested then func (renameSlots rename nested ps) (renameSlot rename nested r) else func ps r
  | t => t

/-- Slots of a function with their variables renamed. -/
def renameSlots (rename : Name → Name) (nested : Bool) : List Ty → List Ty
  | [] => []
  | t :: ts => renameSlot rename nested t :: renameSlots rename nested ts

end

mutual

/-- The variables that `renameSlot` renames, in order and with repetitions. -/
def slotNames (nested : Bool) : Ty → List Name
  | var n => [n]
  | func ps r => if nested then slotNamesList nested ps ++ slotNames nested r else []
  | _ => []

/-- The variables that `renameSlots` renames, in order and with repetitions. -/
def slotNamesList (nested : Bool) : List Ty → List Name
  | [] => []
  | t :: ts => slotNames nested t ++ slotNamesList nested ts

end

/-- An instance of a type.  A function takes the next generation of names; any other type is its own
instance and takes none. -/
def instantiate (nested : Bool) (names : FreshNames) : Ty → Instance × FreshNames
  | func ps r =>
    let (generation, rest) := names.take
    let rename (n : Name) : Name := names.nameFor n generation
    let slots := slotNamesList nested ps ++ slotNames nested r
    (⟨func (renameSlots rename nested ps) (renameSlot rename nested r), slots.map rename⟩, rest)
  | t => (⟨t, []⟩, names)

end Ty

end TypeSolver
