import TypeSolver.Yaml.Lexer

/-!
# The tree of a YAML document

A document is a scalar or a mapping of nodes to nodes.  A value, or a key, that is left out is an
empty plain scalar, and so is a document that has nothing in it.  An alias stands for the node that
had its name last.
-/

namespace TypeSolver.Yaml

/-- A node of a document. -/
inductive Node where
  | scalar (text : String) (style : Style) (tag : Option String)
  | mapping (entries : List (Node × Node))
deriving Inhabited

namespace Node

/-- What stands where a node is left out. -/
def empty : Node := .scalar "" .plain none

/-- The nodes that have names, the latest first. -/
abbrev Anchors := List (String × Node)

/-- What handles stand for. -/
abbrev Handles := List (String × String)

/-- What the handles stand for that no directive speaks of. -/
def defaultHandles : Handles := [("!", "!"), ("!!", "tag:yaml.org,2002:")]

/-- The tag of a handle and a suffix. -/
def fullTag (handles : Handles) (handle suffix : String) : Option String :=
  if handle.isEmpty then some suffix else (handles.lookup handle).map (· ++ suffix)

/-- What stands before the content of a node. -/
structure Properties where
  anchor : Option String
  tag : Option String

/-- The anchor and the tag at the start of tokens, in either order, and the rest. -/
def properties (handles : Handles) : List Token → Option (Properties × List Token)
  | .anchor a :: .tag h s :: ts => (fullTag handles h s).map fun t => (⟨some a, some t⟩, ts)
  | .tag h s :: .anchor a :: ts => (fullTag handles h s).map fun t => (⟨some a, some t⟩, ts)
  | .anchor a :: ts => some (⟨some a, none⟩, ts)
  | .tag h s :: ts => (fullTag handles h s).map fun t => (⟨none, some t⟩, ts)
  | ts => some (⟨none, none⟩, ts)

/-- Whether a node is left out before these tokens, as a key or a value. -/
def isLeftOut : List Token → Bool
  | .key :: _ => true
  | .value :: _ => true
  | .blockEnd :: _ => true
  | .flowEnd :: _ => true
  | .separator :: _ => true
  | _ => false

/-- A reader takes a node off tokens. -/
abbrev Reader (α : Type) := Anchors → List Token → Option (α × Anchors × List Token)

/-- A node that may be left out. -/
def optional (node : Reader Node) : Reader Node := fun anchors ts =>
  if isLeftOut ts then some (.empty, anchors, ts) else node anchors ts

/-- A value after its colon, both of which may be left out. -/
def valuePart (node : Reader Node) : Reader Node := fun anchors ts =>
  match ts with
  | .value :: ts => optional node anchors ts
  | ts => some (.empty, anchors, ts)

/-- The entries of a mapping by indentation, up to its end; in reverse before `entries`. -/
def blockEntries (node : Reader Node) (limit : Nat) (entries : List (Node × Node)) :
    Reader (List (Node × Node)) := fun anchors ts =>
  match limit, ts with
  | _, .blockEnd :: ts => some (entries.reverse, anchors, ts)
  | limit + 1, .key :: ts => do
    let (k, anchors, ts) ← optional node anchors ts
    let (v, anchors, ts) ← valuePart node anchors ts
    blockEntries node limit ((k, v) :: entries) anchors ts
  | _, _ => none

/-- An entry of a mapping in braces.  Without a sign that it is a key, a node has no value. -/
def flowEntry (node : Reader Node) : Reader (Node × Node) := fun anchors ts =>
  match ts with
  | .key :: ts => do
    let (k, anchors, ts) ← optional node anchors ts
    let (v, anchors, ts) ← valuePart node anchors ts
    return ((k, v), anchors, ts)
  | ts => do
    let (k, anchors, ts) ← node anchors ts
    return ((k, .empty), anchors, ts)

/-- The entries of a mapping in braces, up to its end; in reverse before `entries`. -/
def flowEntries (node : Reader Node) (limit : Nat) (entries : List (Node × Node)) :
    Reader (List (Node × Node)) := fun anchors ts =>
  match limit, ts with
  | _, .flowEnd :: ts => some (entries.reverse, anchors, ts)
  | limit + 1, ts => do
    let (e, anchors, ts) ← flowEntry node anchors ts
    match ts with
    | .separator :: ts => flowEntries node limit (e :: entries) anchors ts
    | .flowEnd :: ts => return ((e :: entries).reverse, anchors, ts)
    | _ => none
  | _, _ => none

/-- What a node has besides its properties.  A node that has properties may have nothing else. -/
def content (node : Reader Node) (p : Properties) : Reader Node := fun anchors ts =>
  match ts with
  | .scalar text style :: ts => some (.scalar text style p.tag, anchors, ts)
  | .flowStart :: ts => do
    let (entries, anchors, ts) ← flowEntries node ts.length [] anchors ts
    return (.mapping entries, anchors, ts)
  | .blockStart :: ts => do
    let (entries, anchors, ts) ← blockEntries node ts.length [] anchors ts
    return (.mapping entries, anchors, ts)
  | ts =>
    if p.anchor.isSome || p.tag.isSome then some (.scalar "" .plain p.tag, anchors, ts) else none

/-- A node that nests no deeper than `depth`. -/
def read (handles : Handles) (depth : Nat) : Reader Node := fun anchors ts =>
  match depth, ts with
  | _, .alias name :: ts => (anchors.lookup name).map (·, anchors, ts)
  | 0, _ => none
  | depth + 1, ts => do
    let (p, ts) ← properties handles ts
    let (node, anchors, ts) ← content (read handles depth) p anchors ts
    match p.anchor with
    | some name => return (node, (name, node) :: anchors, ts)
    | none => return (node, anchors, ts)

/-! ## Documents -/

/-- What the directives at the start of tokens say, and the rest.  At most one gives the version,
which has to be 1.1 or 1.2, and at most one speaks of each handle. -/
def directives (versioned : Bool) (handles : Handles) : List Token → Option (Handles × List Token)
  | .version major minor :: ts =>
    if versioned || major ≠ 1 || !(minor = 1 || minor = 2) then none
    else directives true handles ts
  | .handle handle start :: ts =>
    if (handles.lookup handle).isSome then none
    else directives versioned ((handle, start) :: handles) ts
  | ts => some (handles, ts)

/-- Whether the content of a document is left out before these tokens. -/
def isDocumentEnd : List Token → Bool
  | [] => true
  | .documentStart :: _ => true
  | .documentEnd :: _ => true
  | _ => false

/-- The content of a document, and the tokens behind it. -/
def document (handles : Handles) (ts : List Token) : Option (Node × List Token) := do
  let (node, _, ts) ← read (handles ++ defaultHandles) ts.length [] ts
  return (node, ts)

/-- The only document of a text, given its tokens.  After directives it has to be announced. -/
def ofTokens (tokens : List Token) : Option Node := do
  let (handles, ts) ← directives false [] tokens
  let (node, ts) ← match ts with
    | .documentStart :: ts => if isDocumentEnd ts then some (empty, ts) else document handles ts
    | [] => if tokens.isEmpty then some (empty, []) else none
    | ts => if ts.length = tokens.length then document handles ts else none
  if ts.all (· == .documentEnd) then return node else none

/-- The only document of a text. -/
def ofText (text : String) : Option Node := do ofTokens (← Token.ofText text)

end Node

end TypeSolver.Yaml
