import Embedder.Config.Document

namespace Embedder.Toml

/-!
# The tables of TOML

A table is filled by keys and by headers, and each has its own rules for what may be given again.

* `Origin`: by what a table came to be.
* `Entries.insert?`: a key, which may be dotted, and its value.
* `Entries.openTable?`, `Entries.openElement?`: the table of a header.
* `Entries.close?`: the table of a header put in its place.
* `Entries.toNode`: the finished document.
-/

/-- By what a table came to be. -/
inductive Origin where
  /-- A header of its own, which there may be once. -/
  | header
  /-- The header of a table inside it; one of its own may follow. -/
  | deeperHeader
  /-- A dotted key; other dotted keys may add to it. -/
  | dottedKey
  deriving DecidableEq, Repr

/-- What may stand under a key. -/
inductive Item where
  | value (n : Node)
  | table (origin : Origin) (entries : List (String × Item))
  | array (elements : List (List (String × Item)))
  deriving Repr

/-- The items of a table by key, in the order in which they were given. -/
abbrev Entries := List (String × Item)

namespace Entries

/-- The item under a key. -/
def get? (t : Entries) (k : String) : Option Item :=
  (t.find? fun e => e.1 = k).map Prod.snd

/-- The entries with the item under a key replaced. -/
def replace (t : Entries) (k : String) (item : Item) : Entries :=
  t.map fun e => if e.1 = k then (k, item) else e

/-- The entries without a key. -/
def erase (t : Entries) (k : String) : Entries :=
  t.filter fun e => e.1 ≠ k

/-- The entries with one more; the key must be new. -/
def add? (t : Entries) (k : String) (item : Item) : Option Entries :=
  if (t.get? k).isSome then none else some (t ++ [(k, item)])

/-! ### Keys -/

/-- Whether a key with `more` dots after this table's name may add to the table. -/
def mayExtend (origin : Origin) (more : Nat) : Bool :=
  match origin with
  | .header => false
  | .deeperHeader => more ≠ 0
  | .dottedKey => true

/-- The entries with a value under a dotted key: the names of the tables on the way, and the last
part of the key. -/
def insert? (t : Entries) : (path : List String) → (k : String) → Node → Option Entries
  | [], k, n => t.add? k (.value n)
  | p :: path, k, n =>
    match t.get? p with
    | none => do
      let inner ← insert? [] path k n
      pure (t ++ [(p, .table .dottedKey inner)])
    | some (.table origin inner) => do
      if !mayExtend origin path.length then none
      let inner ← insert? inner path k n
      pure (t.replace p (.table origin inner))
    | some (.array elements) => do
      if path.isEmpty then none
      let last ← elements.getLast?
      let last ← insert? last path k n
      pure (t.replace p (.array (elements.dropLast ++ [last])))
    | some (.value _) => none

/-! ### Headers -/

/-- Change the table that the names on the way of a header lead to. -/
def within? (t : Entries) (path : List String) (f : Entries → Option Entries) : Option Entries :=
  match path with
  | [] => f t
  | p :: path =>
    match t.get? p with
    | none => do
      let inner ← within? [] path f
      pure (t ++ [(p, .table .deeperHeader inner)])
    | some (.table origin inner) => do
      let inner ← within? inner path f
      pure (t.replace p (.table origin inner))
    | some (.array elements) => do
      let last ← elements.getLast?
      let last ← within? last path f
      pure (t.replace p (.array (elements.dropLast ++ [last])))
    | some (.value _) => none

/-- The table that the names on the way of a header lead to; a new one is empty. -/
def reached? (t : Entries) : (path : List String) → Option Entries
  | [] => some t
  | p :: path =>
    match t.get? p with
    | none => some []
    | some (.table _ inner) => reached? inner path
    | some (.array elements) => do
      let last ← elements.getLast?
      reached? last path
    | some (.value _) => none

/-- Open the table of a header: what it holds already, and the entries without it. -/
def openTable? (t : Entries) (path : List String) (k : String) : Option (Entries × Entries) := do
  let parent ← t.reached? path
  let content ←
    match parent.get? k with
    | none => some []
    | some (.table .deeperHeader inner) => some inner
    | _ => none
  let rest ← t.within? path fun parent => some (parent.erase k)
  pure (content, rest)

/-- Open a new element of the array of a header. -/
def openElement? (t : Entries) (path : List String) (k : String) : Option Entries :=
  t.within? path fun parent =>
    match parent.get? k with
    | none => some (parent ++ [(k, .array [])])
    | some (.array _) => some parent
    | _ => none

/-- Put a header's table in its place, as the last element if it is one of an array. -/
def close? (t : Entries) (path : List String) (k : String) (isElement : Bool)
    (content : Entries) : Option Entries :=
  t.within? path fun parent =>
    match parent.get? k with
    | none => if isElement then none else some (parent ++ [(k, .table .header content)])
    | some (.array elements) =>
      if isElement then some (parent.replace k (.array (elements ++ [content]))) else none
    | _ => none

end Entries

/-! ### Finished documents -/

mutual

/-- The node of an item. -/
def Item.toNode : Item → Node
  | .value n => n
  | .table _ entries => .record (nodesOf entries)
  | .array elements => .list (nodesOfAll elements)

/-- The fields of a table. -/
def nodesOf : List (String × Item) → List (String × Node)
  | [] => []
  | (k, item) :: entries => (k, item.toNode) :: nodesOf entries

/-- The nodes of several tables. -/
def nodesOfAll : List (List (String × Item)) → List Node
  | [] => []
  | entries :: elements => .record (nodesOf entries) :: nodesOfAll elements

end

/-- The node of a table. -/
def Entries.toNode (t : Entries) : Node :=
  .record (nodesOf t)

end Embedder.Toml
