import JointGuard.Toml.Value

/-! # The tree of a document under construction

Tables come into being in three ways: under a header of their own, because a deeper header passes
through them, or because a dotted key does.  The difference decides what may still be added to them:
a header may open a table that so far was only passed through by headers, and a dotted key may
extend only a table that no header has opened. -/

namespace JointGuard.Toml

/-- How a table came into being. -/
inductive Origin where
  | header
  | passedThrough
  | dotted
  deriving DecidableEq

inductive Node where
  | value (value : Value)
  | table (origin : Origin) (entries : List (String × Node))
  | tables (elements : List (List (String × Node)))

/-- A key with the keys of the tables that lead to it. -/
structure Path where
  parents : List String
  key : String

def Path.ofList? (keys : List String) : Option Path :=
  keys.getLast?.map (⟨keys.dropLast, ·⟩)

abbrev Tree := List (String × Node)

namespace Tree

/-- Replaces the node under `key` and keeps its place. -/
def replace (tree : Tree) (key : String) (node : Node) : Tree :=
  tree.map fun entry => if entry.1 = key then (key, node) else entry

def erase (tree : Tree) (key : String) : Tree :=
  tree.filter fun entry => entry.1 ≠ key

/-- Changes the table at the end of `parents` by `f`, which is told how that table came into being.
Missing tables are created, with the origin `fresh`; of an array of tables the last one is taken. -/
def alterAt (fresh : Origin) (f : Origin → Tree → Option Tree) :
    List String → Origin → Tree → Option Tree
  | [], origin, tree => f origin tree
  | key :: parents, _, tree =>
    match tree.lookup key with
    | none =>
      (alterAt fresh f parents fresh []).map fun child => tree ++ [(key, .table fresh child)]
    | some (.value _) => none
    | some (.table origin child) =>
      if fresh = .dotted ∧ origin = .header then none
      else
        (alterAt fresh f parents origin child).map fun child =>
          tree.replace key (.table origin child)
    | some (.tables elements) => do
      let last ← elements.getLast?
      let child ← alterAt fresh f parents .header last
      return tree.replace key (.tables (elements.dropLast ++ [child]))

/-- Adds a value under a key that is not yet there.  A dotted key must end in a table made by dotted
keys. -/
def assign (tree : Tree) (path : Path) (value : Value) : Option Tree :=
  alterAt .dotted
    (fun origin table =>
      if path.parents ≠ [] ∧ origin ≠ .dotted then none
      else if (table.lookup path.key).isSome then none
      else some (table ++ [(path.key, .value value)]))
    path.parents .header tree

def assignAll (tree : Tree) (assignments : List (Path × Value)) : Option Tree :=
  assignments.foldlM (fun tree (path, value) => tree.assign path value) tree

/-- Opens a table and fills it.  A table that headers have passed through is opened with what it
holds and moves behind its siblings. -/
def addTable (tree : Tree) (path : Path) (assignments : List (Path × Value)) : Option Tree :=
  alterAt .passedThrough
    (fun _ table =>
      match table.lookup path.key with
      | none => do
        let body ← assignAll [] assignments
        return table ++ [(path.key, .table .header body)]
      | some (.table .passedThrough held) => do
        let body ← assignAll held assignments
        return table.erase path.key ++ [(path.key, .table .header body)]
      | some _ => none)
    path.parents .header tree

/-- Adds an element to an array of tables, which may be new. -/
def addElement (tree : Tree) (path : Path) (assignments : List (Path × Value)) : Option Tree :=
  alterAt .passedThrough
    (fun _ table => do
      let body ← assignAll [] assignments
      match table.lookup path.key with
      | none => some (table ++ [(path.key, .tables [body])])
      | some (.tables elements) => some (table.replace path.key (.tables (elements ++ [body])))
      | some _ => none)
    path.parents .header tree

end Tree

mutual

def Node.toValue : Node → Value
  | .value value => value
  | .table _ entries => .table (Tree.toTable entries)
  | .tables elements => .array (Tree.toTables elements)

def Tree.toTable : Tree → Table
  | [] => []
  | (key, node) :: entries => (key, node.toValue) :: Tree.toTable entries

def Tree.toTables : List Tree → List Value
  | [] => []
  | tree :: trees => .table (Tree.toTable tree) :: Tree.toTables trees

end

end JointGuard.Toml
