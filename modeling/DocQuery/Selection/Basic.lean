import DocQuery.Path

/-!
# Selections of fields

A selection is a tree of keys: at each key either a marker, which stands for the whole field, or a
group of selected sub-fields. A key may be dotted, and then means the same as groups inside each
other; `canonical` writes all of them as groups. `merge` is the union of two selections, where a
marker takes the whole field whatever the other side says, and `without` takes away every field
that overlaps a second selection.
-/

namespace DocQuery

/-- What a selection says about a key. -/
inductive Selection.Node where
  /-- the whole field -/
  | marker (n : Int32)
  /-- some of its sub-fields -/
  | group (entries : List (String × Selection.Node))

/-- A tree of keys in the order in which they were first named. -/
abbrev Selection := List (String × Selection.Node)

namespace Selection

/-- The marker of a field that is taken. -/
def included : Int32 := 1

/-- The marker of a field that is left out. -/
def excluded : Int32 := 0

/-- Sets a key, whatever was there. -/
def insert (tree : Selection) (key : String) (node : Node) : Selection := Keyed.put key node tree

/-- The selection without a key, and what was there. -/
def remove (tree : Selection) (key : String) : Option Node × Selection :=
  (tree.lookup key, Keyed.erase key tree)

mutual

/-- The union of what is there with something more: a marker on either side takes the whole field,
the first one if both are markers. -/
def Node.union : Node → Node → Node
  | .marker n, .marker _ => .marker n
  | .group _, .marker n => .marker n
  | .marker n, .group _ => .marker n
  | .group entries, .group incoming => .group (merge entries incoming)

/-- The union of two selections: the keys of the second one that are new come last. -/
def merge : Selection → List (String × Node) → Selection
  | tree, [] => tree
  | tree, (key, node) :: rest =>
    merge (Keyed.adjust key (fun
      | none => node
      | some existing => existing.union node) tree) rest

end

/-- The union with one more entry. -/
def mergeEntry (tree : Selection) (key : String) (node : Node) : Selection :=
  merge tree [(key, node)]

/-- The union with one more node at a path; the levels on the way are groups. -/
def mergePath (tree : Selection) : Path → Node → Selection
  | [], _ => tree
  | [key], node => mergeEntry tree key node
  | key :: rest, node => mergeEntry tree key (.group (mergePath [] rest node))

/-- Sets the node at a path. A marker on the way covers the path already and stays. -/
def replacePath (tree : Selection) : Path → Node → Selection
  | [], _ => tree
  | [key], node => tree.insert key node
  | key :: rest, node =>
    match tree.lookup key with
    | some (.marker _) => tree
    | some (.group sub) => tree.insert key (.group (replacePath sub rest node))
    | none => tree.insert key (.group (replacePath [] rest node))

mutual

/-- A node whose groups are canonical. -/
def Node.canonical : Node → Node
  | .marker n => .marker n
  | .group entries => .group (canonicalOnto [] entries)

/-- The entries merged one after the other behind `done`, at the paths that their keys write. -/
def canonicalOnto (done : Selection) : List (String × Node) → Selection
  | [] => done
  | (key, node) :: rest =>
    canonicalOnto (mergePath done (Path.ofText key) node.canonical) rest

end

/-- The selection with every dotted key written as groups. -/
def canonical (tree : Selection) : Selection := canonicalOnto [] tree

/-- Where a path leads in a selection without dotted keys. -/
inductive Reach where
  /-- no entry covers any of it -/
  | outside
  /-- a marker on the way or at its end covers it -/
  | covered
  /-- it ends at a group -/
  | inside (tree : Selection)

def reach (tree : Selection) : Path → Reach
  | [] => .inside tree
  | key :: rest =>
    match tree.lookup key with
    | none => .outside
    | some (.marker _) => .covered
    | some (.group sub) => reach sub rest

mutual

/-- What is left of a node whose path leads to `place` in the selection that is taken away. A field
of which a part is taken away cannot be taken as a whole. -/
def Node.pruned : Node → Reach → Option Node
  | node, .outside => some node
  | _, .covered => none
  | .marker _, .inside _ => none
  | .group entries, .inside removal =>
    match prunedEntries (canonical removal) entries with
    | [] => none
    | rest => some (.group rest)

/-- The entries of which something is left. -/
def prunedEntries (removal : Selection) : List (String × Node) → Selection
  | [] => []
  | (key, node) :: rest =>
    match node.pruned (reach removal (Path.ofText key)) with
    | some kept => (key, kept) :: prunedEntries removal rest
    | none => prunedEntries removal rest

end

/-- The selection without all that overlaps a second one; a group of which nothing is left goes
too. Dotted keys count as groups on both sides. -/
def without (tree removal : Selection) : Selection := prunedEntries (canonical removal) tree

mutual

/-- A node as the body of a projection stage. -/
def Node.toValue : Node → Value
  | .marker n => .int32 n
  | .group entries => .document (Document.ofFields (toFields entries))

def toFields : List (String × Node) → List (String × Value)
  | [] => []
  | (key, node) :: rest => (key, node.toValue) :: toFields rest

end

/-- A selection as the body of a projection stage. -/
def toDocument (tree : Selection) : Document := Document.ofFields (toFields tree)

end Selection

end DocQuery
