import LocalizationScan.Resource.Basic

namespace LocalizationScan

/-!
# The trie of resource paths

A prefix tree over the paths of resource entries.  Every entry is stored under
each of its paths; a node keeps the entries that end there in the order of
insertion, repeated ones included.  A node is named by the text that leads to
it from the root, so the empty text names the root.
-/

/-- The subtrees below one node, each under the character that leads to it. -/
inductive Branches where
  | none
  | node (label : Char) (entries : List Entry) (below beside : Branches)
  deriving Repr, DecidableEq

namespace Branches

/-- The entries and the subtrees of the node that a character leads to. -/
def child? (char : Char) : Branches → Option (List Entry × Branches)
  | .none => .none
  | .node label entries below beside =>
      if label = char then some (entries, below) else child? char beside

/-- The entries and the subtrees of the node that a non-empty text leads to. -/
def descend? (branches : Branches) : Char → Text → Option (List Entry × Branches)
  | char, [] => branches.child? char
  | char, next :: rest =>
      match branches.child? char with
      | some (_, below) => below.descend? next rest
      | .none => .none

/-- A chain of new nodes that ends with an entry. -/
def chain (entry : Entry) : Char → Text → Branches
  | char, [] => .node char [entry] .none .none
  | char, next :: rest => .node char [] (chain entry next rest) .none

/-- Add an entry at the end of a non-empty path. -/
def insert (entry : Entry) (char : Char) (rest : Text) : Branches → Branches
  | .none => chain entry char rest
  | .node label entries below beside =>
      if label = char then
        match rest with
        | [] => .node label (entries ++ [entry]) below beside
        | next :: rest => .node label entries (below.insert entry next rest) beside
      else
        .node label entries below (beside.insert entry char rest)

/-- Add an entry at the end of a path; the root holds no entries. -/
def insertPath (branches : Branches) (entry : Entry) : Text → Branches
  | [] => branches
  | char :: rest => branches.insert entry char rest

end Branches

/-- The trie of some resource entries, with the full names of their classes. -/
structure Trie where
  branches : Branches
  classes : List Text
  deriving Repr, DecidableEq

namespace Trie

/-- A node, named by the text that leads to it. -/
abbrev Node := Text

/-- The root, which is also where a walk ends up that leaves the trie. -/
def root : Node := []

/-- The trie without entries. -/
def empty : Trie := ⟨.none, []⟩

/-- Add an entry under all of its paths. -/
def insert (trie : Trie) (entry : Entry) : Trie where
  branches := entry.paths.foldl (fun branches path => branches.insertPath entry path) trie.branches
  classes :=
    let name := entry.origin.qualifiedClass
    if trie.classes.contains name then trie.classes else trie.classes ++ [name]

/-- The trie of a list of entries. -/
def ofList (entries : List Entry) : Trie :=
  entries.foldl insert empty

/-- The entries and the subtrees of a node below the root. -/
def find? (trie : Trie) : Node → Option (List Entry × Branches)
  | [] => none
  | char :: rest => trie.branches.descend? char rest

/-- Follow a character; without a node for it the walk is back at the root. -/
def step (trie : Trie) (node : Node) (char : Char) : Node :=
  if (trie.find? (node ++ [char])).isSome then node ++ [char] else root

/-- Follow all characters of a text from the root. -/
def walk (trie : Trie) (text : Text) : Node :=
  text.foldl trie.step root

/-- The entries that end at a node, in the order of insertion. -/
def entriesAt (trie : Trie) (node : Node) : List Entry :=
  match trie.find? node with
  | some (entries, _) => entries
  | none => []

/-- Whether an entry ends at a node. -/
def isTerminal (trie : Trie) (node : Node) : Bool :=
  !(trie.entriesAt node).isEmpty

/-- Whether a full name is that of a resource class. -/
def containsClass (trie : Trie) (name : Text) : Bool :=
  trie.classes.contains name

/-- Whether the trie has no node but the root. -/
def isEmpty (trie : Trie) : Bool :=
  trie.branches = .none

end Trie

end LocalizationScan
