import Mathlib
import LocalizationScan.Trie

namespace LocalizationScan

/-!
# Tries in an arena

The nodes of a trie can stand in one table and be known by their numbers.  The
root comes first, a new node comes last, and every node keeps the numbers of its
children.  Insertion keeps the table a tree: no node is the child of two others,
or of one under two characters, and the root is no child at all.  So each node
stands for one text, although its number says nothing about it.
-/

/-- A node of an arena. -/
structure ArenaNode where
  /-- The numbers of the children, each under the character that leads to it. -/
  children : List (Char × UInt32)
  entries : List Entry
  deriving Repr, DecidableEq

/-- A node with nothing below it and no entry. -/
def ArenaNode.fresh : ArenaNode := ⟨[], []⟩

/-- The nodes of a trie in the order of their numbers. -/
structure Arena where
  nodes : List ArenaNode
  deriving Repr, DecidableEq

namespace Arena

/-- The number of the root. -/
def root : UInt32 := 0

/-- The arena of the trie without entries. -/
def empty : Arena := ⟨[.fresh]⟩

/-- The child of a node under a character. -/
def child? (arena : Arena) (node : UInt32) (char : Char) : Option UInt32 :=
  (arena.nodes[node.toNat]?).bind fun found => found.children.lookup char

/-- Follow a character; without a child for it the walk is back at the root. -/
def step (arena : Arena) (node : UInt32) (char : Char) : UInt32 :=
  (arena.child? node char).getD root

/-- The entries that end at a node, in the order of insertion. -/
def entriesAt (arena : Arena) (node : UInt32) : List Entry :=
  ((arena.nodes[node.toNat]?).map ArenaNode.entries).getD []

/-- Whether the arena has no node but the root. -/
def isEmpty (arena : Arena) : Bool :=
  arena.nodes.length = 1

/-- Follow a character on the way of a new path: a child that is missing is made, and its
number is the next one. -/
def enter (arena : Arena) (node : UInt32) (char : Char) : Arena × UInt32 :=
  match arena.child? node char with
  | some child => (arena, child)
  | none =>
      let child := UInt32.ofNat arena.nodes.length
      let grown := (arena.nodes ++ [ArenaNode.fresh]).modify node.toNat fun parent =>
        { parent with children := (char, child) :: parent.children }
      (⟨grown⟩, child)

/-- Follow a path from the root and make the nodes that are missing on it. -/
def enterPath (arena : Arena) (path : Text) : Arena × UInt32 :=
  path.foldl (fun (arena, node) char => arena.enter node char) (arena, root)

/-- Add an entry to a node. -/
def addEntry (arena : Arena) (node : UInt32) (entry : Entry) : Arena where
  nodes := arena.nodes.modify node.toNat fun found =>
    { found with entries := found.entries ++ [entry] }

/-- Add an entry at the end of a path. -/
def insertPath (arena : Arena) (path : Text) (entry : Entry) : Arena :=
  (arena.enterPath path).1.addEntry (arena.enterPath path).2 entry

/-- Add an entry under all of its paths. -/
def insert (arena : Arena) (entry : Entry) : Arena :=
  entry.paths.foldl (fun arena path => arena.insertPath path entry) arena

/-- The arena of a list of entries. -/
def ofList (entries : List Entry) : Arena :=
  entries.foldl insert empty

variable {arena : Arena} {node child other parent : UInt32} {char letter : Char}
  {text path : Text}

/-- The node that a text leads to from the root, if there is one. -/
def follow? (arena : Arena) (text : Text) : Option UInt32 :=
  text.foldlM arena.child? root

theorem follow?_concat (arena : Arena) (text : Text) (char : Char) :
    arena.follow? (text ++ [char]) =
      (arena.follow? text).bind fun node => arena.child? node char := by
  simp [follow?]

/-- An arena in which every node but the root has one place. -/
structure IsTree (arena : Arena) : Prop where
  hasRoot : 0 < arena.nodes.length
  inRange :
    ∀ {node char child},
      arena.child? node char = some child → child.toNat < arena.nodes.length
  ne_root : ∀ {node char child}, arena.child? node char = some child → child ≠ root
  unique :
    ∀ {node other char letter child},
      arena.child? node char = some child → arena.child? other letter = some child →
        node = other ∧ char = letter

theorem childless_empty (node : UInt32) (char : Char) :
    empty.child? node char = none := by
  cases index : node.toNat <;> simp [child?, empty, ArenaNode.fresh, index]

theorem isTree_empty : empty.IsTree := by
  refine ⟨by simp [empty], ?_, ?_, ?_⟩ <;> simp [childless_empty]

theorem lt_length_of_child? (found : arena.child? node char = some child) :
    node.toNat < arena.nodes.length := by
  obtain ⟨_, stored, _⟩ := Option.bind_eq_some_iff.mp found
  exact (List.getElem?_eq_some_iff.mp stored).1

/-- A text leads to a node of the arena. -/
theorem IsTree.follow?_lt
    (tree : arena.IsTree)
    (followed : arena.follow? text = some node) :
    node.toNat < arena.nodes.length := by
  cases text using List.reverseRecOn with
  | nil =>
      cases followed
      exact tree.hasRoot
  | append_singleton text char =>
      rw [follow?_concat] at followed
      obtain ⟨_, _, found⟩ := Option.bind_eq_some_iff.mp followed
      exact tree.inRange found

/-- Different texts lead to different nodes. -/
theorem IsTree.follow?_injective
    (tree : arena.IsTree)
    {first second : Text}
    (followed : arena.follow? first = some node)
    (followedSecond : arena.follow? second = some node) :
    first = second := by
  have concat_ne_root {text : Text} {char : Char} :
      arena.follow? (text ++ [char]) ≠ some root := by
    intro followed
    rw [follow?_concat] at followed
    obtain ⟨_, _, found⟩ := Option.bind_eq_some_iff.mp followed
    exact tree.ne_root found rfl
  induction first using List.reverseRecOn generalizing second node with
  | nil =>
      cases followed
      cases second using List.reverseRecOn with
      | nil => rfl
      | append_singleton second letter => exact absurd followedSecond concat_ne_root
  | append_singleton first char inductionHypothesis =>
      cases second using List.reverseRecOn with
      | nil =>
          cases followedSecond
          exact absurd followed concat_ne_root
      | append_singleton second letter =>
          rw [follow?_concat] at followed followedSecond
          obtain ⟨parent, followed, found⟩ := Option.bind_eq_some_iff.mp followed
          obtain ⟨other, followedOther, foundOther⟩ :=
            Option.bind_eq_some_iff.mp followedSecond
          -- The node has one parent and one character, so the texts before it agree.
          obtain ⟨rfl, rfl⟩ := tree.unique found foundOther
          rw [inductionHypothesis followed followedOther]

/-- The node that is stored under a number when a missing child has been made. -/
theorem getElem?_nodes_enter
    (missing : arena.child? node char = none)
    (index : Nat) :
    (arena.enter node char).1.nodes[index]? =
      ((arena.nodes ++ [ArenaNode.fresh])[index]?).map fun found =>
        if node.toNat = index then
          { found with
            children := (char, .ofNat arena.nodes.length) :: found.children }
        else found := by
  simp only [enter, missing, List.getElem?_modify]
  rfl

theorem entriesAt_enter (arena : Arena) (node : UInt32) (char : Char) (probe : UInt32) :
    (arena.enter node char).1.entriesAt probe = arena.entriesAt probe := by
  cases found : arena.child? node char with
  | some child =>
      simp [enter, found]
  | none =>
      rw [entriesAt, getElem?_nodes_enter found, entriesAt, Option.map_map]
      by_cases stored : probe.toNat < arena.nodes.length
      · simp only [List.getElem?_append_left stored, List.getElem?_eq_getElem stored,
          Option.map_some, Function.comp_apply]
        split <;> rfl
      · rw [List.getElem?_append_right (Nat.le_of_not_lt stored),
          List.getElem?_eq_none (Nat.le_of_not_lt stored)]
        cases probe.toNat - arena.nodes.length with
        | zero =>
            simp only [List.getElem?_cons_zero, Option.map_some, Function.comp_apply]
            split <;> rfl
        | succ => simp

theorem length_enter (missing : arena.child? node char = none) :
    (arena.enter node char).1.nodes.length = arena.nodes.length + 1 := by
  simp [enter, missing]

/-- A child that is made hangs under its character, and nothing else changes. -/
theorem child?_enter
    (inRange : node.toNat < arena.nodes.length)
    (missing : arena.child? node char = none)
    (probe : UInt32)
    (letter : Char) :
    (arena.enter node char).1.child? probe letter =
      if probe = node ∧ letter = char then some (.ofNat arena.nodes.length)
      else arena.child? probe letter := by
  rw [child?, getElem?_nodes_enter missing]
  by_cases stored : probe.toNat < arena.nodes.length
  · rw [List.getElem?_append_left stored]
    by_cases here : probe = node
    · subst here
      by_cases same : letter = char
      · simp [stored, same]
      · have differs : (letter == char) = false := beq_eq_false_iff_ne.mpr same
        simp [child?, stored, same, List.lookup_cons, differs]
    · have apart : node.toNat ≠ probe.toNat := fun same => here (UInt32.toNat_inj.mp same).symm
      simp [child?, here, apart]
  · have apart : node.toNat ≠ probe.toNat := by omega
    have here : probe ≠ node := by
      rintro rfl
      exact stored inRange
    rw [List.getElem?_append_right (Nat.le_of_not_lt stored)]
    cases index : probe.toNat - arena.nodes.length <;>
      simp [child?, here, apart, stored, ArenaNode.fresh]

section Making

variable (few : arena.nodes.length < 2 ^ 32) (missing : arena.child? node char = none)
include few missing

/-- The tree stays one when a missing child is made. -/
theorem IsTree.enter
    (tree : arena.IsTree)
    (inRange : node.toNat < arena.nodes.length) :
    (arena.enter node char).1.IsTree := by
  have number : (UInt32.ofNat arena.nodes.length).toNat = arena.nodes.length :=
    UInt32.toNat_ofNat_of_lt' few
  have length := length_enter missing
  -- The new node is no child yet, so it has one parent now.
  have isNew {parent : UInt32} {letter : Char} :
      arena.child? parent letter ≠ some (.ofNat arena.nodes.length) := by
    intro found
    have stored := tree.inRange found
    omega
  have edge {parent : UInt32} {letter : Char} {child : UInt32}
      (found : (arena.enter node char).1.child? parent letter = some child) :
      parent = node ∧ letter = char ∧ child = .ofNat arena.nodes.length ∨
        arena.child? parent letter = some child := by
    rw [child?_enter inRange missing] at found
    split at found
    · next here => exact .inl ⟨here.1, here.2, (Option.some.inj found).symm⟩
    · exact .inr found
  refine ⟨by omega, ?_, ?_, ?_⟩
  · intro parent letter child found
    rcases edge found with ⟨-, -, rfl⟩ | found
    · omega
    · have stored := tree.inRange found
      omega
  · intro parent letter child found
    rcases edge found with ⟨-, -, rfl⟩ | found
    · intro isRoot
      have hasRoot := tree.hasRoot
      rw [isRoot] at number
      simp [root] at number
      omega
    · exact tree.ne_root found
  · intro parent other letter otherLetter child found foundOther
    rcases edge found with ⟨rfl, rfl, rfl⟩ | found
    · rcases edge foundOther with ⟨rfl, rfl, -⟩ | foundOther
      · exact ⟨rfl, rfl⟩
      · exact absurd foundOther isNew
    · rcases edge foundOther with ⟨-, -, rfl⟩ | foundOther
      · exact absurd found isNew
      · exact tree.unique found foundOther

/-- A missing child that is made is where the longer text leads to; all other texts lead to
where they led. -/
theorem follow?_enter
    (tree : arena.IsTree)
    (followed : arena.follow? path = some node)
    (text : Text) :
    (arena.enter node char).1.follow? text =
      if text = path ++ [char] then some (.ofNat arena.nodes.length)
      else arena.follow? text := by
  have inRange := tree.follow?_lt followed
  have number : (UInt32.ofNat arena.nodes.length).toNat = arena.nodes.length :=
    UInt32.toNat_ofNat_of_lt' few
  have nowhere : arena.follow? (path ++ [char]) = none := by
    rw [follow?_concat, followed, Option.bind_some, missing]
  induction text using List.reverseRecOn with
  | nil =>
      simp [follow?]
  | append_singleton text letter inductionHypothesis =>
      rw [follow?_concat, inductionHypothesis]
      by_cases beyond : text = path ++ [char]
      · subst beyond
        have childless : arena.child? (.ofNat arena.nodes.length) letter = none := by
          rw [← Option.not_isSome_iff_eq_none, Option.isSome_iff_exists]
          rintro ⟨child, found⟩
          have stored := lt_length_of_child? found
          omega
        have notParent : UInt32.ofNat arena.nodes.length ≠ node := by
          rintro rfl
          omega
        rw [if_pos rfl, Option.bind_some, child?_enter inRange missing,
          if_neg (fun both => notParent both.1), childless, if_neg (by simp), follow?_concat,
          nowhere, Option.bind_none]
      · rw [if_neg beyond]
        cases followedText : arena.follow? text with
        | none =>
            have apart : text ++ [letter] ≠ path ++ [char] := by
              intro same
              obtain ⟨rfl, -⟩ := List.append_inj' same rfl
              cases followed.symm.trans followedText
            rw [if_neg apart, follow?_concat, followedText, Option.bind_none, Option.bind_none]
        | some probe =>
            have here : probe = node ∧ letter = char ↔ text ++ [letter] = path ++ [char] := by
              constructor
              · rintro ⟨rfl, rfl⟩
                rw [tree.follow?_injective followedText followed]
              · intro same
                obtain ⟨rfl, letters⟩ := List.append_inj' same rfl
                exact ⟨Option.some.inj (followedText.symm.trans followed), by simpa using letters⟩
            rw [Option.bind_some, child?_enter inRange missing, follow?_concat, followedText,
              Option.bind_some]
            simp only [here]

end Making

/-- An arena with the nodes of another one, and with one for every start of a path. -/
structure Extends (arena : Arena) (path : Text) (grown : Arena) : Prop where
  isTree : grown.IsTree
  follow?_eq :
    ∀ {text node}, arena.follow? text = some node → grown.follow? text = some node
  isSome_follow?_iff :
    ∀ text, (grown.follow? text).isSome ↔ (arena.follow? text).isSome ∨ text <+: path
  entriesAt_eq : ∀ node, grown.entriesAt node = arena.entriesAt node

/-- Following one more character extends the path by it. -/
theorem Extends.enter
    {grown : Arena}
    (extended : arena.Extends path grown)
    (followed : grown.follow? path = some node)
    (few : (grown.enter node char).1.nodes.length ≤ 2 ^ 32) :
    arena.Extends (path ++ [char]) (grown.enter node char).1 ∧
      (grown.enter node char).1.follow? (path ++ [char]) =
        some (grown.enter node char).2 := by
  have concat : grown.follow? (path ++ [char]) = grown.child? node char := by
    rw [follow?_concat, followed, Option.bind_some]
  cases found : grown.child? node char with
  | some child =>
      rw [found] at concat
      simp only [Arena.enter, found]
      refine ⟨⟨extended.isTree, extended.follow?_eq, fun text => ?_, extended.entriesAt_eq⟩,
        concat⟩
      rw [extended.isSome_follow?_iff, List.prefix_concat_iff]
      constructor
      · exact Or.imp_right .inr
      · rintro (before | rfl | starts)
        · exact .inl before
        · exact (extended.isSome_follow?_iff _).mp (by simp [concat])
        · exact .inr starts
  | none =>
      rw [length_enter found] at few
      have follow := follow?_enter (Nat.lt_of_succ_le few) found extended.isTree followed
      have tree :=
        extended.isTree.enter (Nat.lt_of_succ_le few) found (extended.isTree.follow?_lt followed)
      have made : (grown.enter node char).2 = .ofNat grown.nodes.length := by
        simp [Arena.enter, found]
      rw [found] at concat
      refine ⟨⟨tree, fun {text node} before => ?_, fun text => ?_, fun probe => ?_⟩, ?_⟩
      · have kept := extended.follow?_eq before
        have apart : text ≠ path ++ [char] := by
          rintro rfl
          cases kept.symm.trans concat
        rw [follow, if_neg apart, kept]
      · rw [follow, List.prefix_concat_iff]
        by_cases here : text = path ++ [char]
        · simp [here]
        · simp [here, extended.isSome_follow?_iff]
      · rw [entriesAt_enter, extended.entriesAt_eq]
      · rw [follow, if_pos rfl, made]

theorem enterPath_concat (arena : Arena) (path : Text) (char : Char) :
    arena.enterPath (path ++ [char]) =
      (arena.enterPath path).1.enter (arena.enterPath path).2 char := by
  simp [enterPath]

theorem length_le_enter (arena : Arena) (node : UInt32) (char : Char) :
    arena.nodes.length ≤ (arena.enter node char).1.nodes.length := by
  cases found : arena.child? node char with
  | some child => simp [enter, found]
  | none => simp [length_enter found]

/-- A path that is followed leads to the node that is found, and its starts have nodes. -/
theorem IsTree.enterPath
    (tree : arena.IsTree)
    (path : Text)
    (few : (arena.enterPath path).1.nodes.length ≤ 2 ^ 32) :
    arena.Extends path (arena.enterPath path).1 ∧
      (arena.enterPath path).1.follow? path = some (arena.enterPath path).2 := by
  induction path using List.reverseRecOn with
  | nil =>
      refine ⟨⟨tree, id, fun text => ?_, fun _ => rfl⟩, rfl⟩
      have root : text <+: [] → (arena.follow? text).isSome := by
        intro starts
        cases List.prefix_nil.mp starts
        rfl
      exact ⟨.inl, fun either => either.elim id root⟩
  | append_singleton path char inductionHypothesis =>
      rw [enterPath_concat] at few ⊢
      obtain ⟨extended, followed⟩ :=
        inductionHypothesis (Nat.le_trans (length_le_enter _ _ _) few)
      exact extended.enter followed few

section AddingEntries

variable (arena) (node) (entry : Entry)

theorem length_addEntry : (arena.addEntry node entry).nodes.length = arena.nodes.length :=
  List.length_modify ..

theorem child?_addEntry : (arena.addEntry node entry).child? = arena.child? := by
  funext probe letter
  simp only [child?, addEntry, List.getElem?_modify]
  cases arena.nodes[probe.toNat]? with
  | none => rfl
  | some found => by_cases here : node.toNat = probe.toNat <;> simp [here]

theorem follow?_addEntry : (arena.addEntry node entry).follow? = arena.follow? := by
  funext text
  rw [follow?, child?_addEntry, follow?]

variable {arena} {node}

theorem IsTree.addEntry (tree : arena.IsTree) : (arena.addEntry node entry).IsTree := by
  constructor <;> simp only [length_addEntry, child?_addEntry]
  · exact tree.hasRoot
  · exact tree.inRange
  · exact tree.ne_root
  · exact tree.unique

/-- An entry comes behind those that the node holds, and the other nodes hold what they held. -/
theorem entriesAt_addEntry
    (inRange : node.toNat < arena.nodes.length)
    (probe : UInt32) :
    (arena.addEntry node entry).entriesAt probe =
      arena.entriesAt probe ++ if probe = node then [entry] else [] := by
  simp only [entriesAt, Arena.addEntry, List.getElem?_modify]
  by_cases here : probe = node
  · subst here
    simp [inRange]
  · have apart : node.toNat ≠ probe.toNat := fun same => here (UInt32.toNat_inj.mp same).symm
    simp [here, apart]

end AddingEntries

/-- An arena into which entries have been inserted under some paths, in this order. -/
structure Represents (arena : Arena) (inserted : List (Text × Entry)) : Prop where
  isTree : arena.IsTree
  isSome_follow?_iff :
    ∀ text,
      (arena.follow? text).isSome ↔
        text = [] ∨ ∃ insertion ∈ inserted, text <+: insertion.1
  entriesAt_eq :
    ∀ {text node}, arena.follow? text = some node →
      arena.entriesAt node = (inserted.filter fun insertion => insertion.1 = text).map Prod.snd
  /-- Numbers to which no text leads hold nothing, so a node that is made holds nothing. -/
  entriesAt_eq_nil :
    ∀ {node}, (∀ text, arena.follow? text ≠ some node) → arena.entriesAt node = []

theorem represents_empty : empty.Represents [] := by
  have holdsNothing (node : UInt32) : empty.entriesAt node = [] := by
    cases index : node.toNat <;> simp [entriesAt, empty, ArenaNode.fresh, index]
  refine ⟨isTree_empty, fun text => ?_, fun _ => holdsNothing _, fun _ => holdsNothing _⟩
  cases text using List.reverseRecOn with
  | nil => simp [follow?]
  | append_singleton text char =>
      rw [follow?_concat]
      simp [childless_empty]

/-- One more path is inserted behind the others. -/
theorem Represents.insertPath
    {inserted : List (Text × Entry)}
    (represented : arena.Represents inserted)
    (path : Text)
    (entry : Entry)
    (few : (arena.insertPath path entry).nodes.length ≤ 2 ^ 32) :
    (arena.insertPath path entry).Represents (inserted ++ [(path, entry)]) := by
  rw [Arena.insertPath, length_addEntry] at few
  obtain ⟨extended, followed⟩ := represented.isTree.enterPath path few
  have inRange := extended.isTree.follow?_lt followed
  unfold Arena.insertPath
  refine ⟨extended.isTree.addEntry entry, fun text => ?_, fun {text node} followedText => ?_,
    fun {node} nowhere => ?_⟩
  · rw [follow?_addEntry, extended.isSome_follow?_iff, represented.isSome_follow?_iff]
    simp only [List.mem_append, List.mem_singleton, or_and_right, exists_or, exists_eq_left,
      or_assoc]
  · rw [follow?_addEntry] at followedText
    have before :
        arena.entriesAt node =
          (inserted.filter fun insertion => insertion.1 = text).map Prod.snd := by
      cases earlier : arena.follow? text with
      | some other =>
          cases (extended.follow?_eq earlier).symm.trans followedText
          exact represented.entriesAt_eq earlier
      | none =>
          have unused : ∀ insertion ∈ inserted, insertion.1 ≠ text := by
            rintro insertion member rfl
            have isSome := (represented.isSome_follow?_iff _).mpr
              (.inr ⟨insertion, member, List.prefix_rfl⟩)
            simp [earlier] at isSome
          have filtered : (inserted.filter fun insertion => insertion.1 = text) = [] := by
            simpa using unused
          rw [filtered, List.map_nil]
          apply represented.entriesAt_eq_nil
          intro other followedOther
          cases extended.isTree.follow?_injective (extended.follow?_eq followedOther) followedText
          cases earlier.symm.trans followedOther
    have here : node = (arena.enterPath path).2 ↔ path = text := by
      constructor
      · rintro rfl
        exact extended.isTree.follow?_injective followed followedText
      · rintro rfl
        exact Option.some.inj (followedText.symm.trans followed)
    rw [entriesAt_addEntry entry inRange, extended.entriesAt_eq, before, List.filter_append,
      List.map_append]
    simp only [here]
    by_cases same : path = text <;> simp [same]
  · rw [follow?_addEntry] at nowhere
    have apart : node ≠ (arena.enterPath path).2 := by
      rintro rfl
      exact nowhere path followed
    rw [entriesAt_addEntry entry inRange, if_neg apart, extended.entriesAt_eq, List.append_nil]
    exact represented.entriesAt_eq_nil fun text earlier => nowhere text (extended.follow?_eq earlier)

theorem length_le_insertPath (arena : Arena) (path : Text) (entry : Entry) :
    arena.nodes.length ≤ (arena.insertPath path entry).nodes.length := by
  rw [insertPath, length_addEntry]
  induction path using List.reverseRecOn with
  | nil => exact Nat.le_refl _
  | append_singleton path char inductionHypothesis =>
      rw [enterPath_concat]
      exact Nat.le_trans inductionHypothesis (length_le_enter _ _ _)

end Arena

/-- The paths under which entries are inserted, in order, each with its entry. -/
def Entry.insertions (entries : List Entry) : List (Text × Entry) :=
  entries.flatMap fun entry => entry.paths.map fun path => (path, entry)

namespace Arena

/-- An arena represents the insertions that have made it. -/
theorem represents_ofList
    (entries : List Entry)
    (few : (ofList entries).nodes.length ≤ 2 ^ 32) :
    (ofList entries).Represents (Entry.insertions entries) := by
  have flat :
      ofList entries =
        (Entry.insertions entries).foldl
          (fun arena insertion => arena.insertPath insertion.1 insertion.2) empty := by
    simp only [Entry.insertions, List.foldl_flatMap, List.foldl_map]
    rfl
  rw [flat] at few ⊢
  generalize Entry.insertions entries = inserted at few ⊢
  induction inserted using List.reverseRecOn with
  | nil => exact represents_empty
  | append_singleton inserted insertion inductionHypothesis =>
      rw [List.foldl_append, List.foldl_cons, List.foldl_nil] at few ⊢
      have fewBefore := Nat.le_trans (length_le_insertPath _ _ _) few
      exact (inductionHypothesis fewBefore).insertPath insertion.1 insertion.2 few

end Arena

end LocalizationScan
