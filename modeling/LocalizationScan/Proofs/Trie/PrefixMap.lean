import LocalizationScan.Proofs.Trie.Arena
import LocalizationScan.Proofs.Trie.Paths

namespace LocalizationScan

/-!
# Tries as prefix maps

A walk over the nodes of a trie stays away from the root exactly as long as it
follows the start of an inserted path, different starts lead to different nodes,
and a node holds what was inserted under the path that leads to it.  This is so
for nodes that are named by their text and for nodes that are numbered in an
arena, and it stays so with every entry that is inserted.
-/

namespace Entry

theorem mem_insertions_iff
    {entries : List Entry}
    {insertion : Text × Entry} :
    insertion ∈ insertions entries ↔
      insertion.2 ∈ entries ∧ insertion.1 ∈ insertion.2.paths := by
  obtain ⟨path, entry⟩ := insertion
  simp only [insertions, List.mem_flatMap, List.mem_map, Prod.mk.injEq]
  constructor
  · rintro ⟨_, member, _, ends, rfl, rfl⟩
    exact ⟨member, ends⟩
  · rintro ⟨member, ends⟩
    exact ⟨entry, member, path, ends, rfl, rfl⟩

theorem exists_insertions_iff
    (entries : List Entry)
    (property : Text → Prop) :
    (∃ insertion ∈ insertions entries, property insertion.1) ↔
      ∃ entry ∈ entries, ∃ path ∈ entry.paths, property path := by
  constructor
  · rintro ⟨insertion, member, holds⟩
    obtain ⟨inserted, ends⟩ := mem_insertions_iff.mp member
    exact ⟨insertion.2, inserted, insertion.1, ends, holds⟩
  · rintro ⟨entry, inserted, path, ends, holds⟩
    exact ⟨(path, entry), mem_insertions_iff.mpr ⟨inserted, ends⟩, holds⟩

/-- An entry has its short path and, in a namespace, its full one. -/
theorem exists_mem_paths_iff
    (entry : Entry)
    (property : Text → Prop) :
    (∃ path ∈ entry.paths, property path) ↔
      property entry.classPath ∨ entry.origin.scope ≠ [] ∧ property entry.fullPath := by
  by_cases isGlobal : entry.origin.scope = [] <;> simp [paths, isGlobal]

theorem classPath_mem_paths (entry : Entry) : entry.classPath ∈ entry.paths := by
  unfold paths
  split <;> exact List.mem_cons_self

/-- The paths of an entry differ, so it is inserted at most once under a path. -/
theorem map_filter_insertions (entries : List Entry) (text : Text) :
    ((insertions entries).filter fun insertion => insertion.1 = text).map Prod.snd =
      entries.filter fun entry => text ∈ entry.paths := by
  induction entries with
  | nil =>
      rfl
  | cons entry entries inductionHypothesis =>
      have here :
          ((entry.paths.map fun path => (path, entry)).filter
              fun insertion => insertion.1 = text).map Prod.snd =
            if text ∈ entry.paths then [entry] else [] := by
        rw [List.filter_map, List.map_map]
        show (entry.paths.filter fun path => path = text).map (fun _ => entry) = _
        rw [List.filter_eq, List.map_replicate, entry.nodup_paths.count]
        split <;> rfl
      rw [insertions, List.flatMap_cons, List.filter_append, List.map_append, here,
        ← insertions, inductionHypothesis, List.filter_cons]
      simp only [decide_eq_true_eq]
      split <;> rfl

end Entry

/-- Nodes that are walked over character by character, however they are named. -/
structure Walkable (Node : Type) where
  root : Node
  step : Node → Char → Node
  entriesAt : Node → List Entry

/-- The nodes of a trie, named by their texts. -/
def Trie.walkable (trie : Trie) : Walkable Trie.Node :=
  ⟨Trie.root, trie.step, trie.entriesAt⟩

/-- The nodes of an arena, named by their numbers. -/
def Arena.walkable (arena : Arena) : Walkable UInt32 :=
  ⟨Arena.root, arena.step, arena.entriesAt⟩

namespace Walkable

variable {Node : Type} {nodes : Walkable Node}

/-- Follow all characters of a text from the root. -/
def walk (nodes : Walkable Node) (text : Text) : Node :=
  text.foldl nodes.step nodes.root

/-- Whether an entry ends at a node. -/
def isTerminal (nodes : Walkable Node) (node : Node) : Bool :=
  !(nodes.entriesAt node).isEmpty

/-- A non-empty text along which the walk never comes back to the root. -/
def IsLive (nodes : Walkable Node) (text : Text) : Prop :=
  text ≠ [] ∧ ∀ front, front ≠ [] → front <+: text → nodes.walk front ≠ nodes.root

/-- What walks make of the nodes when some entries have been inserted, each under its paths. -/
structure IsPrefixMap (nodes : Walkable Node) (entries : List Entry) : Prop where
  isLive_iff :
    ∀ text,
      nodes.IsLive text ↔
        text ≠ [] ∧
          ∃ entry ∈ entries,
            text <+: entry.classPath ∨ entry.origin.scope ≠ [] ∧ text <+: entry.fullPath
  /-- In the order of insertion, and as often as the path was inserted. -/
  entriesAt_walk :
    ∀ text, nodes.IsLive text →
      nodes.entriesAt (nodes.walk text) =
        ((Entry.insertions entries).filter fun insertion => insertion.1 = text).map Prod.snd
  isTerminal_walk :
    ∀ text, nodes.IsLive text →
      (nodes.isTerminal (nodes.walk text) = true ↔ ∃ entry ∈ entries, text ∈ entry.paths)
  walk_injective :
    ∀ first second, nodes.IsLive first → nodes.IsLive second →
      nodes.walk first = nodes.walk second → first = second

/-- Nodes to which the starts of the inserted paths lead, each to its own. -/
structure Follows
    (nodes : Walkable Node)
    (follow? : Text → Option Node)
    (inserted : List (Text × Entry)) :
    Prop where
  follow?_nil : follow? [] = some nodes.root
  step_eq :
    ∀ {text node} char, follow? text = some node →
      nodes.step node char = (follow? (text ++ [char])).getD nodes.root
  injective :
    ∀ {first second node}, follow? first = some node → follow? second = some node →
      first = second
  isSome_iff :
    ∀ text,
      (follow? text).isSome ↔ text = [] ∨ ∃ insertion ∈ inserted, text <+: insertion.1
  entriesAt_eq :
    ∀ {text node}, follow? text = some node →
      nodes.entriesAt node = (inserted.filter fun insertion => insertion.1 = text).map Prod.snd

section Follows

variable {follow? : Text → Option Node} {inserted : List (Text × Entry)} {text : Text}

/-- A text that leads to a node is walked along to that node. -/
theorem Follows.eq_some_walk
    (follows : nodes.Follows follow? inserted)
    (isSome : (follow? text).isSome) :
    follow? text = some (nodes.walk text) := by
  induction text using List.reverseRecOn with
  | nil =>
      exact follows.follow?_nil
  | append_singleton text char inductionHypothesis =>
      have isSomeFront : (follow? text).isSome := by
        rw [follows.isSome_iff] at isSome ⊢
        obtain ⟨insertion, member, starts⟩ := isSome.resolve_left (by simp)
        exact .inr ⟨insertion, member, (List.prefix_append _ _).trans starts⟩
      obtain ⟨node, followed⟩ := Option.isSome_iff_exists.mp isSome
      have stepped := follows.step_eq char (inductionHypothesis isSomeFront)
      rw [followed, Option.getD_some] at stepped
      rw [walk, List.foldl_append, List.foldl_cons, List.foldl_nil, ← walk, stepped, followed]

/-- The live texts are those that lead to a node other than the root. -/
theorem Follows.isLive_iff
    (follows : nodes.Follows follow? inserted)
    (text : Text) :
    nodes.IsLive text ↔ text ≠ [] ∧ (follow? text).isSome := by
  constructor
  · rintro ⟨nonempty, away⟩
    refine ⟨nonempty, ?_⟩
    clear nonempty
    induction text using List.reverseRecOn with
    | nil =>
        simp [follows.follow?_nil]
    | append_singleton text char inductionHypothesis =>
        have isSome := inductionHypothesis fun front nonempty starts =>
          away front nonempty (starts.trans (List.prefix_append _ _))
        have stepped := follows.step_eq char (follows.eq_some_walk isSome)
        have awayHere := away (text ++ [char]) (by simp) List.prefix_rfl
        rw [walk, List.foldl_append, List.foldl_cons, List.foldl_nil, ← walk, stepped] at awayHere
        cases followed : follow? (text ++ [char]) with
        | none => simp [followed] at awayHere
        | some node => rfl
  · rintro ⟨nonempty, isSome⟩
    refine ⟨nonempty, fun front nonemptyFront starts atRoot => nonemptyFront ?_⟩
    have isSomeFront : (follow? front).isSome := by
      rw [follows.isSome_iff] at isSome ⊢
      obtain ⟨insertion, member, startsText⟩ := isSome.resolve_left nonempty
      exact .inr ⟨insertion, member, starts.trans startsText⟩
    have followed := follows.eq_some_walk isSomeFront
    rw [atRoot] at followed
    exact follows.injective followed follows.follow?_nil

end Follows

/-- Nodes to which the starts of the paths of entries lead are a prefix map of these entries. -/
theorem Follows.isPrefixMap
    {follow? : Text → Option Node}
    {entries : List Entry}
    (follows : nodes.Follows follow? (Entry.insertions entries)) :
    nodes.IsPrefixMap entries := by
  have followed {text : Text} (live : nodes.IsLive text) :
      follow? text = some (nodes.walk text) :=
    follows.eq_some_walk ((follows.isLive_iff text).mp live).2
  refine ⟨fun text => ?_, fun text live => follows.entriesAt_eq (followed live),
    fun text live => ?_, fun first second live liveSecond same => ?_⟩
  · rw [follows.isLive_iff, follows.isSome_iff,
      Entry.exists_insertions_iff entries (text <+: ·)]
    simp only [Entry.exists_mem_paths_iff]
    exact and_congr_right fun nonempty => or_iff_right nonempty
  · simp only [isTerminal, follows.entriesAt_eq (followed live), Bool.not_eq_true',
      List.isEmpty_eq_false_iff_exists_mem, List.mem_map, List.mem_filter, decide_eq_true_eq]
    constructor
    · rintro ⟨_, insertion, ⟨member, rfl⟩, rfl⟩
      exact ⟨insertion.2, Entry.mem_insertions_iff.mp member⟩
    · rintro ⟨entry, inserted, ends⟩
      exact ⟨entry, (text, entry), ⟨Entry.mem_insertions_iff.mpr ⟨inserted, ends⟩, rfl⟩, rfl⟩
  · refine follows.injective (followed live) ?_
    rw [same]
    exact followed liveSecond

end Walkable

namespace Trie

/-- The node that a text leads to from the root, if there is one. -/
def follow? (trie : Trie) (text : Text) : Option Node :=
  if text = [] ∨ (trie.find? text).isSome then some text else none

theorem follows_ofList (entries : List Entry) :
    (ofList entries).walkable.Follows (ofList entries).follow? (Entry.insertions entries) := by
  refine ⟨rfl, fun {text node} char followed => ?_, fun followed followedSecond => ?_,
    fun text => ?_, fun {text node} followed => ?_⟩
  · obtain ⟨-, rfl⟩ := Option.ite_some_none_eq_some.mp followed
    show step _ text char = _
    simp only [step, follow?, List.append_eq_nil_iff, List.cons_ne_self, and_false, false_or]
    split <;> rfl
  · obtain ⟨-, rfl⟩ := Option.ite_some_none_eq_some.mp followed
    exact (Option.ite_some_none_eq_some.mp followedSecond).2.symm
  · have reaches := reaches_ofList entries text
    rw [Entry.exists_insertions_iff entries (text <+: ·)]
    unfold Reaches at reaches
    by_cases atRoot : text = [] <;> simp [follow?, reaches, atRoot]
  · obtain ⟨-, rfl⟩ := Option.ite_some_none_eq_some.mp followed
    rw [Entry.map_filter_insertions]
    exact entriesAt_ofList entries text

theorem isEmpty_ofList_iff (entries : List Entry) :
    (ofList entries).isEmpty = true ↔ entries = [] := by
  constructor
  · intro noBranches
    rw [isEmpty, decide_eq_true_eq] at noBranches
    by_contra nonempty
    obtain ⟨entry, member⟩ := List.exists_mem_of_ne_nil _ nonempty
    -- The short path of an entry would lead to a node.
    have ends := entry.classPath_mem_paths
    have reaches :=
      (reaches_ofList entries entry.classPath).mpr
        ⟨entry.ne_nil_of_mem_paths _ ends, entry, member, _, ends, List.prefix_rfl⟩
    cases path : entry.classPath with
    | nil => exact entry.ne_nil_of_mem_paths _ ends path
    | cons char rest => simp [path, Reaches, find?, noBranches] at reaches
  · rintro rfl
    rfl

end Trie

section Arena

variable (entries : List Entry)

theorem Arena.follows_ofList
    (few : (ofList entries).nodes.length ≤ 2 ^ 32) :
    (ofList entries).walkable.Follows (ofList entries).follow? (Entry.insertions entries) := by
  have represented := represents_ofList entries few
  refine ⟨rfl, fun {text node} char followed => ?_, represented.isTree.follow?_injective,
    represented.isSome_follow?_iff, represented.entriesAt_eq⟩
  rw [follow?_concat, followed]
  rfl

theorem Arena.isEmpty_ofList_iff
    (few : (ofList entries).nodes.length ≤ 2 ^ 32) :
    (ofList entries).isEmpty = true ↔ entries = [] := by
  constructor
  · intro single
    rw [isEmpty, decide_eq_true_eq] at single
    by_contra nonempty
    obtain ⟨entry, member⟩ := List.exists_mem_of_ne_nil _ nonempty
    have represented := represents_ofList entries few
    -- The short path of an entry would lead to a second node.
    have ends := entry.classPath_mem_paths
    have isSome := (represented.isSome_follow?_iff entry.classPath).mpr <| .inr
      ⟨(entry.classPath, entry), Entry.mem_insertions_iff.mpr ⟨member, ends⟩, List.prefix_rfl⟩
    obtain ⟨node, followed⟩ := Option.isSome_iff_exists.mp isSome
    have stored := represented.isTree.follow?_lt followed
    have number : node.toNat = root.toNat := Nat.lt_one_iff.mp (single ▸ stored)
    cases UInt32.toNat_inj.mp number
    exact entry.ne_nil_of_mem_paths _ ends (represented.isTree.follow?_injective followed rfl)
  · rintro rfl
    rfl

end Arena

/-- A trie of fewer than 2³² nodes knows exactly the paths of its entries, by name and by
number, and so does the trie with any further entries inserted. -/
theorem Trie.isPrefixMap_foldl_insert
    (entries later : List Entry)
    (few : (later.foldl Arena.insert (Arena.ofList entries)).nodes.length < 2 ^ 32) :
    let trie := later.foldl insert (ofList entries)
    let arena := later.foldl Arena.insert (Arena.ofList entries)
    trie.walkable.IsPrefixMap (entries ++ later) ∧
      arena.walkable.IsPrefixMap (entries ++ later) ∧ arena.IsTree ∧
      (∀ name,
        trie.containsClass name = true ↔
          ∃ entry ∈ entries ++ later, entry.origin.qualifiedClass = name) ∧
      (trie.isEmpty = true ↔ entries ++ later = []) ∧
      (arena.isEmpty = true ↔ entries ++ later = []) := by
  have together :
      later.foldl insert (ofList entries) = ofList (entries ++ later) :=
    (List.foldl_append ..).symm
  have togetherArena :
      later.foldl Arena.insert (Arena.ofList entries) = Arena.ofList (entries ++ later) :=
    (List.foldl_append ..).symm
  rw [togetherArena] at few
  intro trie arena
  simp only [trie, arena, together, togetherArena]
  have fewer := Nat.le_of_lt few
  exact ⟨(follows_ofList _).isPrefixMap, (Arena.follows_ofList _ fewer).isPrefixMap,
    (Arena.represents_ofList _ fewer).isTree, containsClass_ofList _, isEmpty_ofList_iff _,
    Arena.isEmpty_ofList_iff _ fewer⟩

/-- One path of three entries, of which two spell it as their full path and one, whose class
has a dotted name, as its short one. -/
theorem Trie.isPrefixMap_foldl_insert_shared :
    let neutral : Entry := ⟨['K'], ['V'], ⟨['A'], ['R'], none, "R.resx".toList⟩⟩
    let dotted : Entry := ⟨['K'], ['W'], ⟨[], "A.R".toList, none, "A.R.resx".toList⟩⟩
    let german : Entry := ⟨['K'], ['U'], ⟨['A'], ['R'], some "de".toList, "R.de.resx".toList⟩⟩
    let trie := [german].foldl insert (ofList [neutral, dotted])
    let arena := [german].foldl Arena.insert (Arena.ofList [neutral, dotted])
    arena.nodes.length < 2 ^ 32 ∧
      trie.walkable.IsLive "A.R.K".toList ∧ arena.walkable.IsLive "A.R.K".toList ∧
      trie.walkable.entriesAt (trie.walkable.walk "A.R.K".toList) = [neutral, dotted, german] ∧
      arena.walkable.entriesAt (arena.walkable.walk "A.R.K".toList) = [neutral, dotted, german] := by
  intro neutral dotted german trie arena
  have few : arena.nodes.length < 2 ^ 32 := by decide +kernel
  have starts :
      "A.R.K".toList ≠ [] ∧
        ∃ entry ∈ [neutral, dotted] ++ [german],
          "A.R.K".toList <+: entry.classPath ∨
            entry.origin.scope ≠ [] ∧ "A.R.K".toList <+: entry.fullPath := by
    decide +kernel
  have inserted :
      ((Entry.insertions ([neutral, dotted] ++ [german])).filter
          fun insertion => insertion.1 = "A.R.K".toList).map Prod.snd =
        [neutral, dotted, german] := by
    decide +kernel
  obtain ⟨named, numbered, -⟩ := isPrefixMap_foldl_insert [neutral, dotted] [german] few
  have live := (named.isLive_iff _).mpr starts
  have liveNumber := (numbered.isLive_iff _).mpr starts
  exact ⟨few, live, liveNumber, (named.entriesAt_walk _ live).trans inserted,
    (numbered.entriesAt_walk _ liveNumber).trans inserted⟩

end LocalizationScan
