import LocalizationScan.Trie

namespace LocalizationScan

/-!
# The paths of a trie

A trie is known by the entries that it was built from.  A node is there when it
begins a path of an entry, and it holds the entries that have it as a path, in
the order in which they were inserted.
-/

namespace Branches

/-- The branch that a path takes is extended, and every other one stays. -/
theorem child?_insert
    (branches : Branches)
    (entry : Entry)
    (char probe : Char)
    (rest : Text) :
    (branches.insert entry char rest).child? probe =
      if char = probe then
        let found := (branches.child? probe).getD ([], .none)
        match rest with
        | [] => some (found.1 ++ [entry], found.2)
        | next :: rest => some (found.1, found.2.insert entry next rest)
      else
        branches.child? probe := by
  induction branches with
  | none =>
      by_cases same : char = probe <;> cases rest <;>
        simp [insert, chain, child?, same]
  | node label entries below beside _ inductionHypothesis =>
      by_cases taken : label = char
      · subst taken
        by_cases same : label = probe <;> cases rest <;> simp [insert, child?, same]
      · by_cases probed : label = probe
        · subst probed
          simp [insert, child?, taken, Ne.symm taken]
        · simp only [insert, child?, taken, probed, ↓reduceIte]
          exact inductionHypothesis

@[simp] theorem descend?_none (char : Char) (rest : Text) :
    Branches.none.descend? char rest = .none := by
  cases rest <;> rfl

theorem descend?_cons
    (branches : Branches)
    (char next : Char)
    (rest : Text) :
    branches.descend? char (next :: rest) =
      ((branches.child? char).getD ([], .none)).2.descend? next rest := by
  simp only [descend?]
  cases branches.child? char <;> simp

/-- The nodes on a path are there when an entry has been added at its end. -/
theorem isSome_descend?_insert
    (branches : Branches)
    (entry : Entry)
    (char probe : Char)
    (rest others : Text) :
    ((branches.insert entry char rest).descend? probe others).isSome ↔
      (branches.descend? probe others).isSome ∨ probe :: others <+: char :: rest := by
  induction others generalizing branches char probe rest with
  | nil =>
      by_cases same : char = probe
      · cases rest <;> simp [descend?, child?_insert, same]
      · simp [descend?, child?_insert, same, Ne.symm same]
  | cons next others inductionHypothesis =>
      simp only [descend?_cons, child?_insert]
      by_cases same : char = probe
      · cases rest with
        | nil =>
            simp [same]
        | cons second rest =>
            simp [same, inductionHypothesis]
      · simp [same, Ne.symm same]

/-- An entry is added to the node at the end of its path and to no other. -/
theorem entries_descend?_insert
    (branches : Branches)
    (entry : Entry)
    (char probe : Char)
    (rest others : Text) :
    (((branches.insert entry char rest).descend? probe others).map Prod.fst).getD [] =
      ((branches.descend? probe others).map Prod.fst).getD [] ++
        if probe :: others = char :: rest then [entry] else [] := by
  induction others generalizing branches char probe rest with
  | nil =>
      by_cases same : char = probe
      · subst same
        cases found : branches.child? char <;> cases rest <;>
          simp [descend?, child?_insert, found]
      · simp [descend?, child?_insert, same, Ne.symm same]
  | cons next others inductionHypothesis =>
      simp only [descend?_cons, child?_insert]
      by_cases same : char = probe
      · cases rest with
        | nil =>
            simp [same]
        | cons second rest =>
            simp [same, inductionHypothesis]
      · simp [same, Ne.symm same]

end Branches

namespace Entry

theorem ne_nil_of_mem_paths
    (entry : Entry)
    (path : Text)
    (member : path ∈ entry.paths) :
    path ≠ [] := by
  unfold paths at member
  split at member <;> rcases List.mem_cons.mp member with rfl | member <;>
    simp_all [classPath, fullPath]

theorem nodup_paths (entry : Entry) :
    entry.paths.Nodup := by
  unfold paths
  split
  · simp
  · rename_i qualified
    have longer : entry.classPath ≠ entry.fullPath := by
      intro same
      have lengths := congrArg List.length same
      simp [classPath, fullPath, Origin.qualifiedClass, qualify, qualified] at lengths
      omega
    simp [longer]

end Entry

namespace Trie

/-- Whether a text leads to a node below the root. -/
def Reaches (trie : Trie) (node : Node) : Prop :=
  (trie.find? node).isSome = true

theorem entriesAt_eq (trie : Trie) (node : Node) :
    trie.entriesAt node = ((trie.find? node).map Prod.fst).getD [] := by
  unfold entriesAt
  cases trie.find? node <;> rfl

private theorem reaches_insertPath
    (branches : Branches)
    (classes : List Text)
    (entry : Entry)
    (path : Text)
    (node : Node) :
    Reaches ⟨branches.insertPath entry path, classes⟩ node ↔
      Reaches ⟨branches, classes⟩ node ∨ node ≠ [] ∧ node <+: path := by
  cases node with
  | nil =>
      simp [Reaches, find?]
  | cons probe others =>
      cases path with
      | nil =>
          simp [Reaches, find?, Branches.insertPath]
      | cons char rest =>
          simpa [Reaches, find?, Branches.insertPath] using
            Branches.isSome_descend?_insert branches entry char probe rest others

private theorem entriesAt_insertPath
    (branches : Branches)
    (classes : List Text)
    (entry : Entry)
    {path : Text}
    (node : Node)
    (nonempty : path ≠ []) :
    entriesAt ⟨branches.insertPath entry path, classes⟩ node =
      entriesAt ⟨branches, classes⟩ node ++ if node = path then [entry] else [] := by
  cases path with
  | nil =>
      exact absurd rfl nonempty
  | cons char rest =>
      cases node with
      | nil =>
          simp [entriesAt, find?]
      | cons probe others =>
          simpa [entriesAt_eq, find?, Branches.insertPath] using
            Branches.entries_descend?_insert branches entry char probe rest others

/-- An entry opens the nodes on its paths. -/
theorem reaches_insert
    (trie : Trie)
    (entry : Entry)
    (node : Node) :
    (trie.insert entry).Reaches node ↔
      trie.Reaches node ∨ node ≠ [] ∧ ∃ path ∈ entry.paths, node <+: path := by
  unfold insert
  generalize entry.paths = paths
  obtain ⟨branches, classes⟩ := trie
  induction paths generalizing branches with
  | nil =>
      simp [Reaches, find?]
  | cons path paths inductionHypothesis =>
      rw [List.foldl_cons, inductionHypothesis, reaches_insertPath]
      simp only [List.mem_cons, exists_eq_or_imp, and_or_left, or_assoc]

/-- An entry is added to the nodes at the ends of its paths. -/
theorem entriesAt_insert
    (trie : Trie)
    (entry : Entry)
    (node : Node) :
    (trie.insert entry).entriesAt node =
      trie.entriesAt node ++ if node ∈ entry.paths then [entry] else [] := by
  have nonempty := entry.ne_nil_of_mem_paths
  have distinct := entry.nodup_paths
  unfold insert
  generalize entry.paths = paths at nonempty distinct
  obtain ⟨branches, classes⟩ := trie
  induction paths generalizing branches with
  | nil =>
      simp [entriesAt, find?]
  | cons path paths inductionHypothesis =>
      -- The paths of an entry differ, so no node takes it up twice.
      obtain ⟨absent, distinctRest⟩ := List.nodup_cons.mp distinct
      rw [List.foldl_cons,
        inductionHypothesis (fun other member => nonempty other (List.mem_cons_of_mem _ member))
          distinctRest,
        entriesAt_insertPath branches classes entry node (nonempty path List.mem_cons_self)]
      by_cases here : node = path
      · subst here
        simp [absent]
      · simp [here]

/-- A node is there when it begins a path of an entry. -/
theorem reaches_ofList (entries : List Entry) (node : Node) :
    (ofList entries).Reaches node ↔
      node ≠ [] ∧ ∃ entry ∈ entries, ∃ path ∈ entry.paths, node <+: path := by
  have fromTrie :
      ∀ trie : Trie,
        (entries.foldl insert trie).Reaches node ↔
          trie.Reaches node ∨
            node ≠ [] ∧ ∃ entry ∈ entries, ∃ path ∈ entry.paths, node <+: path := by
    induction entries with
    | nil =>
        simp
    | cons entry entries inductionHypothesis =>
        intro trie
        rw [List.foldl_cons, inductionHypothesis, reaches_insert]
        simp only [List.mem_cons, exists_eq_or_imp, and_or_left, or_assoc]
  have nothing : ¬empty.Reaches node := by
    cases node <;> simp [Reaches, find?, empty]
  exact (fromTrie empty).trans (or_iff_right nothing)

/-- A node holds the entries that have it as a path, in the order of insertion. -/
theorem entriesAt_ofList (entries : List Entry) (node : Node) :
    (ofList entries).entriesAt node = entries.filter fun entry => node ∈ entry.paths := by
  have fromTrie :
      ∀ trie : Trie,
        (entries.foldl insert trie).entriesAt node =
          trie.entriesAt node ++ entries.filter fun entry => node ∈ entry.paths := by
    induction entries with
    | nil =>
        simp
    | cons entry entries inductionHypothesis =>
        intro trie
        rw [List.foldl_cons, inductionHypothesis, entriesAt_insert]
        by_cases here : node ∈ entry.paths <;> simp [here]
  have nothing : empty.entriesAt node = [] := by
    cases node <;> simp [entriesAt, find?, empty]
  rw [ofList, fromTrie, nothing, List.nil_append]

/-- The classes of a trie are those of its entries. -/
theorem containsClass_ofList (entries : List Entry) (name : Text) :
    (ofList entries).containsClass name = true ↔
      ∃ entry ∈ entries, entry.origin.qualifiedClass = name := by
  have fromTrie :
      ∀ trie : Trie,
        (entries.foldl insert trie).containsClass name = true ↔
          trie.containsClass name = true ∨
            ∃ entry ∈ entries, entry.origin.qualifiedClass = name := by
    induction entries with
    | nil =>
        simp
    | cons entry entries inductionHypothesis =>
        intro trie
        rw [List.foldl_cons, inductionHypothesis]
        have inserted :
            (trie.insert entry).containsClass name = true ↔
              trie.containsClass name = true ∨ entry.origin.qualifiedClass = name := by
          simp only [containsClass, insert, List.contains_iff_mem]
          by_cases known : entry.origin.qualifiedClass ∈ trie.classes
          · simp only [known, ↓reduceIte]
            exact ⟨.inl, fun either => either.elim id fun same => same ▸ known⟩
          · simp only [known, ↓reduceIte, List.mem_append, List.mem_singleton]
            exact or_congr_right eq_comm
        rw [inserted]
        simp only [List.mem_cons, exists_eq_or_imp, or_assoc]
  exact (fromTrie empty).trans (or_iff_right (by simp [containsClass, empty]))

end Trie

end LocalizationScan
