import LocalizationScan.Files.Discovery
import LocalizationScan.Proofs.Path.Join
import LocalizationScan.Proofs.Results

namespace LocalizationScan

/-!
# Spellings of directories

The path of a file is spelled as the directory that it was found from, with names
behind it.  Directories that lie in each other are spelled alike if the path of the
inner one is that of the outer one with names behind it too, as it is for includes
that consist of names alone.
-/

namespace FileTree

variable {tree : FileTree} {location other : Location} {names : List Text} {path : Text}

/-- Whether all files and directories have names that can stand in paths. -/
def IsWellNamed (tree : FileTree) : Prop :=
  ∀ entry ∈ tree.nodes, ∀ name ∈ entry.1, Path.IsFileName name

instance (tree : FileTree) : Decidable tree.IsWellNamed :=
  inferInstanceAs (Decidable (∀ entry ∈ tree.nodes, ∀ name ∈ entry.1, Path.IsFileName name))

theorem append_of_namesBelow?
    (below : namesBelow? location other = some names) :
    location ++ names = other ∧ names ≠ [] := by
  fun_induction namesBelow? location other with
  | case1 name names =>
      cases below
      exact ⟨rfl, List.cons_ne_nil _ _⟩
  | case2 => cases below
  | case3 => cases below
  | case4 name location other inductionHypothesis =>
      obtain ⟨rfl, nonempty⟩ := inductionHypothesis below
      exact ⟨rfl, nonempty⟩
  | case5 => cases below

/-- No file lies at a path that ends in a slash. -/
theorem isFilePath_of_locate
    {content? : Option Text}
    (located : tree.locate path = .ok location)
    (isFile : tree.node? location = some (.file content?)) :
    Path.IsFilePath path := by
  rw [locate] at located
  split at located
  · cases located
  · next filled =>
      refine ⟨by simpa using filled, fun slash => ?_⟩
      obtain ⟨front, rfl⟩ := List.getLast?_eq_some_iff.mp slash
      rw [Text.splitOn_append '/' front [], List.foldlM_append] at located
      obtain ⟨last, -, entered⟩ := Except.exists_of_bind_eq_ok located
      obtain ⟨same, isDirectory⟩ : last = location ∧ tree.node? last = some .directory := by
        have stays : tree.enter last [] = .ok location := by
          obtain ⟨next, stays, done⟩ := Except.exists_of_bind_eq_ok entered
          cases done
          exact stays
        rw [enter] at stays
        split at stays
        · next isDirectory =>
            cases stays
            exact ⟨rfl, isDirectory⟩
        · cases stays
      cases (same ▸ isDirectory).symm.trans isFile

/-- A path of a file below a directory is spelled as the directory with names behind it. -/
theorem spelled_of_mem_filesBelow
    {directory : Text}
    {files : List Text}
    (wellNamed : tree.IsWellNamed)
    (found : filesBelow tree directory = .ok files)
    (member : path ∈ files) :
    Path.IsFilePath path ∧
      ∃ names : List Text,
        (∀ name ∈ names, Path.IsFileName name) ∧ path = names.foldl Path.join directory := by
  obtain ⟨location, located, found⟩ := Except.exists_of_bind_eq_ok found
  cases lies : tree.node? location with
  | none => simp [lies] at found
  | some node =>
      cases node with
      | file content? =>
          simp only [lies] at found
          cases found
          obtain rfl := List.mem_singleton.mp member
          exact ⟨isFilePath_of_locate located lies, [], by simp, rfl⟩
      | directory =>
          simp only [lies] at found
          cases found
          obtain ⟨⟨names, node⟩, isBelow, isFile⟩ := List.mem_filterMap.mp member
          obtain ⟨⟨other, otherNode⟩, inTree, isLower⟩ := List.mem_filterMap.mp isBelow
          obtain ⟨_, lower, same⟩ := Option.map_eq_some_iff.mp isLower
          cases same
          obtain ⟨rfl, nonempty⟩ := append_of_namesBelow? lower
          have areNames : ∀ name ∈ names, Path.IsFileName name := fun name inNames =>
            wellNamed _ inTree name (List.mem_append_right _ inNames)
          cases node with
          | directory => cases isFile
          | file =>
              cases isFile
              exact ⟨Path.isFilePath_foldl_join directory nonempty areNames, names, areNames, rfl⟩

end FileTree

/-! ## Spellings of directories -/

/-- Whether directories that lie in each other are spelled alike, up to a slash at the end: the
inner one as the outer one with the names that lead to it. -/
def AreSpelledAlike (directories : List Text) : Prop :=
  ∀ outer ∈ directories, ∀ inner ∈ directories, ∀ names : List Text,
    (∀ name ∈ names, Path.IsFileName name) →
      Path.route inner = Path.route outer ++ names.map .name →
        Path.join inner [] = Path.join (names.foldl Path.join outer) []

/-- Whether an included path consists of names alone, with a slash between each two of them and
perhaps one at the end. -/
def IsPlainInclude (included : Text) : Prop :=
  Glob.isWildcard included = false ∧
    ∃ names : List Text,
      names ≠ [] ∧ (∀ name ∈ names, Path.IsFileName name) ∧
        (included = Text.joinWith ['/'] names ∨ included = Text.joinWith ['/'] names ++ ['/'])

section Directories

variable {tree : FileTree} {base outer inner included directory : Text} {directories : List Text}
  {includes names namesInner : List Text}

/-- Paths of one file are the same if the directory of one lies in that of the other. -/
theorem AreSpelledAlike.eq_of_lower
    (alike : AreSpelledAlike directories)
    (memberOuter : outer ∈ directories)
    (memberInner : inner ∈ directories)
    (areNames : ∀ name ∈ names, Path.IsFileName name)
    (areNamesInner : ∀ name ∈ namesInner, Path.IsFileName name)
    (isFile : Path.IsFilePath (names.foldl Path.join outer))
    (isFileInner : Path.IsFilePath (namesInner.foldl Path.join inner))
    {between : Path.Place}
    (lower : Path.route inner = Path.route outer ++ between)
    (sameNames : names.map Path.Component.name = between ++ namesInner.map .name) :
    names.foldl Path.join outer = namesInner.foldl Path.join inner := by
  obtain ⟨middle, last, rfl, rfl, sameLast⟩ := List.map_eq_append_iff.mp sameNames
  obtain rfl : last = namesInner :=
    (List.map_inj_right fun _ _ => Path.Component.name.inj).mp sameLast
  have areMiddle : ∀ name ∈ middle, Path.IsFileName name := fun name member =>
    areNames name (List.mem_append_left _ member)
  have sameDirectory := alike outer memberOuter inner memberInner middle areMiddle lower
  rw [List.foldl_append] at isFile ⊢
  exact isFile.eq_of_join_eq isFileInner (Path.join_foldl_congr sameDirectory.symm areNamesInner)

theorem AreSpelledAlike.eq_of_route_eq
    (alike : AreSpelledAlike directories)
    (memberOuter : outer ∈ directories)
    (memberInner : inner ∈ directories)
    (areNames : ∀ name ∈ names, Path.IsFileName name)
    (areNamesInner : ∀ name ∈ namesInner, Path.IsFileName name)
    (isFile : Path.IsFilePath (names.foldl Path.join outer))
    (isFileInner : Path.IsFilePath (namesInner.foldl Path.join inner))
    (same :
      Path.route (names.foldl Path.join outer) = Path.route (namesInner.foldl Path.join inner)) :
    names.foldl Path.join outer = namesInner.foldl Path.join inner := by
  rw [Path.route_foldl_join outer areNames, Path.route_foldl_join inner areNamesInner] at same
  rcases List.append_eq_append_iff.mp same with ⟨between, lower, sameNames⟩ |
      ⟨between, lower, sameNames⟩
  · exact alike.eq_of_lower memberOuter memberInner areNames areNamesInner isFile isFileInner lower
      sameNames
  · exact (alike.eq_of_lower memberInner memberOuter areNamesInner areNames isFileInner isFile lower
      sameNames).symm

/-- A plain include is spelled as the base directory with names behind it. -/
theorem exists_names_of_plain
    (plain : IsPlainInclude included)
    (member : directory ∈ (includedBy tree base included).1) :
    ∃ names : List Text, (∀ name ∈ names, Path.IsFileName name) ∧
      Path.join directory [] = Path.join (names.foldl Path.join base) [] ∧
        Path.route directory = Path.route base ++ names.map .name := by
  obtain ⟨noWildcard, names, nonempty, areNames, spelled⟩ := plain
  have isDirectory : directory = Path.join base included := by
    simp only [includedBy, noWildcard, Bool.false_eq_true, ↓reduceIte] at member
    split at member
    · exact List.mem_singleton.mp member
    · cases member
  refine ⟨names, areNames, ?_⟩
  rcases spelled with rfl | rfl
  · rw [isDirectory, Path.join_joinWith base nonempty areNames]
    exact ⟨rfl, Path.route_foldl_join base areNames⟩
  · obtain ⟨sameFront, sameRoute⟩ := Path.join_slash base nonempty areNames
    rw [isDirectory]
    exact ⟨sameFront, sameRoute.trans (Path.route_foldl_join base areNames)⟩

/-- Plain includes make directories that are spelled alike. -/
theorem areSpelledAlike_searched
    (plain : ∀ included ∈ includes, IsPlainInclude included) :
    AreSpelledAlike (searched tree base includes).1 := by
  have spelled :
      ∀ directory ∈ (searched tree base includes).1,
        ∃ names : List Text, (∀ name ∈ names, Path.IsFileName name) ∧
          Path.join directory [] = Path.join (names.foldl Path.join base) [] ∧
            Path.route directory = Path.route base ++ names.map .name := by
    intro directory member
    rw [searched] at member
    split at member
    · obtain rfl := List.mem_singleton.mp member
      exact ⟨[], by simp, rfl, (List.append_nil _).symm⟩
    · obtain ⟨_, isIncluded, member⟩ := List.mem_flatMap.mp member
      obtain ⟨included, isInclude, rfl⟩ := List.mem_map.mp isIncluded
      exact exists_names_of_plain (plain included isInclude) member
  intro outer memberOuter inner memberInner names areNames lower
  obtain ⟨namesOuter, areNamesOuter, sameOuter, routeOuter⟩ := spelled outer memberOuter
  obtain ⟨namesInner, areNamesInner, sameInner, routeInner⟩ := spelled inner memberInner
  have sameNames : namesInner = namesOuter ++ names := by
    rw [routeInner, routeOuter, List.append_assoc, ← List.map_append] at lower
    exact (List.map_inj_right fun _ _ => Path.Component.name.inj).mp
      (List.append_cancel_left lower)
  rw [sameInner, sameNames, List.foldl_append]
  exact Path.join_foldl_congr sameOuter.symm areNames

end Directories

end LocalizationScan
