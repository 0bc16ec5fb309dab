import LocalizationScan.Proofs.Files.Spelling
import LocalizationScan.Proofs.Report.DocumentOrder
import LocalizationScan.Proofs.Report.Unlocalizable

namespace LocalizationScan

/-!
# Files that are found once

The files of a project are told apart by the spelling of their paths.  A file is
found once if the directories that are looked through are spelled alike; otherwise
it can be listed, and its literals counted, once for every spelling.
-/

namespace Text

variable {text other : Text} {texts : List Text}

theorem mem_insertOrdered_iff :
    other ∈ insertOrdered text texts ↔ other = text ∨ other ∈ texts := by
  induction texts with
  | nil => simp [insertOrdered]
  | cons first rest inductionHypothesis =>
      rw [insertOrdered]
      split
      · exact List.mem_cons
      · next same =>
          obtain rfl := compare_eq_eq_iff.mp same
          simp
      · rw [List.mem_cons, inductionHypothesis, List.mem_cons, or_left_comm]

theorem pairwise_insertOrdered
    (ordered : texts.Pairwise fun text other => compare text other = .lt) :
    (insertOrdered text texts).Pairwise fun text other => compare text other = .lt := by
  induction texts with
  | nil => exact List.pairwise_singleton _ _
  | cons first rest inductionHypothesis =>
      obtain ⟨below, orderedRest⟩ := List.pairwise_cons.mp ordered
      rw [insertOrdered]
      split
      · next before =>
          refine List.pairwise_cons.mpr ⟨fun other member => ?_, ordered⟩
          rcases List.mem_cons.mp member with rfl | inRest
          · exact before
          · exact Std.TransCmp.lt_trans before (below other inRest)
      · exact ordered
      · next behind =>
          refine List.pairwise_cons.mpr ⟨fun other member => ?_, inductionHypothesis orderedRest⟩
          rcases mem_insertOrdered_iff.mp member with rfl | inRest
          · exact Std.OrientedCmp.lt_of_gt behind
          · exact below other inRest

theorem mem_sortDistinct_iff :
    text ∈ sortDistinct texts ↔ text ∈ texts := by
  induction texts with
  | nil => rfl
  | cons first rest inductionHypothesis =>
      rw [sortDistinct, List.foldr_cons, mem_insertOrdered_iff, ← sortDistinct,
        inductionHypothesis, List.mem_cons]

/-- Sorted texts are listed once. -/
theorem nodup_sortDistinct (texts : List Text) :
    (sortDistinct texts).Nodup := by
  have ordered :
      (sortDistinct texts).Pairwise fun text other => compare text other = .lt :=
    List.foldrRecOn _ _ List.Pairwise.nil fun _ ordered _ _ => pairwise_insertOrdered ordered
  refine ordered.imp ?_
  rintro text _ before rfl
  cases Std.ReflCmp.compare_self.symm.trans before

end Text

/-! ## Files of a project -/

section Discovery

variable {tree : FileTree} {base : Text} {includes : List Text}

/-- What is found are the files below the directories that are looked through, as far as they are
not left out. -/
theorem exists_kept (tree : FileTree) (base : Text) (includes ignores : List Text) :
    ∃ kept : List Text,
      (∀ path ∈ kept, ∃ directory ∈ (searched tree base includes).1, ∃ files,
        filesBelow tree directory = .ok files ∧ path ∈ files) ∧
      (discover tree base includes ignores).sources =
          Text.sortDistinct (kept.filter fun path => FileKind.ofPath? path == some .source) ∧
        (discover tree base includes ignores).resources =
          Text.sortDistinct (kept.filter fun path => FileKind.ofPath? path == some .resource) := by
  let files :=
    ((searched tree base includes).1.map fun directory =>
      (directory, filesBelow tree directory)).flatMap fun looked => looked.2.toOption.getD []
  let exclusions := (Exclusions.ofIgnores base ignores).1
  refine ⟨files.filter fun path => !exclusions.exclude path, fun path member => ?_, rfl, rfl⟩
  obtain ⟨_, looked, member⟩ := List.mem_flatMap.mp (List.mem_filter.mp member).1
  obtain ⟨directory, isSearched, rfl⟩ := List.mem_map.mp looked
  cases found : filesBelow tree directory with
  | error =>
      simp only [found] at member
      exact absurd member List.not_mem_nil
  | ok files =>
      simp only [found] at member
      exact ⟨directory, isSearched, files, found, member⟩

/-- Directories that are spelled alike give each of their files one path. -/
theorem nodup_route
    (wellNamed : tree.IsWellNamed)
    (alike : AreSpelledAlike (searched tree base includes).1)
    (ignores : List Text) :
    ((discover tree base includes ignores).sources.map Path.route).Nodup ∧
      ((discover tree base includes ignores).resources.map Path.route).Nodup := by
  obtain ⟨kept, found, sources, resources⟩ := exists_kept tree base includes ignores
  have same :
      ∀ path ∈ kept, ∀ other ∈ kept, Path.route path = Path.route other → path = other := by
    intro path member other memberOther same
    obtain ⟨outer, isSearched, files, foundFiles, member⟩ := found path member
    obtain ⟨inner, isSearchedOther, others, foundOthers, memberOther⟩ := found other memberOther
    obtain ⟨isFile, names, areNames, rfl⟩ :=
      FileTree.spelled_of_mem_filesBelow wellNamed foundFiles member
    obtain ⟨isFileOther, namesOther, areNamesOther, rfl⟩ :=
      FileTree.spelled_of_mem_filesBelow wellNamed foundOthers memberOther
    exact alike.eq_of_route_eq isSearched isSearchedOther areNames areNamesOther isFile isFileOther
      same
  have distinct (kind : Text → Bool) :
      ((Text.sortDistinct (kept.filter kind)).map Path.route).Nodup := by
    refine List.Nodup.map_on ?_ (Text.nodup_sortDistinct _)
    intro path member other memberOther
    rw [Text.mem_sortDistinct_iff, List.mem_filter] at member memberOther
    exact same path member.1 other memberOther.1
  exact ⟨sources ▸ distinct _, resources ▸ distinct _⟩

end Discovery

/-! ## Literals of a project -/

section Literals

variable {project : Project} {tree : FileTree} {items : SourceFile → List Literal}
  {config : Config} {files : List SourceFile}

/-- The places of the literals that should move, by the files in which they stand. -/
def literalPlaces
    (config : Config)
    (files : List SourceFile)
    (items : SourceFile → List Literal) :
    List (Path.Place × Position) :=
  files.flatMap fun source =>
    ((items source).filter fun literal => literal.ShouldMove config).map fun literal =>
      (Path.route source.path, literal.span.start)

theorem length_literalPlaces :
    (literalPlaces config files items).length =
      (files.flatMap items).countP fun literal => literal.ShouldMove config := by
  rw [literalPlaces, List.length_flatMap, List.countP_flatMap]
  congr 1
  exact List.map_congr_left fun source _ => by simp [List.countP_eq_length_filter]

/-- In files of different routes every literal has its own place. -/
theorem nodup_literalPlaces
    (opened :
      ∀ source ∈ files,
        SourceFile.ofContent? source.path source.content source.generated = some source)
    (searched : ∀ source ∈ files, source.literals config.noLocalizeComment = .ok (items source))
    (distinct : files.Pairwise fun source other => Path.route source.path ≠ Path.route other.path) :
    (literalPlaces config files items).Nodup := by
  rw [literalPlaces, List.nodup_flatMap]
  constructor
  · intro source member
    have starts :=
      (SourceFile.areOrdered_literals (opened source member) (searched source member)).1
    have apart :=
      (List.pairwise_map.mp starts.pairwise_start).sublist
        (List.filter_sublist (p := fun literal => literal.ShouldMove config))
    refine List.pairwise_map.mpr (apart.imp fun {literal other} before same => ?_)
    rw [(Prod.mk.inj same).2] at before
    exact absurd before (Nat.lt_irrefl _)
  · refine distinct.imp fun {source other} differs place member memberOther => ?_
    obtain ⟨_, -, rfl⟩ := List.mem_map.mp member
    obtain ⟨_, -, same⟩ := List.mem_map.mp memberOther
    exact differs (Prod.mk.inj same).1.symm

theorem path_of_opened
    {path : Text}
    {content : Except FileError Text}
    {generated : Bool}
    {source : SourceFile}
    (opened :
      (content.toOption.bind fun content => SourceFile.ofContent? path content generated) =
        some source) :
    source.path = path := by
  obtain ⟨text, -, opened⟩ := Option.bind_eq_some_iff.mp opened
  obtain ⟨kind, -, rfl⟩ := Option.map_eq_some_iff.mp opened
  rfl

/-- What is read are sources of the project, each once. -/
theorem pairwise_readSources
    (distinct : (project.sources.map Path.route).Nodup) :
    (project.readSources tree).files.Pairwise fun source other =>
      Path.route source.path ≠ Path.route other.path := by
  have paths : project.readPaths.Pairwise fun path other => Path.route path ≠ Path.route other :=
    (List.pairwise_map.mp distinct).sublist List.filter_sublist
  rw [Project.readSources, List.pairwise_filterMap, List.pairwise_map]
  refine paths.imp fun {path other} differs source opened sourceOther openedOther => ?_
  rwa [path_of_opened opened, path_of_opened openedOther]

end Literals

/-- Directories that lie in each other and are spelled alike, as those of plain includes are, give
every file one path, and every literal that should move is counted once. -/
theorem discover_once
    {tree : FileTree}
    (wellNamed : tree.IsWellNamed)
    (base : Text)
    (includes ignores : List Text) :
    let directories := (searched tree base includes).1
    let found := discover tree base includes ignores
    ((∀ included ∈ includes, IsPlainInclude included) → AreSpelledAlike directories) ∧
      (AreSpelledAlike directories →
        (found.sources.map Path.route).Nodup ∧
          (found.resources.map Path.route).Nodup ∧
          ∀ project : Project, project.sources = found.sources →
            let sources := project.readSources tree
            ∃ items : SourceFile → List Literal,
              (∀ source ∈ sources.files,
                source.literals project.config.noLocalizeComment = .ok (items source)) ∧
              (literalPlaces project.config sources.files items).Nodup ∧
              ∀ includeUnlocalizable,
                (sources.literalReport project.config includeUnlocalizable).errorCount =
                  (literalPlaces project.config sources.files items).length) := by
  intro directories found
  refine ⟨areSpelledAlike_searched, fun alike => ?_⟩
  obtain ⟨distinct, distinctResources⟩ := nodup_route wellNamed alike ignores
  refine ⟨distinct, distinctResources, ?_⟩
  intro project sameSources sources
  have opened :
      ∀ source ∈ sources.files,
        SourceFile.ofContent? source.path source.content source.generated = some source :=
    fun _ => Command.ofContent?_of_mem_readSources
  obtain ⟨items, searched⟩ :=
    SourceFile.exists_literals opened project.config.noLocalizeComment
  refine ⟨items, searched, ?_, fun includeUnlocalizable => ?_⟩
  · exact nodup_literalPlaces opened searched (pairwise_readSources (sameSources ▸ distinct))
  · rw [Sources.errorCount_literalReport searched, length_literalPlaces]

/-- A file below two directories that lie in each other. -/
theorem discover_once_nested :
    let tree : FileTree :=
      FileTree.insert ⟨[], []⟩ ["Web".toList, "Sub".toList, "A.cs".toList] (.file none)
    let includes := ["Web/".toList, "Web/Sub".toList]
    tree.IsWellNamed ∧ (∀ included ∈ includes, IsPlainInclude included) ∧
      ((discover tree ['.'] includes []).sources.map Path.route).Nodup := by
  intro tree includes
  have wellNamed : tree.IsWellNamed := by decide +kernel
  have plain : ∀ included ∈ includes, IsPlainInclude included := by
    refine List.forall_mem_cons.mpr ⟨?_, List.forall_mem_cons.mpr ⟨?_, by simp⟩⟩
    · exact ⟨by decide, ["Web".toList], by decide, by decide +kernel, .inr rfl⟩
    · exact ⟨by decide, ["Web".toList, "Sub".toList], by decide, by decide +kernel, .inl rfl⟩
  obtain ⟨alike, once⟩ := discover_once wellNamed ['.'] includes []
  exact ⟨wellNamed, plain, (once (alike plain)).1⟩

/-- Two spellings of a directory list its file twice, and its literal is counted twice. -/
theorem discover_once_spelled :
    let tree : FileTree :=
      FileTree.insert ⟨[], []⟩ ["Web".toList, "A.cs".toList] (.file (some "\"x\"".toList))
    let found := discover tree ['.'] ["Web".toList, "./Web".toList] []
    let project : Project := ⟨.default, ['.'], found.sources, found.resources, false, []⟩
    found.sources = ["././Web/A.cs".toList, "./Web/A.cs".toList] ∧
      Path.route "././Web/A.cs".toList = Path.route "./Web/A.cs".toList ∧
      ((project.readSources tree).literalReport project.config false).errorCount = 2 := by
  decide +kernel

end LocalizationScan
