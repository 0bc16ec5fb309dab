import LocalizationScan.Config.Location
import LocalizationScan.Proofs.Path.Parent

namespace LocalizationScan

/-!
# Finding the configuration file

The search for the configuration file goes from a directory to the one above it by
the spelling of its path.  From an absolute path it comes to all directories up to
the root; from a relative one it ends at the current directory.
-/

namespace Config

section Nearest

variable {holds : Path.Place → Bool} {top start file : Path.Place}

/-- Whether a file is the nearest configuration file on the way from a directory up to another
one, and not above the first directory with a repository. -/
def IsNearest (holds : Path.Place → Bool) (top start file : Path.Place) : Prop :=
  ∃ directory, top <+: directory ∧ directory <+: start ∧
    file = directory ++ [Path.Component.name fileName] ∧ holds file = true ∧
      ∀ nearer, directory <+: nearer → nearer <+: start → nearer ≠ directory →
        holds (nearer ++ [Path.Component.name fileName]) = false ∧
          holds (nearer ++ [Path.Component.name repositoryMark]) = false

theorem isNearest_here
    (inside : top <+: start)
    (here : holds (start ++ [Path.Component.name fileName]) = true) :
    IsNearest holds top start file ↔ start ++ [Path.Component.name fileName] = file := by
  constructor
  · rintro ⟨directory, -, above, rfl, -, nothing⟩
    by_cases same : start = directory
    · rw [same]
    · cases here.symm.trans (nothing start above (List.prefix_refl _) same).1
  · rintro rfl
    refine ⟨start, inside, List.prefix_refl _, rfl, here, fun nearer below above differs => ?_⟩
    exact absurd (above.eq_of_length_le below.length_le) differs

theorem isNearest_above
    (missing : holds (start ++ [Path.Component.name fileName]) = false) :
    IsNearest holds top start file ↔
      holds (start ++ [Path.Component.name repositoryMark]) = false ∧
        ∃ front last, start = front ++ [last] ∧ IsNearest holds top front file := by
  constructor
  · rintro ⟨directory, inside, above, rfl, isFile, nothing⟩
    have differs : start ≠ directory := by
      rintro rfl
      cases isFile.symm.trans missing
    rcases List.eq_nil_or_concat start with rfl | ⟨front, last, rfl⟩
    · exact absurd (List.prefix_nil.mp above).symm differs
    · rw [List.concat_eq_append] at *
      have upward := (List.prefix_concat_iff.mp above).resolve_left differs.symm
      refine ⟨(nothing _ above (List.prefix_refl _) differs).2, front, last, rfl, directory, inside,
        upward, rfl, isFile, fun nearer below upper => ?_⟩
      exact nothing nearer below (upper.trans (List.prefix_append _ _))
  · rintro ⟨noRepository, front, last, rfl, directory, inside, above, rfl, isFile, nothing⟩
    refine ⟨directory, inside, above.trans (List.prefix_append _ _), rfl, isFile, ?_⟩
    intro nearer below upper differs
    rcases List.prefix_concat_iff.mp upper with rfl | upper
    · exact ⟨missing, noRepository⟩
    · exact nothing nearer below upper differs

theorem not_isNearest_top
    (missing : holds (top ++ [Path.Component.name fileName]) = false) :
    ¬IsNearest holds top top file := by
  rintro ⟨directory, inside, above, rfl, isFile, -⟩
  obtain rfl := inside.eq_of_length_le above.length_le
  cases isFile.symm.trans missing

/-- What is nearest on a shorter way up is nearest on a longer one, and not above the shorter. -/
theorem isNearest_iff_of_prefix
    {outer : Path.Place}
    (above : outer <+: top) :
    IsNearest holds top start file ↔
      IsNearest holds outer start file ∧ top <+: file.dropLast := by
  constructor
  · rintro ⟨directory, inside, upward, rfl, nearest⟩
    exact ⟨⟨directory, above.trans inside, upward, rfl, nearest⟩, by simpa using inside⟩
  · rintro ⟨⟨directory, -, upward, rfl, nearest⟩, inside⟩
    exact ⟨directory, by simpa using inside, upward, rfl, nearest⟩

end Nearest

theorem isFileName_fileName : Path.IsFileName fileName :=
  ⟨by decide, rfl⟩

theorem isFileName_repositoryMark : Path.IsFileName repositoryMark :=
  ⟨by decide, rfl⟩

theorem place_file
    {name : Text}
    (current path : Text)
    (isFile : Path.IsFileName name) :
    Path.place current (Path.join path name) = Path.place current path ++ [.name name] := by
  rw [Path.place_join current path (Path.isAbsolute_eq_false isFile.whole), Path.route,
    isFile.components_eq]
  rfl

/-- The search finds the nearest file up to the directory in which the path starts. -/
theorem find?_eq_some_iff
    (holds : Path.Place → Bool)
    (current path : Text)
    {file : Path.Place} :
    (find? (fun path => holds (Path.place current path)) path).map (Path.place current) =
        some file ↔
      IsNearest holds (if Path.isAbsolute path then [.root] else Path.route current)
        (Path.place current path) file := by
  have inside := Path.start_prefix_place current path
  have upward := Path.place_parent? current path
  rw [find?, place_file current path isFileName_fileName,
    place_file current path isFileName_repositoryMark]
  cases here : holds (Path.place current path ++ [Path.Component.name fileName]) with
  | true =>
      rw [if_pos rfl, isNearest_here inside here, Option.map_some,
        place_file current path isFileName_fileName, Option.some.injEq]
  | false =>
      rw [if_neg Bool.false_ne_true]
      cases repository :
          holds (Path.place current path ++ [Path.Component.name repositoryMark]) with
      | true => simp [isNearest_above here, repository]
      | false =>
          rw [if_neg Bool.false_ne_true]
          split
          · next above found =>
              rw [found] at upward
              obtain ⟨sameRoot, same | ⟨last, goesUp⟩⟩ := upward
              · rw [find?_eq_some_iff holds current above, sameRoot, same]
              · rw [find?_eq_some_iff holds current above, sameRoot, isNearest_above here,
                  repository]
                simp [goesUp]
          · next noParent =>
              rw [noParent] at upward
              rw [upward] at here ⊢
              simp [not_isNearest_top here]
termination_by path.length
decreasing_by all_goals exact Path.length_parent?_lt ‹_›

/-- From an absolute path the search finds the nearest file up to the root.  From a relative path
it finds the same file, unless that one lies above the current directory; then it finds none. -/
theorem find?_relative
    {current path : Text}
    (absolute : Path.isAbsolute current = true)
    (relative : Path.isAbsolute path = false)
    (holds : Path.Place → Bool) :
    let found start :=
      (find? (fun path => holds (Path.place current path)) start).map (Path.place current)
    ∀ file,
      (found (Path.join current path) = some file ↔
          IsNearest holds [.root] (Path.route current ++ Path.route path) file) ∧
        (found path = some file ↔
          found (Path.join current path) = some file ∧ Path.route current <+: file.dropLast) := by
  intro found file
  have filled : current ≠ [] := by
    rintro rfl
    cases absolute
  have whole : Path.isAbsolute (Path.join current path) = true :=
    (Path.isAbsolute_join filled relative).trans absolute
  have fromAbsolute :
      found (Path.join current path) = some file ↔
        IsNearest holds [.root] (Path.route current ++ Path.route path) file := by
    rw [find?_eq_some_iff, whole, Path.place_of_isAbsolute whole, Path.route_join current relative]
    rfl
  refine ⟨fromAbsolute, ?_⟩
  rw [fromAbsolute, find?_eq_some_iff, relative, Path.place_of_relative relative]
  exact isNearest_iff_of_prefix (Path.root_prefix_route absolute)

/-- A file of the current directory is found from a directory below it. -/
theorem find?_relative_below :
    let file : Path.Place := [.root, .name ['a'], .name ['b'], .name fileName]
    let place := Path.place "/a/b".toList
    let found start := (find? (fun path => place path == file) start).map place
    Path.isAbsolute "/a/b".toList = true ∧ Path.isAbsolute "./c".toList = false ∧
      found "./c".toList = some file := by
  intro file place found
  have absolute : Path.isAbsolute "/a/b".toList = true := by decide
  have relative : Path.isAbsolute "./c".toList = false := by decide
  obtain ⟨fromAbsolute, fromRelative⟩ := find?_relative absolute relative (· == file) file
  have start :
      Path.route "/a/b".toList ++ Path.route "./c".toList =
        ([.root, .name ['a'], .name ['b']] : Path.Place) ++ [Path.Component.name ['c']] := by
    decide +kernel
  refine ⟨absolute, relative, fromRelative.mpr ⟨fromAbsolute.mpr ?_, by decide +kernel⟩⟩
  rw [start, isNearest_above (by decide)]
  exact ⟨by decide, _, _, rfl, (isNearest_here (by decide) (by decide)).mpr rfl⟩

/-- A file above the current directory is found from the absolute path only. -/
theorem find?_relative_above :
    let file : Path.Place := [.root, .name ['a'], .name fileName]
    let place := Path.place "/a/b".toList
    let found start := (find? (fun path => place path == file) start).map place
    found ['.'] = none ∧ found (Path.join "/a/b".toList ['.']) = some file := by
  intro file place found
  have found_iff (start : Text) {other : Path.Place} :
      found start = some other ↔
        IsNearest (· == file) (if Path.isAbsolute start then [.root] else Path.route "/a/b".toList)
          (place start) other :=
    find?_eq_some_iff (· == file) "/a/b".toList start
  constructor
  · rw [Option.eq_none_iff_forall_ne_some]
    intro other isFound
    have isNearest := (found_iff ['.']).mp isFound
    have here : place ['.'] = Path.route "/a/b".toList := by decide +kernel
    exact not_isNearest_top (by decide +kernel) (here ▸ isNearest)
  · have start :
        place (Path.join "/a/b".toList ['.']) =
          ([.root, .name ['a']] : Path.Place) ++ [Path.Component.name ['b']] := by
      decide +kernel
    rw [found_iff, start, isNearest_above (by decide)]
    exact ⟨by decide, _, _, rfl, (isNearest_here (by decide) (by decide)).mpr rfl⟩

end Config

end LocalizationScan
