import LocalizationScan.Path
import LocalizationScan.Proofs.Reference.Dotted

namespace LocalizationScan

/-!
# Joined paths

A relative path behind a directory adds its components to those of the directory,
however the two are spelled.  Names behind a directory are one component each, and
a slash at the end of the directory does not show in what is joined to it.
-/

namespace Path

variable {directory path piece name : Text}

/-- Where a file or directory lies, said by the components that lead to it. -/
abbrev Place := List Component

/-- The components of a path that lead somewhere; a leading `.` stays where it is. -/
def route (path : Text) : Place :=
  (components path).filter (· ≠ .current)

/-! ## Adding components -/

/-- What stands behind a separator adds the components of its pieces. -/
theorem components_append (directory path : Text) :
    components (directory ++ '/' :: path) =
      (if directory = [] then [.root] else components directory) ++
        (Text.splitOn '/' path).filterMap componentOfPiece? := by
  have pieces := Text.splitOn_append '/' directory path
  cases directory with
  | nil =>
      simp only [components, pieces, Text.splitOn, List.singleton_append]
      rfl
  | cons char rest =>
      rw [components, pieces, components]
      cases cut : Text.splitOn '/' (char :: rest) with
      | nil => exact absurd cut (Text.splitOn_ne_nil _ _)
      | cons first others =>
          have sameRoot : isAbsolute (char :: (rest ++ '/' :: path)) = isAbsolute (char :: rest) :=
            rfl
          simp [sameRoot]

theorem isAbsolute_append
    (filled : directory ≠ []) :
    isAbsolute (directory ++ '/' :: path) = isAbsolute directory := by
  cases directory with
  | nil => exact absurd rfl filled
  | cons => rfl

theorem isAbsolute_join
    (filled : directory ≠ [])
    (relative : isAbsolute path = false) :
    isAbsolute (join directory path) = isAbsolute directory := by
  cases directory with
  | nil => exact absurd rfl filled
  | cons char rest =>
      rw [join, relative]
      simp only [Bool.false_or, List.isEmpty_cons, Bool.false_eq_true, ↓reduceIte]
      split <;> rfl

theorem isAbsolute_eq_false
    (whole : '/' ∉ name) :
    isAbsolute name = false := by
  cases name with
  | nil => rfl
  | cons char rest =>
      have differs : char ≠ '/' := (List.ne_of_not_mem_cons whole).symm
      simpa [isAbsolute] using differs

theorem components_of_not_mem
    (whole : '/' ∉ piece) :
    components piece =
      if piece = ['.'] then [.current] else (componentOfPiece? piece).toList := by
  rw [components, Text.splitOn_of_not_mem whole, isAbsolute_eq_false whole]
  simp

theorem ne_current_of_componentOfPiece?
    {component : Component}
    (found : componentOfPiece? piece = some component) :
    component ≠ .current := by
  unfold componentOfPiece? at found
  split at found
  · cases found
  · split at found <;> cases found <;> nofun

theorem filter_filterMap_componentOfPiece? (pieces : List Text) :
    (pieces.filterMap componentOfPiece?).filter (· ≠ .current) =
      pieces.filterMap componentOfPiece? := by
  refine List.filter_eq_self.mpr fun component member => decide_eq_true ?_
  obtain ⟨piece, -, found⟩ := List.mem_filterMap.mp member
  exact ne_current_of_componentOfPiece? found

theorem route_append (directory path : Text) :
    route (directory ++ '/' :: path) =
      (if directory = [] then [.root] else route directory) ++
        (Text.splitOn '/' path).filterMap componentOfPiece? := by
  rw [route, components_append, List.filter_append, filter_filterMap_componentOfPiece?]
  split <;> rfl

/-- The route of a relative path is made up by its pieces. -/
theorem route_of_relative
    (relative : isAbsolute path = false) :
    route path = (Text.splitOn '/' path).filterMap componentOfPiece? := by
  rw [route, components]
  cases Text.splitOn '/' path with
  | nil => rfl
  | cons first pieces =>
      rw [relative, List.filter_append, filter_filterMap_componentOfPiece?,
        if_neg Bool.false_ne_true]
      split
      · next isCurrent => simp [isCurrent, componentOfPiece?]
      · rw [← List.singleton_append, List.filterMap_append,
          ← filter_filterMap_componentOfPiece? [first]]
        cases found : componentOfPiece? first <;> simp [found]

/-- A relative path goes on from the directory in front of it. -/
theorem route_join
    (directory : Text)
    (relative : isAbsolute path = false) :
    route (join directory path) = route directory ++ route path := by
  unfold join
  rw [relative, Bool.false_or, route_of_relative relative]
  split
  · next isEmpty =>
      obtain rfl := List.isEmpty_iff.mp isEmpty
      exact route_of_relative relative
  · next filled =>
      split
      · next slash =>
          obtain ⟨front, rfl⟩ := List.getLast?_eq_some_iff.mp slash
          rw [List.append_assoc, List.singleton_append, route_append, route_append front []]
          simp [Text.splitOn, componentOfPiece?]
      · rw [route_append, if_neg (by simpa using filled)]

/-- Whether a text is the name of a file: it has characters, none of which separates
components, and is no `.` or `..`. -/
structure IsFileName (name : Text) : Prop where
  whole : '/' ∉ name
  isName : componentOfPiece? name = some (.name name)

instance (name : Text) : Decidable (IsFileName name) :=
  decidable_of_iff ('/' ∉ name ∧ componentOfPiece? name = some (.name name))
    ⟨fun ⟨whole, isName⟩ => ⟨whole, isName⟩, fun ⟨whole, isName⟩ => ⟨whole, isName⟩⟩

theorem IsFileName.components_eq
    (isFile : IsFileName name) :
    components name = [.name name] := by
  have noDot : name ≠ ['.'] := by
    rintro rfl
    cases isFile.isName
  rw [components_of_not_mem isFile.whole, if_neg noDot, isFile.isName]
  rfl

/-- A file in a directory is one more component. -/
theorem components_join
    (directory : Text)
    (isFile : IsFileName name) :
    components (join directory name) = components directory ++ [.name name] := by
  have pieces : (Text.splitOn '/' name).filterMap componentOfPiece? = [.name name] := by
    simp [Text.splitOn_of_not_mem isFile.whole, isFile.isName]
  unfold join
  rw [isAbsolute_eq_false isFile.whole, Bool.false_or]
  split
  · next isEmpty =>
      obtain rfl := List.isEmpty_iff.mp isEmpty
      exact isFile.components_eq
  · next filled =>
      split
      · next slash =>
          obtain ⟨front, rfl⟩ := List.getLast?_eq_some_iff.mp slash
          rw [List.append_assoc, List.singleton_append, components_append,
            components_append front [], pieces]
          simp [Text.splitOn, componentOfPiece?]
      · rw [components_append, if_neg (by simpa using filled), pieces]

/-! ## Names below a directory -/

theorem IsFileName.ne_nil
    (isFile : IsFileName name) :
    name ≠ [] := by
  rintro rfl
  cases isFile.isName

/-- What is joined to a path stands behind the same text, whatever it is. -/
theorem join_eq_append
    (directory : Text)
    (relative : isAbsolute path = false) :
    join directory path = join directory [] ++ path := by
  have noRoot : isAbsolute [] = false := rfl
  unfold join
  rw [relative, noRoot, Bool.false_or]
  split
  · rfl
  · split <;> simp

/-- Paths that differ in a slash at their end lead to the same paths of files. -/
theorem join_congr
    {other : Text}
    (same : join directory [] = join other [])
    (isFile : IsFileName name) :
    join directory name = join other name := by
  have relative := isAbsolute_eq_false isFile.whole
  rw [join_eq_append directory relative, join_eq_append other relative, same]

theorem join_foldl_congr
    {other : Text}
    {names : List Text}
    (same : join directory [] = join other [])
    (areNames : ∀ name ∈ names, IsFileName name) :
    join (names.foldl join directory) [] = join (names.foldl join other) [] := by
  cases names with
  | nil => exact same
  | cons name names =>
      rw [List.foldl_cons, List.foldl_cons, join_congr same (areNames name List.mem_cons_self)]

/-- Names behind a directory are one component each. -/
theorem route_foldl_join
    {names : List Text}
    (directory : Text)
    (areNames : ∀ name ∈ names, IsFileName name) :
    route (names.foldl join directory) = route directory ++ names.map .name := by
  induction names generalizing directory with
  | nil => exact (List.append_nil _).symm
  | cons name names inductionHypothesis =>
      obtain ⟨isFile, areNames⟩ := List.forall_mem_cons.mp areNames
      have here : route name = [.name name] := by
        rw [route, isFile.components_eq]
        rfl
      rw [List.foldl_cons, inductionHypothesis _ areNames,
        route_join directory (isAbsolute_eq_false isFile.whole), here]
      simp

/-- Whether a path can be that of a file: it has characters, and no slash is the last one. -/
structure IsFilePath (path : Text) : Prop where
  ne_nil : path ≠ []
  noSlash : path.getLast? ≠ some '/'

theorem IsFilePath.join_nil
    (isFile : IsFilePath path) :
    join path [] = path ++ ['/'] := by
  have noRoot : isAbsolute [] = false := rfl
  rw [join, noRoot, Bool.false_or, if_neg (by simpa using isFile.ne_nil), if_neg isFile.noSlash]

/-- What may end in a slash and does not is the same path. -/
theorem IsFilePath.eq_of_join_eq
    {other : Text}
    (isFile : IsFilePath path)
    (isFileOther : IsFilePath other)
    (same : join path [] = join other []) :
    path = other := by
  rw [isFile.join_nil, isFileOther.join_nil] at same
  exact List.append_cancel_right same

theorem isFilePath_join
    (directory : Text)
    (isFile : IsFileName name) :
    IsFilePath (join directory name) := by
  rw [join_eq_append directory (isAbsolute_eq_false isFile.whole)]
  refine ⟨by simp [isFile.ne_nil], fun slash => ?_⟩
  rw [List.getLast?_append, List.getLast?_eq_some_getLast isFile.ne_nil, Option.some_or,
    Option.some.injEq] at slash
  exact isFile.whole (slash ▸ List.getLast_mem isFile.ne_nil)

theorem isFilePath_foldl_join
    {names : List Text}
    (directory : Text)
    (nonempty : names ≠ [])
    (areNames : ∀ name ∈ names, IsFileName name) :
    IsFilePath (names.foldl join directory) := by
  rcases List.eq_nil_or_concat names with rfl | ⟨front, last, rfl⟩
  · exact absurd rfl nonempty
  · rw [List.concat_eq_append, List.foldl_append]
    exact isFilePath_join _ (areNames last (by simp))

theorem isAbsolute_joinWith
    {names : List Text}
    (areNames : ∀ name ∈ names, IsFileName name) :
    isAbsolute (Text.joinWith ['/'] names) = false := by
  cases names with
  | nil => rfl
  | cons name names =>
      have isFile := areNames name List.mem_cons_self
      have relative := isAbsolute_eq_false isFile.whole
      cases names with
      | nil => exact relative
      | cons next names =>
          rw [Text.joinWith, List.append_assoc, List.singleton_append,
            isAbsolute_append isFile.ne_nil, relative]

/-- A path of names joined at once is joined name by name. -/
theorem join_joinWith
    {names : List Text}
    (directory : Text)
    (nonempty : names ≠ [])
    (areNames : ∀ name ∈ names, IsFileName name) :
    join directory (Text.joinWith ['/'] names) = names.foldl join directory := by
  induction names generalizing directory with
  | nil => exact absurd rfl nonempty
  | cons name names inductionHypothesis =>
      cases names with
      | nil => rfl
      | cons next names =>
          obtain ⟨isFile, areLater⟩ := List.forall_mem_cons.mp areNames
          calc
            join directory (Text.joinWith ['/'] (name :: next :: names))
            _ = join directory name ++ '/' :: Text.joinWith ['/'] (next :: names) := by
              rw [join_eq_append directory (isAbsolute_joinWith areNames),
                join_eq_append directory (isAbsolute_eq_false isFile.whole), Text.joinWith]
              simp
            _ = join (join directory name) (Text.joinWith ['/'] (next :: names)) := by
              rw [join_eq_append _ (isAbsolute_joinWith areLater),
                (isFilePath_join directory isFile).join_nil]
              simp
            _ = (name :: next :: names).foldl join directory :=
              inductionHypothesis _ (List.cons_ne_nil _ _) areLater

theorem isFilePath_joinWith
    {names : List Text}
    (nonempty : names ≠ [])
    (areNames : ∀ name ∈ names, IsFileName name) :
    IsFilePath (Text.joinWith ['/'] names) := by
  have whole : join [] (Text.joinWith ['/'] names) = Text.joinWith ['/'] names := by simp [join]
  rw [← whole, join_joinWith [] nonempty areNames]
  exact isFilePath_foldl_join [] nonempty areNames

/-- A slash at the end of a path of names changes neither where it leads nor what stands in front
of further names. -/
theorem join_slash
    {names : List Text}
    (directory : Text)
    (nonempty : names ≠ [])
    (areNames : ∀ name ∈ names, IsFileName name) :
    let slashed := join directory (Text.joinWith ['/'] names ++ ['/'])
    join slashed [] = join (names.foldl join directory) [] ∧
      route slashed = route (names.foldl join directory) := by
  intro slashed
  have isFile := isFilePath_foldl_join directory nonempty areNames
  have relative : isAbsolute (Text.joinWith ['/'] names ++ ['/']) = false :=
    (isAbsolute_append (isFilePath_joinWith nonempty areNames).ne_nil).trans
      (isAbsolute_joinWith areNames)
  have isSlashed : slashed = names.foldl join directory ++ ['/'] := by
    rw [← join_joinWith directory nonempty areNames,
      join_eq_append directory (isAbsolute_joinWith areNames), List.append_assoc]
    exact join_eq_append directory relative
  constructor
  · rw [isSlashed, isFile.join_nil]
    simp [join, isAbsolute]
  · rw [isSlashed, route_append _ [], if_neg isFile.ne_nil]
    simp [Text.splitOn, componentOfPiece?]

end Path

end LocalizationScan
