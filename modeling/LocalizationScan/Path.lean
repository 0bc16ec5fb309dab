import LocalizationScan.Text.Basic

namespace LocalizationScan

/-!
# Paths

Paths are texts with `/` between their components.  Empty components and `.`
components carry no meaning, but for a leading `.`; the spelling of a path is
kept as it was given, while comparisons go component by component.
-/

namespace Path

/-- One component of a path. -/
inductive Component where
  /-- The `/` that an absolute path starts with. -/
  | root
  /-- A leading `.`. -/
  | current
  /-- A `..`. -/
  | parent
  /-- A named file or directory. -/
  | name (text : Text)
  deriving Repr, DecidableEq

/-- Whether a path starts at the root. -/
def isAbsolute (path : Text) : Bool :=
  path.head? == some '/'

/-- The meaning of one piece between separators. -/
def componentOfPiece? (piece : Text) : Option Component :=
  if piece = [] ∨ piece = ['.'] then none
  else if piece = ['.', '.'] then some .parent
  else some (.name piece)

/-- The components of a path, in order. -/
def components (path : Text) : List Component :=
  match Text.splitOn '/' path with
  | [] => []
  | first :: pieces =>
      (if isAbsolute path then [Component.root]
        else if first = ['.'] then [Component.current]
        else (componentOfPiece? first).toList) ++
      pieces.filterMap componentOfPiece?

/-- The last component, when it is a name. -/
def fileName? (path : Text) : Option Text :=
  match (components path).getLast? with
  | some (.name text) => some text
  | _ => none

/-- A file name cut at its last dot; a name whose only dot leads it is not cut. -/
def cutName (name : Text) : Text × Option Text :=
  match Text.splitLast? '.' name with
  | some (first :: rest, extension) => (first :: rest, some extension)
  | _ => (name, none)

/-- The file name up to its last dot. -/
def stem? (path : Text) : Option Text :=
  (fileName? path).map fun name => (cutName name).1

/-- The file name after its last dot. -/
def extension? (path : Text) : Option Text :=
  (fileName? path).bind fun name => (cutName name).2

/-- Whether the extension is the given one, ignoring the case of ASCII letters. -/
def hasExtension (extension path : Text) : Bool :=
  match extension? path with
  | some found => Text.equalIgnoringCase extension found
  | none => false

/-- The components that a path adds below another one, when it lies there. -/
def below? : List Component → List Component → Option (List Component)
  | [], path => some path
  | _ :: _, [] => none
  | component :: base, other :: path =>
      if component = other then below? base path else none

/-- Whether a path starts with all components of another one. -/
def startsWith (path base : Text) : Bool :=
  (below? (components base) (components path)).isSome

/-- Whether a path ends with all components of another one. -/
def endsWith (path ending : Text) : Bool :=
  (below? (components ending).reverse (components path).reverse).isSome

/-- A path followed by another one; an absolute one replaces it. -/
def join (base path : Text) : Text :=
  if isAbsolute path || base.isEmpty then path
  else if base.getLast? = some '/' then base ++ path
  else base ++ '/' :: path

/-- The pieces of a path from last to first, without the meaningless ones at the front:
a `.` has a meaning only where it leads the path. -/
def dropMeaningless : List Text → List Text
  | [] => []
  | [piece] => if piece = [] then [] else [piece]
  | piece :: next :: pieces =>
      if piece = [] ∨ piece = ['.'] then dropMeaningless (next :: pieces)
      else piece :: next :: pieces

/-- The path without its last component, spelled as the start of the given path. -/
def parent? (path : Text) : Option Text :=
  match dropMeaningless (Text.splitOn '/' path).reverse with
  | [] => none
  | _ :: earlier =>
      match dropMeaningless earlier with
      | [] => if isAbsolute path then some ['/'] else some []
      | pieces => some (Text.joinWith ['/'] pieces.reverse)

/-- Pieces are only dropped from the front. -/
theorem dropMeaningless_suffix (pieces : List Text) :
    dropMeaningless pieces <:+ pieces := by
  fun_induction dropMeaningless pieces with
  | case1 => exact List.suffix_refl _
  | case2 => simp
  | case3 => exact List.suffix_refl _
  | case4 piece next pieces _ inductionHypothesis =>
      exact inductionHypothesis.trans (List.suffix_cons _ _)
  | case5 => exact List.suffix_refl _

/-- A path without its last component is shorter. -/
theorem length_parent?_lt
    {path parent : Text}
    (found : parent? path = some parent) :
    parent.length < path.length := by
  unfold parent? at found
  split at found
  · simp at found
  · rename_i last earlier pieces
    split at found
    · split at found
      · rename_i absolute
        rw [← Option.some.inj found]
        cases path with
        | nil => simp [isAbsolute] at absolute
        | cons first rest =>
            cases rest with
            | nil =>
                simp only [isAbsolute, List.head?_cons, beq_iff_eq, Option.some.injEq] at absolute
                simp [absolute, Text.splitOn, dropMeaningless] at pieces
            | cons second others => simp
      · rw [← Option.some.inj found]
        cases path with
        | nil => simp [Text.splitOn, dropMeaningless] at pieces
        | cons char rest => simp
    · rename_i kept_ne_nil
      rw [← Option.some.inj found]
      obtain ⟨dropped, split⟩ := dropMeaningless_suffix (Text.splitOn '/' path).reverse
      obtain ⟨skipped, rest⟩ := dropMeaningless_suffix earlier
      rw [pieces, ← rest] at split
      have whole : Text.splitOn '/' path =
          (dropMeaningless earlier).reverse ++ (skipped.reverse ++ (last :: dropped.reverse)) := by
        rw [← List.reverse_reverse (Text.splitOn '/' path), ← split]
        simp
      have joined := Text.joinWith_splitOn '/' path
      rw [whole, Text.joinWith_append ['/'] (by simpa using kept_ne_nil) (by simp)] at joined
      have := congrArg List.length joined
      simp only [List.length_append, List.length_singleton] at this
      omega

end Path

end LocalizationScan
