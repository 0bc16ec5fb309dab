import LocalizationScan.Proofs.Path.Join

namespace LocalizationScan

/-!
# Parents of paths

The parent of a path lacks its last component, also where separators or `.` stand
behind it or in front of it.  A relative path loses its components until none is
left, so its parents all lie in the directory in which it starts.
-/

namespace Path

variable {directory path piece name : Text}

/-! ## Taking the last component away -/

/-- A path is one piece, or has a last piece behind a separator. -/
theorem eq_append_or_not_mem (path : Text) :
    '/' ∉ path ∨ ∃ directory piece, '/' ∉ piece ∧ path = directory ++ '/' :: piece := by
  cases cut : Text.splitLast? '/' path with
  | none => exact .inl (Text.not_mem_of_splitLast?_eq_none cut)
  | some parts =>
      have shape := Text.eq_append_of_splitLast? cut
      exact .inr ⟨parts.1, parts.2, Text.not_mem_of_splitLast? cut, shape⟩

/-- The path without the pieces at its end that have no meaning there. -/
def withoutEnd (path : Text) : Text :=
  match dropMeaningless (Text.splitOn '/' path).reverse with
  | [] => if isAbsolute path then ['/'] else []
  | pieces => Text.joinWith ['/'] pieces.reverse

theorem reverse_splitOn_append
    (directory : Text)
    (whole : '/' ∉ piece) :
    (Text.splitOn '/' (directory ++ '/' :: piece)).reverse =
      piece :: (Text.splitOn '/' directory).reverse := by
  rw [Text.splitOn_append, Text.splitOn_of_not_mem whole, List.reverse_append]
  rfl

theorem componentOfPiece?_eq_none_iff :
    componentOfPiece? piece = none ↔ piece = [] ∨ piece = ['.'] := by
  unfold componentOfPiece?
  split
  · next isNothing => simp [isNothing]
  · next isSomething => split <;> simp [isSomething]

theorem dropMeaningless_cons
    {pieces : List Text}
    (nonempty : pieces ≠ []) :
    dropMeaningless (piece :: pieces) =
      if componentOfPiece? piece = none then dropMeaningless pieces else piece :: pieces := by
  cases pieces with
  | nil => exact absurd rfl nonempty
  | cons next pieces => simp only [dropMeaningless, componentOfPiece?_eq_none_iff]

theorem withoutEnd_append
    (directory : Text)
    (whole : '/' ∉ piece) :
    withoutEnd (directory ++ '/' :: piece) =
      if componentOfPiece? piece = none then
        if directory = [] then ['/'] else withoutEnd directory
      else
        directory ++ '/' :: piece := by
  rw [withoutEnd, reverse_splitOn_append directory whole,
    dropMeaningless_cons (by simpa using Text.splitOn_ne_nil '/' directory)]
  by_cases isNothing : componentOfPiece? piece = none
  · rw [if_pos isNothing, if_pos isNothing]
    by_cases isRoot : directory = []
    · subst isRoot
      rfl
    · rw [isAbsolute_append isRoot, if_neg isRoot]
      rfl
  · rw [if_neg isNothing, if_neg isNothing]
    dsimp only
    rw [← reverse_splitOn_append directory whole, List.reverse_reverse, Text.joinWith_splitOn]

theorem withoutEnd_of_not_mem
    (whole : '/' ∉ path) :
    withoutEnd path = path := by
  rw [withoutEnd, Text.splitOn_of_not_mem whole]
  by_cases isEmpty : path = []
  · subst isEmpty
    rfl
  · simp [dropMeaningless, isEmpty, Text.joinWith]

/-- What has no meaning at the end of a path is no component of it. -/
theorem components_withoutEnd (path : Text) :
    isAbsolute (withoutEnd path) = isAbsolute path ∧
      components (withoutEnd path) = components path := by
  rcases eq_append_or_not_mem path with whole | ⟨directory, piece, whole, rfl⟩
  · rw [withoutEnd_of_not_mem whole]
    exact ⟨rfl, rfl⟩
  · rw [withoutEnd_append directory whole]
    by_cases isNothing : componentOfPiece? piece = none
    · rw [if_pos isNothing, components_append, Text.splitOn_of_not_mem whole]
      by_cases isRoot : directory = []
      · subst isRoot
        simp [isNothing, isAbsolute]
        decide
      · have shorter := components_withoutEnd directory
        simpa [isNothing, isRoot, isAbsolute_append isRoot] using shorter
    · rw [if_neg isNothing]
      exact ⟨rfl, rfl⟩
termination_by path.length
decreasing_by
  subst_vars
  simp

theorem parent?_of_not_mem
    (whole : '/' ∉ path) :
    parent? path = if path = [] then none else some [] := by
  rw [parent?, Text.splitOn_of_not_mem whole]
  by_cases isEmpty : path = []
  · subst isEmpty
    rfl
  · simp [dropMeaningless, isEmpty, isAbsolute_eq_false whole]

theorem parent?_append
    (directory : Text)
    (whole : '/' ∉ piece) :
    parent? (directory ++ '/' :: piece) =
      if componentOfPiece? piece = none then
        if directory = [] then none else parent? directory
      else
        some (if directory = [] then ['/'] else withoutEnd directory) := by
  rw [parent?, reverse_splitOn_append directory whole,
    dropMeaningless_cons (by simpa using Text.splitOn_ne_nil '/' directory)]
  by_cases isNothing : componentOfPiece? piece = none
  · rw [if_pos isNothing, if_pos isNothing]
    by_cases isRoot : directory = []
    · subst isRoot
      rfl
    · rw [isAbsolute_append isRoot, if_neg isRoot]
      rfl
  · rw [if_neg isNothing, if_neg isNothing]
    by_cases isRoot : directory = []
    · subst isRoot
      rfl
    · rw [isAbsolute_append isRoot, if_neg isRoot, withoutEnd]
      dsimp only
      cases dropMeaningless (Text.splitOn '/' directory).reverse with
      | nil => cases isAbsolute directory <;> rfl
      | cons => rfl

/-- The parent of a path lacks its last component; a path without a parent has none, but for
the root. -/
theorem components_parent? (path : Text) :
    match parent? path with
    | none => components path = if isAbsolute path then [.root] else []
    | some above =>
        isAbsolute above = isAbsolute path ∧
          ∃ last, components path = components above ++ [last] := by
  rcases eq_append_or_not_mem path with whole | ⟨directory, piece, whole, rfl⟩
  · rw [parent?_of_not_mem whole, components_of_not_mem whole]
    by_cases isEmpty : path = []
    · subst isEmpty
      rfl
    · rw [if_neg isEmpty]
      refine ⟨(isAbsolute_eq_false whole).symm, ?_⟩
      by_cases isCurrent : path = ['.']
      · exact ⟨.current, by rw [if_pos isCurrent]; rfl⟩
      · cases found : componentOfPiece? path with
        | none => exact absurd (componentOfPiece?_eq_none_iff.mp found) (by simp [*])
        | some component => exact ⟨component, by rw [if_neg isCurrent]; rfl⟩
  · rw [parent?_append directory whole, components_append, Text.splitOn_of_not_mem whole]
    cases found : componentOfPiece? piece with
    | none =>
        rw [if_pos rfl]
        by_cases isRoot : directory = []
        · subst isRoot
          simp [found, isAbsolute]
        · have shorter := components_parent? directory
          simpa [found, isRoot, isAbsolute_append isRoot] using shorter
    | some component =>
        rw [if_neg (Option.some_ne_none component)]
        by_cases isRoot : directory = []
        · subst isRoot
          exact ⟨rfl, component, by simp [found]; rfl⟩
        · obtain ⟨sameRoot, same⟩ := components_withoutEnd directory
          simp [isRoot, isAbsolute_append isRoot, sameRoot, same, found]
termination_by path.length
decreasing_by
  subst_vars
  simp

/-- The route of a path without a parent is that of the directory in which it starts; the route
of a parent lacks a component, or leads to the same place if there is none. -/
theorem route_parent? (path : Text) :
    match parent? path with
    | none => route path = if isAbsolute path then [.root] else []
    | some above =>
        isAbsolute above = isAbsolute path ∧
          (route path = route above ∨ ∃ last, route path = route above ++ [last]) := by
  have cut := components_parent? path
  cases found : parent? path with
  | none =>
      rw [found] at cut
      rw [route, cut]
      cases isAbsolute path <;> rfl
  | some above =>
      rw [found] at cut
      obtain ⟨sameRoot, last, same⟩ := cut
      refine ⟨sameRoot, ?_⟩
      rw [route, same, List.filter_append]
      by_cases isCurrent : last = .current
      · exact .inl (by simp [isCurrent, route])
      · exact .inr ⟨last, by simp [isCurrent, route]⟩

theorem root_prefix_route
    (absolute : isAbsolute path = true) :
    [.root] <+: route path := by
  rw [route, components]
  cases cut : Text.splitOn '/' path with
  | nil => exact absurd cut (Text.splitOn_ne_nil _ _)
  | cons first pieces => simp [absolute]

/-! ## Places -/

/-- Where a path leads from the current directory. -/
def place (current path : Text) : Place :=
  route (join current path)

theorem place_of_isAbsolute
    (absolute : isAbsolute path = true)
    (current : Text) :
    place current path = route path := by
  rw [place, join, absolute]
  rfl

theorem place_of_relative
    (relative : isAbsolute path = false)
    (current : Text) :
    place current path = route current ++ route path :=
  route_join current relative

/-- A path leads to the directory in which it starts or to a place below it. -/
theorem start_prefix_place (current path : Text) :
    (if isAbsolute path then [.root] else route current) <+: place current path := by
  cases start : isAbsolute path with
  | true =>
      rw [place_of_isAbsolute start]
      exact root_prefix_route start
  | false =>
      rw [place_of_relative start]
      exact List.prefix_append _ _

/-- The parent of a path leads to the same place as the path or to the one above it. -/
theorem place_parent? (current path : Text) :
    match parent? path with
    | none => place current path = if isAbsolute path then [.root] else route current
    | some above =>
        isAbsolute above = isAbsolute path ∧
          (place current path = place current above ∨
            ∃ last, place current path = place current above ++ [last]) := by
  have cut := route_parent? path
  cases found : parent? path with
  | none =>
      rw [found] at cut
      cases start : isAbsolute path with
      | true => simpa [place_of_isAbsolute start, start] using cut
      | false => simpa [place_of_relative start, start] using cut
  | some above =>
      rw [found] at cut
      obtain ⟨sameRoot, upward⟩ := cut
      refine ⟨sameRoot, ?_⟩
      cases start : isAbsolute path with
      | true => rwa [place_of_isAbsolute start, place_of_isAbsolute (sameRoot.trans start)]
      | false =>
          rw [place_of_relative start, place_of_relative (sameRoot.trans start)]
          simpa [List.append_assoc] using upward

/-- A relative path behind another one goes on from where that one leads. -/
theorem place_join
    (current path : Text)
    (relative : isAbsolute name = false) :
    place current (join path name) = place current path ++ route name := by
  by_cases isEmpty : path = []
  · subst isEmpty
    have noRoute : place current [] = route current :=
      (place_of_relative rfl current).trans (List.append_nil _)
    have whole : join [] name = name := by simp [join]
    rw [noRoute, whole, place_of_relative relative]
  · have sameRoot := isAbsolute_join isEmpty relative
    cases start : isAbsolute path with
    | true =>
        rw [place_of_isAbsolute (sameRoot.trans start), place_of_isAbsolute start,
          route_join path relative]
    | false =>
        rw [place_of_relative (sameRoot.trans start), place_of_relative start,
          route_join path relative, List.append_assoc]

end Path

end LocalizationScan
