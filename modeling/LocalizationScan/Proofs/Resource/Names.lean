import LocalizationScan.Proofs.Reference.Dotted
import LocalizationScan.Resource.Basic

namespace LocalizationScan

/-!
# The names on a path

The last two names on a path of an entry are its class and its property.  The
names before them, if there are any, are those of its namespace.  The names of
an entry that is well named are all segments that code can write.
-/

/-- An entry whose path code can write. -/
structure Entry.IsWellNamed (entry : Entry) : Prop where
  className : Text.isIdentifierSegment entry.origin.className = true
  scope : entry.origin.scope = [] ∨ Text.isDottedIdentifier entry.origin.scope = true
  key : entry.key ≠ []

instance (entry : Entry) : Decidable entry.IsWellNamed :=
  decidable_of_iff
    (Text.isIdentifierSegment entry.origin.className = true ∧
      (entry.origin.scope = [] ∨ Text.isDottedIdentifier entry.origin.scope = true) ∧
      entry.key ≠ [])
    ⟨fun ⟨className, scope, key⟩ => ⟨className, scope, key⟩,
      fun named => ⟨named.className, named.scope, named.key⟩⟩

namespace Entry

variable {entry : Entry}

theorem dot_not_mem_propertyName (entry : Entry) :
    '.' ∉ entry.propertyName := by
  intro member
  have isIdentifier := Text.isIdentifierChar_of_mem_toIdentifier member
  simp [Text.isIdentifierChar_dot] at isIdentifier

theorem fullPath_of_scope_nil
    (isGlobal : entry.origin.scope = []) :
    entry.fullPath = entry.classPath := by
  simp [fullPath, classPath, Origin.qualifiedClass, qualify, isGlobal]

theorem fullPath_of_scope_ne_nil
    (qualified : entry.origin.scope ≠ []) :
    entry.fullPath = entry.origin.scope ++ '.' :: entry.classPath := by
  simp [fullPath, classPath, Origin.qualifiedClass, qualify, qualified]

theorem mem_paths_iff {path : Text} :
    path ∈ entry.paths ↔
      path = entry.classPath ∨ entry.origin.scope ≠ [] ∧ path = entry.fullPath := by
  by_cases isGlobal : entry.origin.scope = []
  · simp [paths, isGlobal]
  · simp [paths, isGlobal]

theorem splitOn_classPath
    (dotFree : '.' ∉ entry.origin.className) :
    Text.splitOn '.' entry.classPath = [entry.origin.className, entry.propertyName] := by
  rw [classPath, Text.splitOn_append, Text.splitOn_of_not_mem dotFree,
    Text.splitOn_of_not_mem entry.dot_not_mem_propertyName]
  rfl

theorem splitOn_fullPath
    (dotFree : '.' ∉ entry.origin.className)
    (qualified : entry.origin.scope ≠ []) :
    Text.splitOn '.' entry.fullPath =
      Text.splitOn '.' entry.origin.scope ++
        [entry.origin.className, entry.propertyName] := by
  rw [fullPath_of_scope_ne_nil qualified, Text.splitOn_append, splitOn_classPath dotFree]

/-- The names on the full path of an entry before the class. -/
def scopeNames (entry : Entry) : List Text :=
  if entry.origin.scope = [] then [] else Text.splitOn '.' entry.origin.scope

theorem IsWellNamed.dotFree
    (named : entry.IsWellNamed) :
    '.' ∉ entry.origin.className :=
  Text.dot_not_mem_of_isIdentifierSegment named.className

theorem IsWellNamed.scopeNames_proper
    (named : entry.IsWellNamed) :
    ∀ name ∈ entry.scopeNames, Text.isIdentifierSegment name = true := by
  intro name member
  unfold scopeNames at member
  split at member
  · cases member
  · rename_i qualified
    have isDotted := named.scope.resolve_left qualified
    exact List.all_eq_true.mp isDotted name member

theorem IsWellNamed.names_proper
    (named : entry.IsWellNamed)
    {front : List Text}
    (proper : ∀ name ∈ front, Text.isIdentifierSegment name = true) :
    ∀ name ∈ front ++ [entry.origin.className, entry.propertyName],
      Text.isIdentifierSegment name = true := by
  intro name member
  simp only [List.mem_append, List.mem_cons, List.not_mem_nil, or_false] at member
  rcases member with inFront | rfl | rfl
  · exact proper name inFront
  · exact named.className
  · exact Text.isIdentifierSegment_toIdentifier named.key

theorem scopeNames_eq_nil_iff :
    entry.scopeNames = [] ↔ entry.origin.scope = [] := by
  unfold scopeNames
  split
  · rename_i isGlobal
    exact iff_of_true rfl isGlobal
  · rename_i qualified
    exact iff_of_false (Text.splitOn_ne_nil _ _) qualified

theorem joinWith_scopeNames (entry : Entry) :
    Text.joinWith ['.'] entry.scopeNames = entry.origin.scope := by
  unfold scopeNames
  split
  · rename_i isGlobal
    rw [isGlobal]
    rfl
  · exact Text.joinWith_splitOn _ _

theorem splitOn_fullPath_eq_scopeNames
    (dotFree : '.' ∉ entry.origin.className) :
    Text.splitOn '.' entry.fullPath =
      entry.scopeNames ++ [entry.origin.className, entry.propertyName] := by
  unfold scopeNames
  split
  · rename_i isGlobal
    rw [fullPath_of_scope_nil isGlobal, splitOn_classPath dotFree]
    rfl
  · rename_i qualified
    exact splitOn_fullPath dotFree qualified

theorem joinWith_names_eq_fullPath
    (dotFree : '.' ∉ entry.origin.className) :
    Text.joinWith ['.'] (entry.scopeNames ++ [entry.origin.className, entry.propertyName]) =
      entry.fullPath := by
  rw [← splitOn_fullPath_eq_scopeNames dotFree, Text.joinWith_splitOn]

/-- A path of an entry ends with its class and its property. -/
theorem splitOn_of_mem_paths
    {path : Text}
    (dotFree : '.' ∉ entry.origin.className)
    (member : path ∈ entry.paths) :
    ∃ front, Text.splitOn '.' path = front ++ [entry.origin.className, entry.propertyName] := by
  rcases mem_paths_iff.mp member with rfl | ⟨qualified, rfl⟩
  · exact ⟨[], splitOn_classPath dotFree⟩
  · exact ⟨_, splitOn_fullPath dotFree qualified⟩

/-- Names are those on a path of an entry when they end with its class and its property and
the others, if there are any, are those of its namespace. -/
theorem joinWith_mem_paths_iff
    {front : List Text}
    {className key : Text}
    (dotFree : '.' ∉ entry.origin.className)
    (absent : ∀ name ∈ front ++ [className, key], '.' ∉ name) :
    Text.joinWith ['.'] (front ++ [className, key]) ∈ entry.paths ↔
      entry.origin.className = className ∧ entry.propertyName = key ∧
        (front = [] ∨
          entry.origin.scope ≠ [] ∧ entry.origin.scope = Text.joinWith ['.'] front) := by
  have names :
      Text.splitOn '.' (Text.joinWith ['.'] (front ++ [className, key])) =
        front ++ [className, key] :=
    Text.splitOn_joinWith (by simp) absent
  rw [mem_paths_iff]
  constructor
  · rintro (same | ⟨qualified, same⟩)
    · rw [same, splitOn_classPath dotFree] at names
      obtain ⟨frontNil, sameNames⟩ := @List.append_inj' _ [] _ _ _ names rfl
      cases sameNames
      exact ⟨rfl, rfl, .inl frontNil.symm⟩
    · rw [same, splitOn_fullPath dotFree qualified] at names
      obtain ⟨sameFront, sameNames⟩ := List.append_inj' names rfl
      cases sameNames
      refine ⟨rfl, rfl, .inr ⟨qualified, ?_⟩⟩
      rw [← sameFront, Text.joinWith_splitOn]
  · rintro ⟨rfl, rfl, rfl | ⟨qualified, same⟩⟩
    · exact .inl (by simp [Text.joinWith, classPath])
    · refine .inr ⟨qualified, ?_⟩
      have nonempty : front ≠ [] := by
        rintro rfl
        exact qualified same
      rw [fullPath_of_scope_ne_nil qualified, same, Text.joinWith_append ['.'] nonempty (by simp)]
      simp [Text.joinWith, classPath]

end Entry

end LocalizationScan
