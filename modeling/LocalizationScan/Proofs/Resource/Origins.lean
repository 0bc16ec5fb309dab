import LocalizationScan.Proofs.Path.Join
import LocalizationScan.Proofs.Resource.Names
import LocalizationScan.Resource.Location

namespace LocalizationScan

/-!
# Origins of resource files

The names that are made from the path of a resource file can stand in code: the
class is an identifier and the namespace is empty or a dotted one, so that the
full path of an entry is cut into them again.  Files beside each other whose
names differ in a culture tag stand for the same class.
-/

namespace Text

theorem isDottedIdentifier_joinWith
    {names : List Text}
    (nonempty : names ≠ [])
    (proper : ∀ name ∈ names, isIdentifierSegment name = true) :
    isDottedIdentifier (joinWith ['.'] names) = true := by
  rw [isDottedIdentifier,
    splitOn_joinWith nonempty fun name member =>
      dot_not_mem_of_isIdentifierSegment (proper name member)]
  exact List.all_eq_true.mpr proper

end Text

namespace Path

variable {base path rest : List Component} {directory piece name : Text}

theorem suffix_of_below?
    (lies : below? base path = some rest) :
    rest <:+ path := by
  fun_induction below? base path with
  | case1 =>
      cases lies
      exact List.suffix_refl _
  | case2 => cases lies
  | case3 component base path inductionHypothesis =>
      exact (inductionHypothesis lies).trans (List.suffix_cons _ _)
  | case4 => cases lies

theorem ne_nil_of_componentOfPiece?
    (isName : componentOfPiece? piece = some (.name name)) :
    name ≠ [] := by
  unfold componentOfPiece? at isName
  split at isName
  · cases isName
  · next proper =>
      split at isName
      · cases isName
      · cases isName
        exact (not_or.mp proper).1

/-- A named component has characters. -/
theorem ne_nil_of_mem_components
    {path : Text}
    (member : .name name ∈ components path) :
    name ≠ [] := by
  unfold components at member
  split at member
  · cases member
  · rcases List.mem_append.mp member with isFirst | isLater
    · split at isFirst
      · simp at isFirst
      · split at isFirst
        · simp at isFirst
        · exact ne_nil_of_componentOfPiece? (Option.mem_toList.mp isFirst)
    · obtain ⟨piece, -, isName⟩ := List.mem_filterMap.mp isLater
      exact ne_nil_of_componentOfPiece? isName

/-- A file name up to its last dot has characters. -/
theorem ne_nil_of_stem?
    {path stem : Text}
    (isStem : stem? path = some stem) :
    stem ≠ [] := by
  obtain ⟨name, isLast, rfl⟩ := Option.map_eq_some_iff.mp isStem
  have nonempty : name ≠ [] := by
    unfold fileName? at isLast
    split at isLast
    · next last =>
        cases isLast
        exact ne_nil_of_mem_components (List.mem_of_mem_getLast? last)
    · cases isLast
  unfold cutName
  split
  · exact List.cons_ne_nil _ _
  · exact nonempty

/-- A file name with an extension is cut in front of it. -/
theorem stem?_join
    {directory stem extension : Text}
    (isFile : IsFileName (stem ++ '.' :: extension))
    (nonempty : stem ≠ [])
    (last : '.' ∉ extension) :
    stem? (join directory (stem ++ '.' :: extension)) = some stem := by
  rw [stem?, fileName?, components_join directory isFile, List.getLast?_concat, Option.map_some,
    cutName, Text.splitLast?_append stem last]
  cases stem with
  | nil => exact absurd rfl nonempty
  | cons => rfl

end Path

/-- Whether the names of a container can stand in code: the class is an identifier that does not
begin with an ASCII digit, and the namespace is empty or a dotted identifier. -/
structure Origin.IsNamed (origin : Origin) : Prop where
  className : Text.isIdentifierSegment origin.className = true
  noDot : '.' ∉ origin.className
  noDigit : ∀ first ∈ origin.className.head?, first.isDigit = false
  scope : origin.scope = [] ∨ Text.isDottedIdentifier origin.scope = true

section Names

variable {stem tag : Text}

theorem cutCulture_ne_nil
    (nonempty : stem ≠ []) :
    (cutCulture stem).1 ≠ [] := by
  unfold cutCulture
  split
  · split
    · exact List.cons_ne_nil _ _
    · exact nonempty
  · exact nonempty

/-- The directories below a source root are named by identifiers. -/
theorem isIdentifierSegment_of_mem_directorySegments
    {path sourceRoot name : Text}
    (member : name ∈ directorySegments path sourceRoot) :
    Text.isIdentifierSegment name = true := by
  unfold directorySegments at member
  split at member
  · next lies =>
      obtain ⟨component, memberComponent, isSegment⟩ := List.mem_filterMap.mp member
      cases component with
      | name text =>
          cases isSegment
          have inPath := List.dropLast_subset _ ((Path.suffix_of_below? lies).subset memberComponent)
          exact Text.isIdentifierSegment_toIdentifier (Path.ne_nil_of_mem_components inPath)
      | _ => cases isSegment
  · cases member

/-- The full path of an entry is cut into the names that it was made from. -/
theorem Origin.IsNamed.ofText?_fullPath
    {entry : Entry}
    (isNamed : entry.origin.IsNamed)
    (keyed : entry.key ≠ []) :
    DottedReference.ofText? entry.fullPath =
      some
        ⟨if entry.origin.scope = [] then none else some entry.origin.scope,
          entry.origin.className, entry.propertyName⟩ := by
  have named : entry.IsWellNamed := ⟨isNamed.className, isNamed.scope, keyed⟩
  have cut :=
    DottedReference.ofText?_joinWith fun name member =>
      have isSegment := named.names_proper named.scopeNames_proper name member
      ⟨Text.ne_nil_of_isIdentifierSegment isSegment,
        Text.dot_not_mem_of_isIdentifierSegment isSegment⟩
  rw [Entry.joinWith_names_eq_fullPath named.dotFree, Entry.joinWith_scopeNames] at cut
  simpa only [Entry.scopeNames_eq_nil_iff] using cut

/-- A culture tag is made up of letters, digits and hyphens. -/
theorem isAlphanum_of_mem_cultureTag
    (isTag : isCultureTag tag = true) :
    ∀ char ∈ tag, char.isAlphanum = true ∨ char = '-' := by
  have isAlphanum_of_isLowerLetter {char : Char} (isLower : isLowerLetter char = true) :
      char.isAlphanum = true := by
    have isLower : char.isLower = true := isLower
    exact Bool.or_eq_true_iff.mpr (.inl (Bool.or_eq_true_iff.mpr (.inr isLower)))
  rw [← Text.joinWith_splitOn '-' tag]
  unfold isCultureTag at isTag
  split at isTag
  · cases isTag
  · next language subtags cut =>
      simp only [Bool.and_eq_true, List.all_eq_true, isCultureSubtag] at isTag
      rw [cut]
      refine Text.forall_mem_joinWith (by simp) fun piece isPiece char member => .inl ?_
      rcases List.mem_cons.mp isPiece with rfl | isSubtag
      · exact isAlphanum_of_isLowerLetter (isTag.1.2 char member)
      · exact (isTag.2 piece isSubtag).2 char member

theorem isFileName_resource
    (whole : '/' ∉ stem) :
    Path.IsFileName (stem ++ '.' :: "resx".toList) where
  whole := by simp [whole]
  isName := by
    have long : 5 ≤ (stem ++ '.' :: "resx".toList).length := by simp
    unfold Path.componentOfPiece?
    rw [if_neg, if_neg]
    · intro same
      rw [same] at long
      simp at long
    · rintro (same | same)
      all_goals
        rw [same] at long
        simp at long

theorem cutCulture_of_neutral
    (neutral : (cutCulture stem).2 = none) :
    cutCulture stem = (stem, none) := by
  unfold cutCulture at neutral ⊢
  split at neutral
  · split at neutral
    · cases neutral
    · next noTag => exact if_neg noTag
  · rfl

theorem cutCulture_append
    (nonempty : stem ≠ [])
    (isTag : isCultureTag tag = true) :
    cutCulture (stem ++ '.' :: tag) = (stem, some tag) := by
  have last : '.' ∉ tag := by
    intro member
    rcases isAlphanum_of_mem_cultureTag isTag '.' member with alphanum | hyphen
    · cases alphanum
    · cases hyphen
  rw [cutCulture, Text.splitLast?_append stem last]
  cases stem with
  | nil => exact absurd rfl nonempty
  | cons => simp [isTag]

end Names

theorem Origin.isNamed_of_ofPath?
    {path sourceRoot rootNamespace : Text}
    {origin : Origin}
    (proper :
      ∀ part ∈ Text.splitOn '.' rootNamespace,
        part ≠ [] → ∀ char ∈ part, Text.isIdentifierChar char = true)
    (found : ofPath? path sourceRoot rootNamespace = some origin) :
    origin.IsNamed := by
  obtain ⟨stem, isStem, rfl⟩ := Option.map_eq_some_iff.mp found
  have properClass :=
    Text.isIdentifierSegment_toIdentifier (cutCulture_ne_nil (Path.ne_nil_of_stem? isStem))
  refine ⟨properClass, Text.dot_not_mem_of_isIdentifierSegment properClass,
    fun first begins => Text.isDigit_head?_toIdentifier begins, ?_⟩
  dsimp only
  generalize names :
    (Text.splitOn '.' rootNamespace).filter (fun segment => !segment.isEmpty) ++
      directorySegments path sourceRoot = segments
  by_cases isGlobal : segments = []
  · exact .inl (by rw [isGlobal]; rfl)
  · refine .inr (Text.isDottedIdentifier_joinWith isGlobal fun name member => ?_)
    rw [← names, List.mem_append, List.mem_filter] at member
    rcases member with ⟨inRoot, filled⟩ | inDirectory
    · have nonempty : name ≠ [] := by simpa using filled
      exact Text.isIdentifierSegment_iff.mpr ⟨nonempty, proper name inRoot nonempty⟩
    · exact isIdentifierSegment_of_mem_directorySegments inDirectory

/-- The resource files of a directory share their namespace. -/
theorem Origin.exists_scope_of_directory (directory sourceRoot rootNamespace : Text) :
    ∃ scope, ∀ stem, stem ≠ [] → '/' ∉ stem →
      let path := Path.join directory (stem ++ ".resx".toList)
      ofPath? path sourceRoot rootNamespace =
        some
          ⟨scope, Text.toIdentifier (cutCulture stem).1, (cutCulture stem).2, path⟩ := by
  let rootSegments := (Text.splitOn '.' rootNamespace).filter fun segment => !segment.isEmpty
  let below :=
    (Path.below? (Path.components sourceRoot) (Path.components directory)).elim []
      fun components => components.filterMap Path.Component.segment?
  refine ⟨Text.joinWith ['.'] (rootSegments ++ below), ?_⟩
  intro stem nonempty whole path
  have isFile : Path.IsFileName (stem ++ '.' :: "resx".toList) := isFileName_resource whole
  have isStem : Path.stem? path = some stem := Path.stem?_join isFile nonempty (by decide)
  have components :
      Path.components path = Path.components directory ++ [.name (stem ++ ".resx".toList)] :=
    Path.components_join directory isFile
  have segments : directorySegments path sourceRoot = below := by
    rw [directorySegments, components, List.dropLast_concat]
    dsimp only [below]
    cases Path.below? (Path.components sourceRoot) (Path.components directory) <;> rfl
  rw [ofPath?, isStem, segments]
  rfl

/-- The origin of every resource file is named as code can name it, so that the full path of an
entry is cut into the namespace, the class and the property that it is made from.  A file whose
name has a culture tag behind the stem of a neutral file beside it differs from that one in the
culture and the path only. -/
theorem Origin.isNamed_and_siblings (sourceRoot rootNamespace : Text) :
    ((∀ part ∈ Text.splitOn '.' rootNamespace,
        part ≠ [] → ∀ char ∈ part, Text.isIdentifierChar char = true) →
      ∀ path, (Path.stem? path).isSome = true →
        ∃ origin, ofPath? path sourceRoot rootNamespace = some origin ∧ origin.IsNamed ∧
          ∀ entry : Entry, entry.origin = origin → entry.key ≠ [] →
            DottedReference.ofText? entry.fullPath =
              some
                ⟨if origin.scope = [] then none else some origin.scope, origin.className,
                  entry.propertyName⟩) ∧
      ∀ directory stem tag, stem ≠ [] → '/' ∉ stem → isCultureTag tag = true →
        let neutral := Path.join directory (stem ++ ".resx".toList)
        let tagged := Path.join directory (stem ++ '.' :: tag ++ ".resx".toList)
        ∃ origin, ofPath? neutral sourceRoot rootNamespace = some origin ∧
          origin.path = neutral ∧
          (origin.culture? = none →
            ofPath? tagged sourceRoot rootNamespace =
              some { origin with culture? := some tag, path := tagged }) := by
  constructor
  · intro proper path hasStem
    obtain ⟨stem, isStem⟩ := Option.isSome_iff_exists.mp hasStem
    obtain ⟨origin, found⟩ :
        ∃ origin, ofPath? path sourceRoot rootNamespace = some origin :=
      ⟨_, by rw [ofPath?, isStem]; rfl⟩
    have isNamed := isNamed_of_ofPath? proper found
    refine ⟨origin, found, isNamed, ?_⟩
    rintro entry rfl keyed
    exact isNamed.ofText?_fullPath keyed
  · intro directory stem tag nonempty whole isTag neutral tagged
    obtain ⟨scope, ofStem⟩ := exists_scope_of_directory directory sourceRoot rootNamespace
    refine ⟨_, ofStem stem nonempty whole, rfl, fun isNeutral => ?_⟩
    have wholeTagged : '/' ∉ stem ++ '.' :: tag := by
      intro member
      simp only [List.mem_append, List.mem_cons] at member
      rcases member with inStem | isDot | inTag
      · exact whole inStem
      · cases isDot
      · rcases isAlphanum_of_mem_cultureTag isTag '/' inTag with alphanum | hyphen
        · cases alphanum
        · cases hyphen
    have found := ofStem (stem ++ '.' :: tag) (by simp) wholeTagged
    rw [cutCulture_append nonempty isTag] at found
    rw [cutCulture_of_neutral isNeutral]
    exact found

/-- A hidden file whose stem begins with a digit behind its dot, and its German sibling. -/
theorem Origin.isNamed_and_siblings_hidden :
    let sourceRoot := "/p".toList
    let rootNamespace := "App.2nd".toList
    let neutral := "/p/My Folder/.1st.resx".toList
    let tagged := "/p/My Folder/.1st.de-DE.resx".toList
    ∃ named origin,
      (ofPath? tagged sourceRoot rootNamespace = some named ∧ named.IsNamed) ∧
        ofPath? neutral sourceRoot rootNamespace = some origin ∧
          ofPath? tagged sourceRoot rootNamespace =
            some { origin with culture? := some "de-DE".toList, path := tagged } := by
  intro sourceRoot rootNamespace neutral tagged
  obtain ⟨named_of_stem, siblings⟩ := isNamed_and_siblings sourceRoot rootNamespace
  have proper : Text.isDottedIdentifier rootNamespace = true := by decide +kernel
  obtain ⟨named, found, isNamed, -⟩ :=
    named_of_stem
      (fun part member _ char =>
        Text.isIdentifierChar_of_mem_segment (List.all_eq_true.mp proper part member))
      tagged (by decide +kernel)
  obtain ⟨origin, foundNeutral, -, foundTagged⟩ :=
    siblings "/p/My Folder".toList ".1st".toList "de-DE".toList (by decide) (by decide)
      (by decide +kernel)
  have isNeutral : (ofPath? neutral sourceRoot rootNamespace).bind (·.culture?) = none := by
    decide +kernel
  have foundNeutral : ofPath? neutral sourceRoot rootNamespace = some origin := foundNeutral
  rw [foundNeutral] at isNeutral
  exact ⟨named, origin, ⟨found, isNamed⟩, foundNeutral, foundTagged isNeutral⟩

end LocalizationScan
