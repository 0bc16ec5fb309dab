import Mathlib
import LocalizationScan.Proofs.Reference.Rejections

namespace LocalizationScan

/-!
# Declared names

The names of `using` and `namespace` declarations and of page directives come
into the scope of a file as they are written; only those of `Imports`
declarations are checked first.  A file whose other names are dotted
identifiers has a well-formed scope and can always be searched.  Otherwise the
first lookup that comes to a malformed name makes the search of the whole file
fail.
-/

namespace Text

variable {text name : Text}

theorem trim_eq_self
    (noBlank : ∀ char ∈ text, isBlank char = false) :
    trim text = text := by
  have untouched (text : Text) (noBlank : ∀ char ∈ text, isBlank char = false) :
      text.dropWhile isBlank = text := by
    cases text with
    | nil => rfl
    | cons char rest => exact List.dropWhile_cons_of_neg (by simp [noBlank char])
  rw [trim, trimLeft, trimRight, untouched text noBlank,
    untouched text.reverse (fun char member => noBlank char (List.mem_reverse.mp member)),
    List.reverse_reverse]

/-- A dotted identifier has nothing to trim. -/
theorem trim_of_isDottedIdentifier
    (isDotted : isDottedIdentifier text = true) :
    trim text = text := by
  apply trim_eq_self
  rw [← joinWith_splitOn '.' text]
  apply forall_mem_joinWith
  · simp [isBlank]
  · intro piece member char inPiece
    exact isBlank_eq_false_of_isIdentifierChar
      (isIdentifierChar_of_mem_segment (List.all_eq_true.mp isDotted piece member) inPiece)

theorem isDottedIdentifier_of_splitLast?
    {outer last : Text}
    (isDotted : isDottedIdentifier text = true)
    (cut : splitLast? '.' text = some (outer, last)) :
    isDottedIdentifier outer = true := by
  rw [eq_append_of_splitLast? cut, isDottedIdentifier, splitOn_append, List.all_append,
    Bool.and_eq_true] at isDotted
  exact isDotted.1

end Text

namespace Scope

variable {scope : Scope} {name outer : Text}

theorem mem_enclosing_iff :
    outer ∈ enclosing name ↔
      outer = name ∨
        ∃ next last, Text.splitLast? '.' name = some (next, last) ∧ outer ∈ enclosing next := by
  rw [enclosing]
  split
  · next whole => simp [whole]
  · next cut => simp [cut]

theorem mem_enclosing_self :
    name ∈ enclosing name :=
  mem_enclosing_iff.mpr (.inl rfl)

/-- Nothing lies around the global namespace. -/
theorem eq_nil_of_mem_enclosing_nil
    (member : outer ∈ enclosing []) :
    outer = [] := by
  rcases mem_enclosing_iff.mp member with same | ⟨_, _, cut, -⟩
  · exact same
  · cases cut

/-- The namespaces around a dotted identifier are dotted identifiers. -/
theorem isDottedIdentifier_of_mem_enclosing
    (isDotted : Text.isDottedIdentifier name = true)
    (member : outer ∈ enclosing name) :
    Text.isDottedIdentifier outer = true := by
  induction name using enclosing.induct with
  | case1 name whole =>
      rcases mem_enclosing_iff.mp member with rfl | ⟨next, last, cut, -⟩
      · exact isDotted
      · cases whole.symm.trans cut
  | case2 name next last cut inductionHypothesis =>
      rcases mem_enclosing_iff.mp member with rfl | ⟨_, _, sameCut, member⟩
      · exact isDotted
      · cases cut.symm.trans sameCut
        exact inductionHypothesis (Text.isDottedIdentifier_of_splitLast? isDotted cut) member

/-- The namespaces and the targets of aliases in a scope have a property. -/
structure Holds (property : Text → Prop) (scope : Scope) : Prop where
  namespaces : ∀ name ∈ scope.namespaces, property name
  aliases : ∀ declared ∈ scope.aliases, property declared.2

section Holds

variable {property : Text → Prop}

theorem holds_empty (property : Text → Prop) :
    Holds property empty where
  namespaces := nofun
  aliases := nofun

/-- Every rejected name has the property of the names in the scope. -/
theorem Holds.property_of_rejects
    {error : ScopeError}
    (holds : Holds property scope)
    (rejects : scope.Rejects error) :
    property error.name := by
  cases rejects with
  | malformedAlias declared _ =>
      exact holds.aliases _ declared
  | malformedNamespace declared _ _ =>
      exact holds.namespaces _ declared

theorem Holds.addNamespace
    (holds : Holds property scope)
    (named : name ≠ [] → property name) :
    Holds property (scope.addNamespace name) := by
  unfold Scope.addNamespace
  split
  · exact holds
  · next isNew =>
      have nonempty : name ≠ [] := by
        rintro rfl
        simp at isNew
      refine ⟨?_, holds.aliases⟩
      rw [List.forall_mem_append, List.forall_mem_singleton]
      exact ⟨holds.namespaces, named nonempty⟩

theorem Holds.addEnclosing
    (holds : Holds property scope)
    (named : ∀ outer ∈ enclosing name, outer ≠ [] → property outer) :
    Holds property (scope.addEnclosing name) :=
  List.foldlRecOn _ _ holds fun _ holds outer member => holds.addNamespace (named outer member)

theorem Holds.addAlias
    {target : Text}
    (holds : Holds property scope)
    (named : property target)
    (shortName : Text) :
    Holds property (scope.addAlias shortName target) where
  namespaces := holds.namespaces
  aliases := by
    rw [Scope.addAlias, List.forall_mem_append, List.forall_mem_singleton]
    exact ⟨fun entry member => holds.aliases entry (List.mem_of_mem_filter member), named⟩

/-- An `Imports` declaration adds dotted identifiers only. -/
theorem Holds.addImports
    (holds : Holds property scope)
    (dotted : ∀ name, Text.isDottedIdentifier name = true → property name)
    (clauses : Text) :
    Holds property (VisualBasic.addImports scope clauses) := by
  apply List.foldlRecOn _ _ holds
  intro scope holds clause _
  unfold VisualBasic.addClause
  split
  · split
    · next isDotted => exact holds.addAlias (dotted _ isDotted) _
    · exact holds
  · split
    · next isDotted => exact holds.addNamespace fun _ => dotted _ isDotted
    · exact holds

/-- The scope of a C# file has what its declarations name. -/
theorem holds_scopeOf_csharp
    {content : Text}
    (aliased : ∀ entry ∈ Text.readLines CSharp.usingAlias? content, property entry.2)
    (imported : ∀ name ∈ Text.readLines CSharp.usingTarget? content, property name)
    (entered :
      ∀ name ∈ Text.readLines CSharp.namespaceName? content,
        ∀ outer ∈ enclosing name, property outer) :
    Holds property (CSharp.scopeOf content) := by
  refine List.foldlRecOn _ _ (List.foldlRecOn _ _ (List.foldlRecOn _ _ (holds_empty property) ?_)
    ?_) ?_
  · intro scope holds entry member
    exact holds.addAlias (aliased entry member) _
  · intro scope holds name member
    exact holds.addNamespace fun _ => imported name member
  · intro scope holds name member
    exact holds.addEnclosing fun outer encloses _ => entered name member outer encloses

/-- The scope of a Visual Basic file has dotted identifiers and what its namespaces name. -/
theorem holds_scopeOf_visualBasic
    {content rootNamespace : Text}
    (dotted : ∀ name, Text.isDottedIdentifier name = true → property name)
    (entered :
      ∀ name ∈ Text.readLines VisualBasic.namespaceName? content,
        ∀ outer ∈ enclosing (VisualBasic.absoluteName (Text.trim rootNamespace) name),
          outer ≠ [] → property outer)
    (root : ∀ outer ∈ enclosing (Text.trim rootNamespace), outer ≠ [] → property outer) :
    Holds property (VisualBasic.scopeOf content rootNamespace) := by
  refine Holds.addEnclosing (List.foldlRecOn _ _ (List.foldlRecOn _ _ (holds_empty property) ?_)
    ?_) root
  · intro scope holds clauses _
    exact holds.addImports dotted clauses
  · intro scope holds name member
    exact holds.addEnclosing (entered name member)

end Holds

/-- A name that is a dotted identifier, or one of the namespaces around a declared name that is
none. -/
def StemsFrom (declared : List Text) (name : Text) : Prop :=
  Text.isDottedIdentifier name = true ∨
    ∃ whole ∈ declared, Text.isDottedIdentifier whole = false ∧ name ∈ enclosing whole

theorem stemsFrom_of_mem_enclosing
    {declared : List Text}
    (member : name ∈ declared)
    (encloses : outer ∈ enclosing name) :
    StemsFrom declared outer := by
  cases isDotted : Text.isDottedIdentifier name with
  | true => exact .inl (isDottedIdentifier_of_mem_enclosing isDotted encloses)
  | false => exact .inr ⟨name, member, isDotted, encloses⟩

/-- A scope whose names stem from dotted identifiers is well-formed. -/
theorem Holds.isWellFormed
    {declared : List Text}
    (holds : scope.Holds (StemsFrom declared))
    (proper : ∀ name ∈ declared, Text.isDottedIdentifier name = true) :
    scope.IsWellFormed := by
  have dotted (name : Text) (stems : StemsFrom declared name) :
      Text.isDottedIdentifier name = true := by
    rcases stems with isDotted | ⟨whole, member, malformed, -⟩
    · exact isDotted
    · cases malformed.symm.trans (proper whole member)
  exact ⟨fun name member => .inr (dotted name (holds.namespaces name member)),
    fun entry member => dotted entry.2 (holds.aliases entry member)⟩

end Scope

namespace SourceFile

/-- The names that the declarations of a file bring into scope unchecked; the namespaces of
Visual Basic lie in the root namespace. -/
def declaredNames (source : SourceFile) (rootNamespace : Text) : List Text :=
  match source.kind with
  | .code .csharp =>
      (Text.readLines CSharp.usingAlias? source.content).map Prod.snd ++
        Text.readLines CSharp.usingTarget? source.content ++
        Text.readLines CSharp.namespaceName? source.content
  | .code .visualBasic =>
      ((Text.readLines VisualBasic.namespaceName? source.content).map
        (VisualBasic.absoluteName (Text.trim rootNamespace))).filter (· ≠ [])
  | .markup page => page.imports

/-- What is in the scope of a file stems from the declarations of the file. -/
theorem holds_scope
    (source : SourceFile)
    {rootNamespace : Text}
    (properRoot : rootNamespace = [] ∨ Text.isDottedIdentifier rootNamespace = true) :
    (source.scope rootNamespace).Holds (Scope.StemsFrom (source.declaredNames rootNamespace)) := by
  have root (declared : List Text) :
      ∀ outer ∈ Scope.enclosing rootNamespace, outer ≠ [] → Scope.StemsFrom declared outer := by
    intro outer encloses nonempty
    rcases properRoot with rfl | isDotted
    · exact absurd (Scope.eq_nil_of_mem_enclosing_nil encloses) nonempty
    · exact .inl (Scope.isDottedIdentifier_of_mem_enclosing isDotted encloses)
  have trimmed : Text.trim rootNamespace = rootNamespace := by
    rcases properRoot with rfl | isDotted
    · rfl
    · exact Text.trim_of_isDottedIdentifier isDotted
  unfold scope declaredNames
  cases source.kind with
  | code language =>
      cases language with
      | csharp =>
          apply Scope.holds_scopeOf_csharp
          · intro entry member
            have declared := List.mem_map_of_mem (f := Prod.snd) member
            exact Scope.stemsFrom_of_mem_enclosing (by simp [declared]) Scope.mem_enclosing_self
          · intro name member
            exact Scope.stemsFrom_of_mem_enclosing (by simp [member]) Scope.mem_enclosing_self
          · intro name member outer encloses
            exact Scope.stemsFrom_of_mem_enclosing (by simp [member]) encloses
      | visualBasic =>
          apply Scope.holds_scopeOf_visualBasic
          · exact fun name => .inl
          · intro name member outer encloses nonempty
            refine Scope.stemsFrom_of_mem_enclosing (List.mem_filter.mpr ⟨?_, ?_⟩) encloses
            · exact List.mem_map_of_mem member
            · rw [decide_eq_true_iff]
              intro isNil
              rw [isNil] at encloses
              exact nonempty (Scope.eq_nil_of_mem_enclosing_nil encloses)
          · rw [trimmed]
            exact root _
  | markup page =>
      refine Scope.Holds.addEnclosing (List.foldlRecOn _ _ (Scope.holds_empty _) ?_) (root _)
      intro scope holds name member
      exact holds.addNamespace fun _ =>
        Scope.stemsFrom_of_mem_enclosing member Scope.mem_enclosing_self

/-- A file can be searched for references if every name that it declares is a dotted
identifier.  A search that fails has come to a malformed name, which is or encloses a declared
name that is malformed. -/
theorem references_of_declaredNames
    (path content : Text)
    (generated : Bool)
    (source : SourceFile)
    (rootNamespace : Text)
    (trie : Trie)
    (preferred? : Option Origin)
    (opened : ofContent? path content generated = some source)
    (properRoot : rootNamespace = [] ∨ Text.isDottedIdentifier rootNamespace = true) :
    ((∀ name ∈ source.declaredNames rootNamespace, Text.isDottedIdentifier name = true) →
      (source.scope rootNamespace).IsWellFormed ∧
        ∃ items, source.references trie rootNamespace preferred? = .ok items) ∧
      ∀ failure, source.references trie rootNamespace preferred? = .error failure →
        ∃ error, failure = .scope error ∧ Text.isDottedIdentifier error.name = false ∧
          ∃ declared ∈ source.declaredNames rootNamespace,
            Text.isDottedIdentifier declared = false ∧
              error.name ∈ Scope.enclosing declared := by
  have holds := source.holds_scope properRoot
  have failsOnly := failsOnly_references opened trie rootNamespace preferred?
  constructor
  · intro proper
    have wellFormed := holds.isWellFormed proper
    refine ⟨wellFormed, failsOnly.exists_eq_ok ?_⟩
    rintro failure ⟨error, -, rejects⟩
    exact wellFormed.not_rejects error rejects
  · intro failure failed
    rw [failed] at failsOnly
    cases failsOnly with
    | error isExpected =>
        obtain ⟨error, rfl, rejects⟩ := isExpected
        have malformed := rejects.isDottedIdentifier_name
        refine ⟨error, rfl, malformed, ?_⟩
        rcases holds.property_of_rejects rejects with isDotted | stems
        · cases malformed.symm.trans isDotted
        · exact stems

/-- The same reference behind a `using` declaration of a proper name and of a malformed one. -/
theorem references_of_declaredNames_using :
    let trie := Trie.ofList [⟨['K'], ['V'], ⟨[], ['R'], none, []⟩⟩]
    ∃ proper malformed,
      ofContent? "a.cs".toList "using System;\ns = R.K;".toList false = some proper ∧
        ofContent? "a.cs".toList "using System.;\ns = R.K;".toList false = some malformed ∧
        (∃ items, proper.references trie [] none = .ok items) ∧
        ∃ error, malformed.references trie [] none = .error (.scope error) ∧
          ∃ declared ∈ malformed.declaredNames [],
            Text.isDottedIdentifier declared = false ∧
              error.name ∈ Scope.enclosing declared := by
  intro trie
  have failed :
      references
          ⟨"a.cs".toList, "using System.;\ns = R.K;".toList, false, .code .csharp⟩ trie [] none =
        .error (.scope (.malformedNamespace "System.".toList)) := by
    decide +kernel
  obtain ⟨succeeds, -⟩ :=
    references_of_declaredNames "a.cs".toList "using System;\ns = R.K;".toList false _ [] trie none
      rfl (.inl rfl)
  obtain ⟨-, fails⟩ :=
    references_of_declaredNames "a.cs".toList "using System.;\ns = R.K;".toList false _ [] trie
      none rfl (.inl rfl)
  obtain ⟨error, same, -, stems⟩ := fails _ failed
  cases same
  exact ⟨_, _, rfl, rfl, (succeeds (by decide +kernel)).2, _, failed, stems⟩

/-- A `using` declaration with a dot too many makes the search of its file fail; the same slip
in an `Imports` declaration is passed over. -/
theorem references_malformed_using :
    let trie := Trie.ofList [⟨['K'], ['V'], ⟨[], ['R'], none, []⟩⟩]
    (ofContent? "a.cs".toList "using System.;\ns = R.K;".toList false).map
        (fun source => source.references trie [] none) =
      some (.error (.scope (.malformedNamespace "System.".toList))) ∧
    (ofContent? "a.vb".toList "Imports System.\ns = R.K".toList false).map
        (fun source => source.references trie [] none) =
      some (.ok
        [⟨"R.K".toList, "R.K".toList, ['K'], ['V'], ⟨[], ['R'], none, []⟩,
          ⟨⟨2, 5, 20⟩, ⟨2, 8, 23⟩⟩, .none⟩]) := by
  decide +kernel

end SourceFile

end LocalizationScan
