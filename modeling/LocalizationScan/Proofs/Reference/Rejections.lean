import LocalizationScan.Proofs.Reference.Completeness
import LocalizationScan.Proofs.SourceItems

namespace LocalizationScan

/-!
# Names that a scope rejects

The names in a scope are checked when a lookup comes to them, so a malformed
name is met by some reference or by none.  Every failure of a search of a file
is the rejection of a name that the scope of the file holds.
-/

/-- The name that an error complains about. -/
def ScopeError.name : ScopeError → Text
  | .malformedAlias _ target => target
  | .malformedNamespace name => name

/-- The errors that lookups in a scope can end with. -/
inductive Scope.Rejects (scope : Scope) : ScopeError → Prop where
  | malformedAlias
      {shortName target : Text}
      (declared : (shortName, target) ∈ scope.aliases)
      (malformed : Text.isDottedIdentifier target = false) :
      Rejects scope (.malformedAlias shortName target)
  | malformedNamespace
      {name : Text}
      (declared : name ∈ scope.namespaces)
      (nonempty : name ≠ [])
      (malformed : Text.isDottedIdentifier name = false) :
      Rejects scope (.malformedNamespace name)

namespace Scope

variable {scope : Scope} {error : ScopeError}

theorem Rejects.isDottedIdentifier_name
    (rejects : scope.Rejects error) :
    Text.isDottedIdentifier error.name = false := by
  cases rejects with
  | malformedAlias _ malformed | malformedNamespace _ _ malformed =>
      exact malformed

/-- A well-formed scope rejects nothing. -/
theorem IsWellFormed.not_rejects
    (wellFormed : scope.IsWellFormed)
    (error : ScopeError) :
    ¬scope.Rejects error := by
  intro rejects
  cases rejects with
  | malformedAlias declared malformed =>
      have isDotted := wellFormed.aliases _ declared
      simp [malformed] at isDotted
  | malformedNamespace declared nonempty malformed =>
      rcases wellFormed.namespaces _ declared with isGlobal | isDotted
      · exact nonempty isGlobal
      · simp [malformed] at isDotted

theorem failsOnly_resolveAlias (scope : Scope) (name : Text) :
    FailsOnly scope.Rejects (scope.resolveAlias name) := by
  unfold resolveAlias
  cases aliased : scope.aliases.lookup name with
  | none =>
      exact .ok none
  | some target =>
      dsimp only
      split
      · exact .ok _
      · next malformed =>
          obtain ⟨front, back, shape, -⟩ := List.lookup_eq_some_iff.mp aliased
          exact .error (.malformedAlias (by simp [shape]) (by simpa using malformed))

theorem failsOnly_searchType
    (trie : Trie)
    (name : Text)
    (found : Option Text)
    {candidates : List Text}
    (within : ∀ candidate ∈ candidates, candidate = [] ∨ candidate ∈ scope.namespaces) :
    FailsOnly scope.Rejects (searchType trie name found candidates) := by
  induction candidates generalizing found with
  | nil =>
      exact .ok found
  | cons candidate candidates inductionHypothesis =>
      obtain ⟨here, later⟩ := List.forall_mem_cons.mp within
      unfold searchType
      split
      · next malformed =>
          simp only [Bool.and_eq_true, Bool.not_eq_true', List.isEmpty_eq_false_iff] at malformed
          exact .error (.malformedNamespace (here.resolve_left malformed.1) malformed.1 malformed.2)
      · split
        · split
          · exact inductionHypothesis _ later
          · split
            · exact inductionHypothesis _ later
            · exact .ok none
        · exact inductionHypothesis _ later

theorem failsOnly_resolveType (scope : Scope) (name : Text) (trie : Trie) :
    FailsOnly scope.Rejects (scope.resolveType name trie) := by
  apply failsOnly_searchType
  exact List.forall_mem_cons.mpr ⟨.inl rfl, fun _ => .inr⟩

end Scope

section Search

variable {context : ResolveContext} {flags : ItemFlags}

theorem ResolveContext.failsOnly_resolve (dotted : DottedReference) (candidates : List Entry) :
    FailsOnly context.scope.Rejects (context.resolve dotted candidates) := by
  unfold resolve
  split
  · exact (context.scope.failsOnly_resolveType _ _).bind fun _ => .ok _
  · next qualifier _ =>
      apply (context.scope.failsOnly_resolveAlias qualifier).bind
      intro target?
      cases target? with
      | some target =>
          exact .ok _
      | none =>
          dsimp only
          split
          · exact .ok _
          · exact (context.scope.failsOnly_resolveType _ _).bind fun _ => .ok _

theorem Chain.failsOnly_next (chain : Chain) (event : Event) :
    FailsOnly context.scope.Rejects (chain.next context flags event) := by
  cases event with
  | code char position next? =>
      simp only [next, code]
      split
      · split
        · exact .ok _
        · refine FailsOnly.map ?_ _
          unfold resolved
          split
          · exact .ok none
          · split
            · exact .ok none
            · exact (context.failsOnly_resolve _ _).map _
      · split
        · exact .ok _
        · split <;> exact .ok _
  | _ =>
      exact .ok _

/-- A search along events fails only where a lookup in the scope does. -/
theorem failsOnly_referencesOfEvents (chain : Chain) (events : List Event) :
    FailsOnly context.scope.Rejects (referencesOfEvents context flags chain events) := by
  induction events generalizing chain with
  | nil =>
      exact .ok []
  | cons event events inductionHypothesis =>
      apply (chain.failsOnly_next event).bind
      rintro ⟨next, found⟩
      exact (inductionHypothesis next).bind fun _ => .ok _

/-- A search of a file fails only where the scope of the file rejects a name: its regions can
be scanned. -/
theorem SourceFile.failsOnly_references
    {path content : Text}
    {generated : Bool}
    {source : SourceFile}
    (opened : ofContent? path content generated = some source)
    (trie : Trie)
    (rootNamespace : Text)
    (preferred? : Option Origin) :
    FailsOnly
      (fun failure => ∃ error, failure = .scope error ∧ (source.scope rootNamespace).Rejects error)
      (source.references trie rootNamespace preferred?) := by
  refine FailsOnly.bind ?_ fun _ => .ok _
  apply FailsOnly.mapM
  intro region member
  rw [findReferences, asAnchor_of_mem_regions opened member]
  exact (failsOnly_referencesOfEvents _ _).mapError fun error rejects => ⟨error, rfl, rejects⟩

end Search

end LocalizationScan
