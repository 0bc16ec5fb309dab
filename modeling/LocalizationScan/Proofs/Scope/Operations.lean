import LocalizationScan.Proofs.DeclaredNames
import LocalizationScan.Proofs.Reference.OwnNames

namespace LocalizationScan

/-!
# Scopes as sets of namespaces

A scope lists each of its namespaces once, in the order in which they have come
in.  The order decides whether a lookup comes to a malformed name, and to which.
Among dotted identifiers it decides nothing, so scopes into which the same
namespaces have come resolve every name to the same namespace.
-/

namespace Scope

/-- What brings namespaces or an alias into a scope. -/
inductive Operation where
  | imported (name : Text)
  /-- The declaration of a namespace, with those around it. -/
  | entered (name : Text)
  | aliased (shortName target : Text)
  deriving Repr, DecidableEq

def perform (scope : Scope) : Operation → Scope
  | .imported name => scope.addNamespace name
  | .entered name => scope.addEnclosing name
  | .aliased shortName target => scope.addAlias shortName target

/-- The scope after some operations, in order. -/
def ofOperations (operations : List Operation) : Scope :=
  operations.foldl perform .empty

/-- Whether a text is another one, or stands before one of its dots. -/
def IsDottedPrefix (outer name : Text) : Prop :=
  outer = name ∨ ∃ rest, name = outer ++ '.' :: rest

/-- Whether an operation is about a namespace of this name. -/
def Operation.Adds : Operation → Text → Prop
  | .imported name, added => added = name
  | .entered name, added => IsDottedPrefix added name
  | .aliased _ _, _ => False

/-- Whether a name is that of a class in this namespace in scope and in no other one. -/
structure IsSoleHome (scope : Scope) (trie : Trie) (name result : Text) : Prop where
  inScope : result ∈ [] :: scope.namespaces
  declares : trie.containsClass (qualify result name) = true
  sole :
    ∀ other ∈ [] :: scope.namespaces,
      trie.containsClass (qualify other name) = true → other = result

/-- A list of namespaces without the global one and without repetitions. -/
structure IsSet (scope : Scope) : Prop where
  nodup : scope.namespaces.Nodup
  nil_not_mem : [] ∉ scope.namespaces

section Operations

variable {scope : Scope} {name added : Text}

theorem isDottedPrefix_append_iff
    {outer last : Text}
    (dotFree : '.' ∉ last) :
    IsDottedPrefix added (outer ++ '.' :: last) ↔
      added = outer ++ '.' :: last ∨ IsDottedPrefix added outer := by
  refine or_congr_right ⟨?_, ?_⟩
  · rintro ⟨rest, same⟩
    rcases List.append_eq_append_iff.mp same with ⟨between, rfl, tail⟩ | ⟨between, rfl, tail⟩
    · -- The dot after `added` would stand in the last segment.
      cases between with
      | nil => exact .inl (List.append_nil outer)
      | cons _ between =>
          rw [List.cons_append, List.cons.injEq] at tail
          exact absurd (tail.2 ▸ List.mem_append_right _ List.mem_cons_self) dotFree
    · cases between with
      | nil => exact .inl (List.append_nil added).symm
      | cons _ between =>
          rw [List.cons_append, List.cons.injEq] at tail
          exact .inr ⟨between, by rw [tail.1]⟩
  · rintro (rfl | ⟨rest, rfl⟩)
    · exact ⟨last, rfl⟩
    · exact ⟨rest ++ '.' :: last, by simp⟩

/-- The namespaces around a name are what stands before its dots. -/
theorem mem_enclosing_iff_isDottedPrefix :
    added ∈ enclosing name ↔ IsDottedPrefix added name := by
  induction name using enclosing.induct with
  | case1 name whole =>
      have dotFree := Text.not_mem_of_splitLast?_eq_none whole
      have alone : ¬∃ rest, name = added ++ '.' :: rest := by
        rintro ⟨rest, rfl⟩
        exact dotFree (List.mem_append_right _ List.mem_cons_self)
      rw [mem_enclosing_iff, IsDottedPrefix]
      simp [whole, alone]
  | case2 name outer last cut inductionHypothesis =>
      obtain rfl := Text.eq_append_of_splitLast? cut
      rw [mem_enclosing_iff, isDottedPrefix_append_iff (Text.not_mem_of_splitLast? cut)]
      simp [cut, inductionHypothesis]

theorem mem_addNamespace_iff :
    added ∈ (scope.addNamespace name).namespaces ↔
      added ∈ scope.namespaces ∨ added ≠ [] ∧ added = name := by
  unfold addNamespace
  split
  · next known =>
      rw [Bool.or_eq_true, List.isEmpty_iff, List.contains_iff_mem] at known
      refine ⟨.inl, ?_⟩
      rintro (member | ⟨nonempty, rfl⟩)
      · exact member
      · exact known.resolve_left nonempty
  · next isNew =>
      rw [Bool.or_eq_true, List.isEmpty_iff, not_or] at isNew
      rw [List.mem_append, List.mem_singleton]
      refine or_congr_right ⟨?_, And.right⟩
      rintro rfl
      exact ⟨isNew.1, rfl⟩

theorem IsSet.addNamespace
    (isSet : scope.IsSet)
    (name : Text) :
    (scope.addNamespace name).IsSet := by
  refine ⟨?_, fun member => ?_⟩
  · unfold Scope.addNamespace
    split
    · exact isSet.nodup
    · next isNew =>
        rw [Bool.or_eq_true, List.contains_iff_mem, not_or] at isNew
        refine List.nodup_append.mpr ⟨isSet.nodup, List.nodup_singleton _, ?_⟩
        rintro known member _ here rfl
        exact isNew.2 (List.mem_singleton.mp here ▸ member)
  · rcases mem_addNamespace_iff.mp member with member | ⟨nonempty, -⟩
    · exact isSet.nil_not_mem member
    · exact nonempty rfl

theorem mem_foldl_addNamespace_iff
    {names : List Text} :
    added ∈ (names.foldl Scope.addNamespace scope).namespaces ↔
      added ∈ scope.namespaces ∨ added ≠ [] ∧ added ∈ names := by
  induction names generalizing scope with
  | nil =>
      simp
  | cons name names inductionHypothesis =>
      rw [List.foldl_cons, inductionHypothesis, mem_addNamespace_iff, List.mem_cons, or_assoc,
        and_or_left]

/-- An operation brings in what it is about, the global namespace apart. -/
theorem mem_perform_iff
    {operation : Operation} :
    added ∈ (scope.perform operation).namespaces ↔
      added ∈ scope.namespaces ∨ added ≠ [] ∧ operation.Adds added := by
  cases operation with
  | imported name => exact mem_addNamespace_iff
  | entered name =>
      exact mem_foldl_addNamespace_iff.trans
        (or_congr_right (and_congr_right fun _ => mem_enclosing_iff_isDottedPrefix))
  | aliased shortName target => simp [perform, addAlias, Operation.Adds]

theorem IsSet.perform
    (isSet : scope.IsSet)
    (operation : Operation) :
    (scope.perform operation).IsSet := by
  cases operation with
  | imported name => exact isSet.addNamespace name
  | entered name =>
      exact List.foldlRecOn _ _ isSet fun _ isSet outer _ => isSet.addNamespace outer
  | aliased shortName target => exact ⟨isSet.nodup, isSet.nil_not_mem⟩

theorem isSet_ofOperations (operations : List Operation) :
    (ofOperations operations).IsSet :=
  List.foldlRecOn _ _ ⟨List.nodup_nil, nofun⟩ fun _ isSet operation _ => isSet.perform operation

theorem mem_ofOperations_iff
    {operations : List Operation} :
    added ∈ (ofOperations operations).namespaces ↔
      added ≠ [] ∧ ∃ operation ∈ operations, operation.Adds added := by
  unfold ofOperations
  induction operations using List.reverseRecOn with
  | nil =>
      simp [empty]
  | append_singleton operations operation inductionHypothesis =>
      rw [List.foldl_append, List.foldl_cons, List.foldl_nil, mem_perform_iff,
        inductionHypothesis, ← and_or_left]
      simp only [List.mem_append, List.mem_singleton, or_and_right, exists_or, exists_eq_left]

end Operations

section Lookup

variable {scope : Scope} {trie : Trie} {name : Text}
  (dotted : ∀ outer ∈ scope.namespaces, Text.isDottedIdentifier outer = true)
include dotted

theorem proper_of_dotted :
    ∀ outer ∈ [] :: scope.namespaces, outer = [] ∨ Text.isDottedIdentifier outer = true :=
  List.forall_mem_cons.mpr ⟨.inl rfl, fun outer member => .inr (dotted outer member)⟩

theorem resolveType_eq_some_iff
    {result : Text} :
    scope.resolveType name trie = .ok (some result) ↔ scope.IsSoleHome trie name result := by
  constructor
  · intro resolved
    obtain ⟨first, sole⟩ := unique_of_searchType resolved
    obtain ⟨-, member, declares⟩ := first.resolve_left nofun
    exact ⟨member, declares, sole⟩
  · intro home
    exact searchType_eq_ok_of_unique (proper_of_dotted dotted) home.sole
      (.inr ⟨rfl, home.inScope, home.declares⟩)

theorem resolveType_eq_none_iff :
    scope.resolveType name trie = .ok none ↔ ∀ result, ¬scope.IsSoleHome trie name result := by
  obtain ⟨found, resolved⟩ := exists_searchType_eq_ok trie name none (proper_of_dotted dotted)
  rw [← resolveType] at resolved
  simp only [← resolveType_eq_some_iff dotted, resolved]
  cases found <;> simp

/-- Scopes with the same namespaces look a class up alike. -/
theorem resolveType_eq_of_mem_iff
    {other : Scope}
    (same : ∀ outer, outer ∈ other.namespaces ↔ outer ∈ scope.namespaces) :
    other.resolveType name trie = scope.resolveType name trie := by
  have dottedOther : ∀ outer ∈ other.namespaces, Text.isDottedIdentifier outer = true :=
    fun outer member => dotted outer ((same outer).mp member)
  have sameWithGlobal (outer : Text) :
      outer ∈ [] :: other.namespaces ↔ outer ∈ [] :: scope.namespaces := by
    rw [List.mem_cons, List.mem_cons, same]
  have home (result : Text) :
      other.IsSoleHome trie name result ↔ scope.IsSoleHome trie name result := by
    constructor
    · intro home
      exact ⟨(sameWithGlobal result).mp home.inScope, home.declares,
        fun outer member => home.sole outer ((sameWithGlobal outer).mpr member)⟩
    · intro home
      exact ⟨(sameWithGlobal result).mpr home.inScope, home.declares,
        fun outer member => home.sole outer ((sameWithGlobal outer).mp member)⟩
  obtain ⟨found, resolved⟩ := exists_searchType_eq_ok trie name none (proper_of_dotted dotted)
  rw [← resolveType] at resolved
  rw [resolved]
  cases found with
  | some result =>
      rw [resolveType_eq_some_iff dotted] at resolved
      exact (resolveType_eq_some_iff dottedOther).mpr ((home result).mpr resolved)
  | none =>
      rw [resolveType_eq_none_iff dotted] at resolved
      exact (resolveType_eq_none_iff dottedOther).mpr fun result isHome =>
        resolved result ((home result).mp isHome)

end Lookup

/-- Operations make a scope of the namespaces that they are about, and where these are dotted
identifiers nothing but their set decides what a name resolves to. -/
theorem resolveType_ofOperations (operations : List Operation) :
    let scope := ofOperations operations
    scope.namespaces.Nodup ∧
      [] ∉ scope.namespaces ∧
      (∀ name,
        name ∈ scope.namespaces ↔
          name ≠ [] ∧ ∃ operation ∈ operations, operation.Adds name) ∧
      ((∀ name ∈ scope.namespaces, Text.isDottedIdentifier name = true) →
        ∀ trie name,
          (∀ result,
            scope.resolveType name trie = .ok (some result) ↔
              scope.IsSoleHome trie name result) ∧
          (scope.resolveType name trie = .ok none ↔
            ∀ result, ¬scope.IsSoleHome trie name result) ∧
          ∀ others : List Operation,
            (∀ added, added ≠ [] →
              ((∃ operation ∈ others, operation.Adds added) ↔
                ∃ operation ∈ operations, operation.Adds added)) →
            (ofOperations others).resolveType name trie = scope.resolveType name trie) := by
  have isSet := isSet_ofOperations operations
  refine ⟨isSet.nodup, isSet.nil_not_mem, fun name => mem_ofOperations_iff, ?_⟩
  intro dotted trie name
  refine ⟨fun result => resolveType_eq_some_iff dotted, resolveType_eq_none_iff dotted, ?_⟩
  intro others same
  refine resolveType_eq_of_mem_iff dotted fun added => ?_
  rw [mem_ofOperations_iff, mem_ofOperations_iff]
  exact and_congr_right (same added)

/-- A namespace and the one around it come in by their declaration, or each by its name and
one of them twice. -/
theorem resolveType_ofOperations_nested :
    let entered := [Operation.entered "A.B".toList]
    let imported :=
      [Operation.imported ['A'], .aliased ['X'] ['Y'], .imported "A.B".toList, .imported ['A']]
    let trie := Trie.ofList [⟨['K'], ['V'], ⟨['A'], ['R'], none, "R.resx".toList⟩⟩]
    (∀ name ∈ (ofOperations entered).namespaces, Text.isDottedIdentifier name = true) ∧
      (ofOperations entered).IsSoleHome trie ['R'] ['A'] ∧
      (ofOperations imported).resolveType ['R'] trie = .ok (some ['A']) := by
  intro entered imported trie
  obtain ⟨-, -, -, resolution⟩ := resolveType_ofOperations entered
  have dotted :
      ∀ name ∈ (ofOperations entered).namespaces, Text.isDottedIdentifier name = true := by
    decide +kernel
  have same (added : Text) (_ : added ≠ []) :
      (∃ operation ∈ imported, operation.Adds added) ↔
        ∃ operation ∈ entered, operation.Adds added := by
    have around : enclosing "A.B".toList = ["A.B".toList, ['A']] := by
      decide +kernel
    simp only [imported, entered, List.mem_cons, List.not_mem_nil, or_false, exists_eq_or_imp,
      exists_eq_left, Operation.Adds, ← mem_enclosing_iff_isDottedPrefix, around]
    tauto
  have resolved : (ofOperations entered).resolveType ['R'] trie = .ok (some ['A']) := by
    decide +kernel
  obtain ⟨isSome, -, sameResult⟩ := resolution dotted trie ['R']
  exact ⟨dotted, (isSome _).mp resolved, (sameResult imported same).trans resolved⟩

end Scope

end LocalizationScan
