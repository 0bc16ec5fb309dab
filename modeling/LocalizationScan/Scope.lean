import LocalizationScan.Trie

namespace LocalizationScan

/-!
# Namespace scopes

The namespaces and aliases that the code of a file can use.  The global
namespace is always among them.  Names are checked when a lookup needs them.
-/

/-- Namespaces in order of declaration, and what each alias stands for. -/
structure Scope where
  namespaces : List Text
  /-- Aliases with their targets, each alias once. -/
  aliases : List (Text × Text)
  deriving Repr, DecidableEq

/-- Why a scope cannot be used for a lookup. -/
inductive ScopeError where
  /-- The target of an alias is no dotted identifier. -/
  | malformedAlias (shortName target : Text)
  /-- A namespace is no dotted identifier. -/
  | malformedNamespace (name : Text)
  deriving Repr, DecidableEq

/-- The wording of a scope error. -/
def ScopeError.message : ScopeError → Text
  | .malformedAlias shortName target =>
      "alias '".toList ++ shortName ++ "' maps to malformed namespace '".toList ++ target ++ ['\'']
  | .malformedNamespace name =>
      "malformed namespace '".toList ++ name ++ "' in scope".toList

namespace Scope

/-- The scope without declarations. -/
def empty : Scope := ⟨[], []⟩

/-- Bring a namespace into scope; the global one and repetitions change nothing. -/
def addNamespace (scope : Scope) (name : Text) : Scope :=
  if name.isEmpty || scope.namespaces.contains name then scope
  else { scope with namespaces := scope.namespaces ++ [name] }

/-- A namespace and the namespaces around it, from the inside out. -/
def enclosing (name : Text) : List Text :=
  match _ : Text.splitLast? '.' name with
  | none => [name]
  | some (outer, _) => name :: enclosing outer
termination_by name.length
decreasing_by exact Text.length_splitLast?_lt ‹_›

/-- Enter a namespace declaration, which brings the namespaces around it into scope too. -/
def addEnclosing (scope : Scope) (name : Text) : Scope :=
  (enclosing name).foldl addNamespace scope

/-- Let an alias stand for a target; the last declaration of an alias counts. -/
def addAlias (scope : Scope) (shortName target : Text) : Scope :=
  { scope with
    aliases := scope.aliases.filter (fun entry => entry.1 ≠ shortName) ++ [(shortName, target)] }

/-- The namespace that an alias stands for, if the name is one. -/
def resolveAlias (scope : Scope) (name : Text) : Except ScopeError (Option Text) :=
  match scope.aliases.lookup name with
  | none => .ok none
  | some target =>
      if Text.isDottedIdentifier target then .ok (some target)
      else .error (.malformedAlias name target)

/-- Look through namespaces in order for those that declare a class, given the one found
so far: a second one makes the name ambiguous. -/
def searchType
    (trie : Trie)
    (name : Text) :
    Option Text → List Text → Except ScopeError (Option Text)
  | found, [] => .ok found
  | found, candidate :: candidates =>
      if !candidate.isEmpty && !Text.isDottedIdentifier candidate then
        .error (.malformedNamespace candidate)
      else if trie.containsClass (qualify candidate name) then
        match found with
        | none => searchType trie name (some candidate) candidates
        | some earlier =>
            if earlier = candidate then searchType trie name found candidates
            else .ok none
      else
        searchType trie name found candidates

/-- The only namespace in scope in which a name is that of a resource class. -/
def resolveType (scope : Scope) (name : Text) (trie : Trie) : Except ScopeError (Option Text) :=
  searchType trie name none ([] :: scope.namespaces)

end Scope

end LocalizationScan
