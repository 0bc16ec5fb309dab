import LocalizationScan.Reference.Dotted
import LocalizationScan.Scope

namespace LocalizationScan

/-!
# Resolving references

A reference is resolved against the entries that its path leads to.  Its
qualifier is tried as an alias, then as a namespace, then as the tail of a
namespace in scope; without one the class is looked up in the namespaces in
scope.  What does not lead to exactly one namespace is no reference.
-/

/-- What the resolution of every reference of a scan depends on. -/
structure ResolveContext where
  trie : Trie
  scope : Scope
  /-- The container whose entry wins among entries of one namespace. -/
  preferred? : Option Origin
  deriving Repr, DecidableEq

/-- The entry to show among those of one namespace: that of the preferred container,
else the first culture-neutral one, else the first one. -/
def choose (preferred? : Option Origin) (entries : List Entry) : Option Entry :=
  (preferred?.bind fun preferred => entries.find? fun entry => entry.origin = preferred).or
    ((entries.find? fun entry => !entry.origin.isCultureSpecific).or entries.head?)

namespace ResolveContext

/-- Choose among the candidates that are declared in a namespace. -/
def pick (context : ResolveContext) (candidates : List Entry) (name : Text) : Option Entry :=
  choose context.preferred? (candidates.filter fun entry => entry.origin.scope = name)

/-- The entry that a reference stands for, among the candidates on its path. -/
def resolve
    (context : ResolveContext)
    (reference : DottedReference)
    (candidates : List Entry) :
    Except ScopeError (Option Entry) :=
  match reference.qualifier? with
  | none => do
      let found ← context.scope.resolveType reference.className context.trie
      return found.bind (context.pick candidates)
  | some qualifier => do
      match ← context.scope.resolveAlias qualifier with
      | some target => return context.pick candidates target
      | none =>
          match context.pick candidates qualifier with
          | some entry => return some entry
          | none =>
              let partialName := qualifier ++ '.' :: reference.className
              let found ← context.scope.resolveType partialName context.trie
              return found.bind fun name => context.pick candidates (qualify name qualifier)

end ResolveContext

end LocalizationScan
