import Mathlib.Data.List.Nodup
import LocalizationScan.Proofs.Declaration.CSharpLines

namespace LocalizationScan

/-!
# Scopes of written declarations

The scope of a C# file is what its declarations say, whatever stands on the
other lines: first the imported namespaces in order, then the declared ones with
those around them, each where it comes in first, and for every alias the target
that is declared last.
-/

namespace Scope

variable {scope : Scope} {names : List Text} {shortName : Text}

/-- Namespaces come into a scope where they are named first. -/
theorem namespaces_foldl_addNamespace
    (bare : scope.namespaces = [])
    (named : [] ∉ names) :
    (names.foldl addNamespace scope).namespaces = names.eraseDups := by
  induction names using List.reverseRecOn with
  | nil => exact bare
  | append_singleton names name inductionHypothesis =>
      obtain ⟨namedBefore, nonempty⟩ := not_or.mp (mt List.mem_append.mpr named)
      have known := inductionHypothesis namedBefore
      have filled : name.isEmpty = false := by
        cases name with
        | nil => exact absurd List.mem_cons_self nonempty
        | cons => rfl
      rw [List.foldl_concat, List.eraseDups_append, addNamespace, known, filled, Bool.false_or]
      by_cases member : name ∈ names
      · simp [member, known, List.removeAll]
      · simp [member, List.removeAll, List.eraseDups_cons]

theorem aliases_foldl_addNamespace (names : List Text) :
    (names.foldl addNamespace scope).aliases = scope.aliases := by
  induction names generalizing scope with
  | nil => rfl
  | cons name names inductionHypothesis =>
      rw [List.foldl_cons, inductionHypothesis, addNamespace]
      split <;> rfl

/-- Entering namespaces brings in those around each of them. -/
theorem foldl_addEnclosing (names : List Text) :
    names.foldl addEnclosing scope = (names.flatMap enclosing).foldl addNamespace scope :=
  List.foldl_flatMap.symm

theorem lookup_filter_ne
    (entries : List (Text × Text))
    (removed : Text) :
    (entries.filter fun entry => entry.1 ≠ removed).lookup shortName =
      if shortName = removed then none else entries.lookup shortName := by
  induction entries with
  | nil => simp
  | cons entry entries inductionHypothesis =>
      obtain ⟨key, target⟩ := entry
      by_cases isRemoved : key = removed
      · rw [List.filter_cons_of_neg (by simpa using isRemoved), inductionHypothesis]
        split
        · rfl
        · next differs =>
            rw [List.lookup_cons, beq_false_of_ne (isRemoved ▸ differs)]
      · rw [List.filter_cons_of_pos (by simpa using isRemoved), List.lookup_cons, List.lookup_cons,
          inductionHypothesis]
        by_cases same : shortName = key
        · simp [same, isRemoved]
        · rw [beq_false_of_ne same]

theorem namespaces_foldl_addAlias (entries : List (Text × Text)) :
    (entries.foldl (fun scope entry => scope.addAlias entry.1 entry.2) scope).namespaces =
      scope.namespaces := by
  induction entries generalizing scope with
  | nil => rfl
  | cons entry entries inductionHypothesis => exact inductionHypothesis

/-- Of several targets of an alias the last one counts. -/
theorem lookup_foldl_addAlias (entries : List (Text × Text)) :
    (entries.foldl (fun scope entry => scope.addAlias entry.1 entry.2) empty).aliases.lookup
        shortName =
      entries.reverse.lookup shortName := by
  induction entries using List.reverseRecOn with
  | nil => rfl
  | append_singleton entries entry inductionHypothesis =>
      rw [List.foldl_concat, List.reverse_concat, addAlias, List.lookup_append, lookup_filter_ne,
        inductionHypothesis, List.lookup_cons, List.lookup_cons]
      by_cases same : shortName = entry.1
      · simp [same]
      · simp [same, beq_false_of_ne same]

/-- A scope lists each alias once. -/
theorem nodup_foldl_addAlias (entries : List (Text × Text)) :
    ((entries.foldl (fun scope entry => scope.addAlias entry.1 entry.2) empty).aliases.map
      Prod.fst).Nodup := by
  induction entries using List.reverseRecOn with
  | nil => exact List.nodup_nil
  | append_singleton entries entry distinct =>
      rw [List.foldl_concat, addAlias, List.map_append, List.nodup_append]
      refine ⟨distinct.sublist (List.filter_sublist.map Prod.fst), List.nodup_singleton _, ?_⟩
      rintro key member other isOther rfl
      obtain ⟨kept, inFilter, rfl⟩ := List.mem_map.mp member
      have differs := (List.mem_filter.mp inFilter).2
      exact of_decide_eq_true differs (List.mem_singleton.mp isOther)

end Scope

namespace CSharp

/-- The namespaces around a name are said by its identifiers. -/
theorem DottedName.enclosing_text (name : DottedName) :
    Scope.enclosing name.text = name.enclosing := by
  obtain ⟨identifiers, nonempty⟩ := name
  induction identifiers using List.reverseRecOn with
  | nil => exact absurd rfl nonempty
  | append_singleton identifiers last inductionHypothesis =>
      have inits :
          (identifiers ++ [last]).inits.tail.reverse =
            (identifiers ++ [last]) :: identifiers.inits.tail.reverse := by
        rw [List.inits_append]
        cases identifiers <;> simp
      rw [enclosing, inits, List.map_cons, Scope.enclosing]
      by_cases alone : identifiers = []
      · subst alone
        have whole : Text.splitLast? '.' last.text = none :=
          Text.splitLast?_of_not_mem last.dot_not_mem
        split
        · rfl
        · next found => cases whole.symm.trans found
      · have cut :
            Text.splitLast? '.' (text ⟨identifiers ++ [last], nonempty⟩) =
              some (text ⟨identifiers, alone⟩, last.text) := by
          rw [text, List.map_append]
          exact Text.splitLast?_joinWith (by simpa using alone) last.dot_not_mem
        split
        · next whole => cases cut.symm.trans whole
        · next outer _ found =>
            cases cut.symm.trans found
            exact congrArg _ (inductionHypothesis alone)

theorem DottedName.nil_not_mem_enclosing (name : DottedName) :
    [] ∉ name.enclosing := by
  intro member
  obtain ⟨outer, isOuter, isNil⟩ := List.mem_map.mp member
  have nonempty : outer ≠ [] := by
    obtain ⟨identifiers, nonempty⟩ := name
    cases identifiers with
    | nil => exact absurd rfl nonempty
    | cons first others =>
        rw [List.mem_reverse, List.inits_cons, List.tail_cons] at isOuter
        obtain ⟨_, -, rfl⟩ := List.mem_map.mp isOuter
        exact List.cons_ne_nil _ _
  exact DottedName.ne_nil ⟨outer, nonempty⟩ isNil

/-- Declarations are read back from their lines: imported namespaces come before declared ones
and those around them, each once, and the last target of an alias counts.  The root namespace
has no part in it. -/
theorem scope_printLines (lines : List Line) (rootNamespace : Text) :
    let scope := Scope.ofCode .csharp (printLines lines) rootNamespace
    scope.namespaces =
        (lines.filterMap Line.imported? ++
          (lines.filterMap Line.entered?).flatMap DottedName.enclosing).eraseDups ∧
      (scope.aliases.map Prod.fst).Nodup ∧
      ∀ shortName,
        scope.aliases.lookup shortName =
          (lines.filterMap Line.aliased?).reverse.lookup shortName := by
  intro scope
  have aliased := readLines_printLines shortens_usingAlias? Line.readsLine_usingAlias? lines
  have imported := readLines_printLines shortens_usingTarget? Line.readsLine_usingTarget? lines
  have entered := readLines_printLines shortens_namespaceName? Line.readsLine_namespaceName? lines
  let bare :=
    (lines.filterMap Line.aliased?).foldl (fun scope entry => scope.addAlias entry.1 entry.2)
      Scope.empty
  let names :=
    lines.filterMap Line.imported? ++
      (lines.filterMap Line.entered?).flatMap DottedName.enclosing
  have isScope : scope = names.foldl Scope.addNamespace bare := by
    have around :
        (lines.filterMap fun line => line.entered?.map DottedName.text).flatMap Scope.enclosing =
          (lines.filterMap Line.entered?).flatMap DottedName.enclosing := by
      rw [← List.map_filterMap, List.flatMap_map]
      exact congrArg (List.flatMap · _) (funext DottedName.enclosing_text)
    rw [List.foldl_append, ← around, ← Scope.foldl_addEnclosing, ← entered, ← imported]
    simp only [bare, ← aliased]
    rfl
  refine ⟨?_, ?_, fun shortName => ?_⟩
  · rw [isScope, Scope.namespaces_foldl_addNamespace (Scope.namespaces_foldl_addAlias _)]
    intro isNil
    rcases List.mem_append.mp isNil with isImported | isEntered
    · obtain ⟨line, -, isName⟩ := List.mem_filterMap.mp isImported
      cases line with
      | imported word target => exact target.name.ne_nil (Option.some.inj isName)
      | _ => cases isName
    · obtain ⟨name, -, isOuter⟩ := List.mem_flatMap.mp isEntered
      exact name.nil_not_mem_enclosing isOuter
  · rw [isScope, Scope.aliases_foldl_addNamespace]
    exact Scope.nodup_foldl_addAlias _
  · rw [isScope, Scope.aliases_foldl_addNamespace]
    exact Scope.lookup_foldl_addAlias _

/-- An alias behind a blank line and a namespace with a brace behind it. -/
example :
    let blanks : Blanks := ⟨[' '], Text.forall_mem_of_all (by decide), by decide⟩
    let gap : Gap := ⟨blanks, by decide⟩
    let first : Identifier := ⟨['A'], by decide, Text.forall_mem_of_all (by decide)⟩
    let second : Identifier := ⟨['B'], by decide, Text.forall_mem_of_all (by decide)⟩
    let target : Target := ⟨true, ⟨[first, second], by decide⟩, ⟨[], nofun, nofun⟩, ⟨[], nofun⟩⟩
    let lines : List Line :=
      [.other [] nofun (by decide), .aliased ⟨blanks, none, gap⟩ second blanks blanks target,
        .entered ⟨[], nofun, nofun⟩ gap ⟨[first], by decide⟩ ⟨[' ', '\x7b'], by decide⟩
          (by rintro char ⟨⟩; decide)]
    printLines lines = "\n using B = global::A.B;\nnamespace A \x7b".toList := by
  decide

end CSharp

end LocalizationScan
