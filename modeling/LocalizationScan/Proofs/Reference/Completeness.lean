import LocalizationScan.Proofs.Reference.DottedText
import LocalizationScan.Proofs.Reference.Soundness

namespace LocalizationScan

/-!
# Completeness of qualified references

A chain with a qualifier may name an entry by its last two names.  It is
reported when the walk along the chain ends on a path of that entry.  The walk
follows one path at a time: a path of another entry that goes on where the
qualifier ends takes the walk away, and then nothing is reported.
-/

/-- Whether every lookup in a scope succeeds. -/
structure Scope.IsWellFormed (scope : Scope) : Prop where
  namespaces : ∀ name ∈ scope.namespaces, name = [] ∨ Text.isDottedIdentifier name = true
  aliases : ∀ declared ∈ scope.aliases, Text.isDottedIdentifier declared.2 = true

section Lookup

variable {trie : Trie} {scope : Scope} {name : Text}

/-- A search takes up a namespace with a proper name. -/
theorem Scope.searchType_cons
    {candidate : Text}
    (proper : candidate = [] ∨ Text.isDottedIdentifier candidate = true)
    (trie : Trie)
    (name : Text)
    (found : Option Text)
    (candidates : List Text) :
    searchType trie name found (candidate :: candidates) =
      if trie.containsClass (qualify candidate name) then
        match found with
        | none => searchType trie name (some candidate) candidates
        | some earlier =>
            if earlier = candidate then searchType trie name found candidates
            else .ok none
      else
        searchType trie name found candidates := by
  have accepted : (!candidate.isEmpty && !Text.isDottedIdentifier candidate) = false := by
    rcases proper with isGlobal | isDotted
    · simp [isGlobal]
    · simp [isDotted]
  conv => lhs; unfold searchType
  exact if_neg (by simp [accepted])

theorem Scope.exists_searchType_eq_ok
    (trie : Trie)
    (name : Text)
    (found : Option Text)
    {candidates : List Text}
    (proper : ∀ other ∈ candidates, other = [] ∨ Text.isDottedIdentifier other = true) :
    ∃ result, searchType trie name found candidates = .ok result := by
  induction candidates generalizing found with
  | nil =>
      exact ⟨found, rfl⟩
  | cons candidate candidates inductionHypothesis =>
      obtain ⟨here, later⟩ := List.forall_mem_cons.mp proper
      rw [searchType_cons here]
      split
      · split
        · exact inductionHypothesis _ later
        · split
          · exact inductionHypothesis _ later
          · exact ⟨none, rfl⟩
      · exact inductionHypothesis _ later

theorem Scope.IsWellFormed.exists_resolveType_eq_ok
    (wellFormed : scope.IsWellFormed)
    (name : Text)
    (trie : Trie) :
    ∃ result, scope.resolveType name trie = .ok result := by
  apply exists_searchType_eq_ok
  exact List.forall_mem_cons.mpr ⟨.inl rfl, wellFormed.namespaces⟩

theorem Scope.IsWellFormed.resolveAlias_eq_ok
    (wellFormed : scope.IsWellFormed)
    (name : Text) :
    scope.resolveAlias name = .ok (scope.aliases.lookup name) := by
  unfold resolveAlias
  cases aliased : scope.aliases.lookup name with
  | none =>
      rfl
  | some target =>
      obtain ⟨front, back, shape, -⟩ := List.lookup_eq_some_iff.mp aliased
      have isDotted : Text.isDottedIdentifier target = true :=
        wellFormed.aliases (name, target) (by simp [shape])
      simp [isDotted]

end Lookup

namespace ResolveContext

variable {context : ResolveContext} {candidates more : List Entry}

/-- A reference is resolved by trying namespaces in turn.  Those behind the first one hold
the names of the qualifier, which is the first one then. -/
theorem exists_places
    (wellFormed : context.scope.IsWellFormed)
    (dotted : DottedReference) :
    ∃ places : List Text,
      (∀ candidates,
        context.resolve dotted candidates = .ok (places.findSome? (context.pick candidates))) ∧
        ∀ qualifier, dotted.qualifier? = some qualifier →
          ∃ first others,
            places = first :: others ∧
              ∀ place ∈ others, first = qualifier ∧ ∃ outer, place = qualify outer qualifier := by
  obtain ⟨qualifier?, className, key⟩ := dotted
  cases qualifier? with
  | none =>
      obtain ⟨found, resolves⟩ :=
        wellFormed.exists_resolveType_eq_ok className context.trie
      refine ⟨found.toList, ?_, ?_⟩
      · intro candidates
        simp only [resolve, resolves]
        cases found with
        | none =>
            rfl
        | some name =>
            cases picked : context.pick candidates name <;>
              simp [bind, Except.bind, pure, Except.pure, picked]
      · intro qualifier same
        cases same
  | some qualifier =>
      cases aliased : context.scope.aliases.lookup qualifier with
      | some target =>
          refine ⟨[target], ?_, ?_⟩
          · intro candidates
            simp only [resolve, wellFormed.resolveAlias_eq_ok, aliased]
            cases picked : context.pick candidates target <;>
              simp [bind, Except.bind, pure, Except.pure, picked]
          · intro _ _
            refine ⟨target, [], rfl, ?_⟩
            intro place member
            cases member
      | none =>
          obtain ⟨found, resolves⟩ :=
            wellFormed.exists_resolveType_eq_ok (qualifier ++ '.' :: className) context.trie
          refine ⟨qualifier :: (found.map (qualify · qualifier)).toList, ?_, ?_⟩
          · intro candidates
            simp only [resolve, wellFormed.resolveAlias_eq_ok, aliased, resolves]
            cases here : context.pick candidates qualifier with
            | some entry =>
                simp [bind, Except.bind, pure, Except.pure, here]
            | none =>
                cases found with
                | none =>
                    simp [bind, Except.bind, pure, Except.pure, here]
                | some outer =>
                    cases picked : context.pick candidates (qualify outer qualifier) <;>
                      simp [bind, Except.bind, pure, Except.pure, here, picked]
          · intro other same
            cases same
            refine ⟨qualifier, _, rfl, ?_⟩
            intro place member
            obtain ⟨outer, -, shape⟩ := Option.map_eq_some_iff.mp (Option.mem_toList.mp member)
            exact ⟨rfl, outer, shape.symm⟩

/-- What is picked among some candidates is not missed among more of them. -/
theorem pick_ne_none_of_subset
    {name : Text}
    {entry : Entry}
    (picked : context.pick candidates name = some entry)
    (within : ∀ candidate ∈ candidates, candidate ∈ more) :
    context.pick more name ≠ none := by
  intro nothing
  obtain ⟨member, same⟩ := mem_of_pick picked
  exact scope_ne_of_pick_none nothing entry (within entry member) same

theorem pick_filter
    (candidates : List Entry)
    (place name : Text) :
    context.pick (candidates.filter fun entry => entry.origin.scope = place) name =
      if name = place then context.pick candidates name else none := by
  unfold pick
  rw [List.filter_filter]
  by_cases same : name = place
  · subst same
    simp
  · have nothing :
        (candidates.filter fun entry =>
          decide (entry.origin.scope = name) && decide (entry.origin.scope = place)) = [] := by
      rw [List.filter_eq_nil_iff]
      intro entry _ both
      simp only [Bool.and_eq_true, decide_eq_true_eq] at both
      exact same (both.1.symm.trans both.2)
    rw [nothing, if_neg same]
    cases context.preferred? <;> rfl

/-- Among the candidates of one namespace the places lead to the same entry if it lies there,
and nowhere otherwise. -/
theorem findSome?_pick_filter
    {place first : Text}
    {others : List Text}
    {entry : Entry}
    (nonempty : (candidates.filter fun entry => entry.origin.scope = place) ≠ [])
    (apart : place ∈ others → place = first)
    (resolved : (first :: others).findSome? (context.pick candidates) = some entry) :
    (first :: others).findSome?
        (context.pick (candidates.filter fun entry => entry.origin.scope = place)) =
      if entry.origin.scope = place then some entry else none := by
  obtain ⟨name, member, picked⟩ := List.exists_of_findSome?_eq_some resolved
  obtain ⟨-, scopeName⟩ := mem_of_pick picked
  by_cases here : first = place
  · subst here
    obtain ⟨other, memberOther⟩ := List.exists_mem_of_ne_nil _ nonempty
    obtain ⟨memberCandidates, sameScope⟩ := List.mem_filter.mp memberOther
    have found : context.pick candidates first ≠ none := by
      intro nothing
      exact scope_ne_of_pick_none nothing other memberCandidates (by simpa using sameScope)
    obtain ⟨chosen, chosenHere⟩ := Option.ne_none_iff_exists'.mp found
    have same : chosen = entry := by
      simpa [chosenHere] using resolved
    subst same
    simp [pick_filter, chosenHere, (mem_of_pick chosenHere).2]
  · have elsewhere : ∀ other ∈ first :: others, other ≠ place := by
      rintro other memberOther rfl
      rcases List.mem_cons.mp memberOther with same | later
      · exact here same.symm
      · exact here (apart later).symm
    have nothing :
        (first :: others).findSome?
            (context.pick (candidates.filter fun entry => entry.origin.scope = place)) =
          none := by
      rw [List.findSome?_eq_none_iff]
      intro other memberOther
      rw [pick_filter, if_neg (elsewhere other memberOther)]
    rw [nothing, scopeName, if_neg (elsewhere name member)]

/-- What names stand for when the last two of them are looked up as a path. -/
def resolveNames (context : ResolveContext) (names : List Text) :
    Except ScopeError (Option Entry) :=
  match DottedReference.ofText? (Text.joinWith ['.'] names) with
  | none => .ok none
  | some dotted =>
      context.resolve dotted
        (context.trie.entriesAt (Text.joinWith ['.'] [dotted.className, dotted.key]))

end ResolveContext

/-- Whether the walk along names ends on a path of an entry. -/
def WalksTo (entries : List Entry) (names : List Text) (entry : Entry) : Prop :=
  ∃ path ∈ entry.paths, names.foldl (advanceWalk (entries.flatMap Entry.paths)) none = some path

instance (entries : List Entry) (names : List Text) (entry : Entry) :
    Decidable (WalksTo entries names entry) :=
  inferInstanceAs (Decidable (∃ path ∈ entry.paths, _ = some path))

section Names

variable {entries : List Entry} {scope : Scope} {preferred? : Option Origin} {flags : ItemFlags}
  {segments : List Segment} {before front : List Text} {className key : Text}

theorem Text.joinWith_ne_nil
    {names : List Text}
    (nonempty : names ≠ [])
    (proper : ∀ name ∈ names, isIdentifierSegment name = true) :
    joinWith ['.'] names ≠ [] := by
  cases names with
  | nil =>
      exact absurd rfl nonempty
  | cons name names =>
      have nameNonempty := ne_nil_of_isIdentifierSegment (proper name List.mem_cons_self)
      cases names <;> simp [joinWith, nameNonempty]

theorem Text.length_joinWith_le_of_suffix
    (nonempty : front ≠ [])
    (suffix : front <:+ before) :
    (joinWith ['.'] front).length ≤ (joinWith ['.'] before).length := by
  obtain ⟨more, rfl⟩ := suffix
  cases more with
  | nil =>
      exact Nat.le_refl _
  | cons first others =>
      rw [joinWith_append ['.'] (by simp) nonempty, List.length_append]
      exact Nat.le_add_left _ _

theorem ofText?_names
    (proper : ∀ name ∈ before ++ [className, key], Text.isIdentifierSegment name = true) :
    DottedReference.ofText? (Text.joinWith ['.'] (before ++ [className, key])) =
      some ⟨if before = [] then none else some (Text.joinWith ['.'] before), className, key⟩ := by
  apply DottedReference.ofText?_joinWith
  intro name member
  exact ⟨Text.ne_nil_of_isIdentifierSegment (proper name member),
    Text.dot_not_mem_of_isIdentifierSegment (proper name member)⟩

/-- An entry has a path of some names when it has the path of the last two, and its namespace
has the others. -/
theorem joinWith_mem_paths_iff_of_ne_nil
    {entry : Entry}
    (dotFree : '.' ∉ entry.origin.className)
    (nonempty : front ≠ [])
    (proper : ∀ name ∈ front ++ [className, key], Text.isIdentifierSegment name = true) :
    Text.joinWith ['.'] (front ++ [className, key]) ∈ entry.paths ↔
      Text.joinWith ['.'] [className, key] ∈ entry.paths ∧
        entry.origin.scope = Text.joinWith ['.'] front := by
  have absent : ∀ name ∈ front ++ [className, key], '.' ∉ name := by
    intro name member
    exact Text.dot_not_mem_of_isIdentifierSegment (proper name member)
  have absentShort : ∀ name ∈ [] ++ [className, key], '.' ∉ name := by
    intro name member
    exact absent name (List.mem_append_right _ member)
  have qualified : Text.joinWith ['.'] front ≠ [] := by
    apply Text.joinWith_ne_nil nonempty
    intro name member
    exact proper name (List.mem_append_left _ member)
  have short := Entry.joinWith_mem_paths_iff dotFree absentShort
  rw [List.nil_append] at short
  rw [Entry.joinWith_mem_paths_iff dotFree absent, short]
  constructor
  · rintro ⟨sameClass, sameKey, here | ⟨-, sameScope⟩⟩
    · exact absurd here nonempty
    · exact ⟨⟨sameClass, sameKey, .inl rfl⟩, sameScope⟩
  · rintro ⟨⟨sameClass, sameKey, -⟩, sameScope⟩
    exact ⟨sameClass, sameKey, .inr ⟨by rw [sameScope]; exact qualified, sameScope⟩⟩

/-- The candidates for some names are those for the last two whose namespace has the others. -/
theorem filter_paths_joinWith
    (dotFree : ∀ entry ∈ entries, '.' ∉ entry.origin.className)
    (nonempty : front ≠ [])
    (proper : ∀ name ∈ front ++ [className, key], Text.isIdentifierSegment name = true) :
    (entries.filter fun entry =>
        entry.paths.contains (Text.joinWith ['.'] (front ++ [className, key]))) =
      ((Trie.ofList entries).entriesAt (Text.joinWith ['.'] [className, key])).filter
        fun entry => entry.origin.scope = Text.joinWith ['.'] front := by
  rw [Trie.entriesAt_ofList, List.filter_filter]
  apply List.filter_congr
  intro entry member
  have paths := joinWith_mem_paths_iff_of_ne_nil (dotFree entry member) nonempty proper
  rw [Bool.eq_iff_iff, List.contains_iff_mem, paths, Bool.and_eq_true, decide_eq_true_eq,
    decide_eq_true_eq]
  exact and_comm

theorem filter_paths_short (entries : List Entry) (className key : Text) :
    (entries.filter fun entry =>
        entry.paths.contains (Text.joinWith ['.'] ([] ++ [className, key]))) =
      (Trie.ofList entries).entriesAt (Text.joinWith ['.'] [className, key]) := by
  rw [Trie.entriesAt_ofList, List.nil_append]
  simp only [List.contains_eq_mem]

theorem forall_proper_of_suffix
    (suffix : front <:+ before)
    (proper : ∀ name ∈ before ++ [className, key], Text.isIdentifierSegment name = true) :
    ∀ name ∈ front ++ [className, key], Text.isIdentifierSegment name = true := by
  obtain ⟨leading, rfl⟩ := suffix
  intro name member
  apply proper
  rw [List.append_assoc]
  exact List.mem_append_right _ member

/-- The candidates for some names are among those for the last two. -/
theorem mem_entriesAt_of_suffix
    {entry : Entry}
    (dotFree : ∀ entry ∈ entries, '.' ∉ entry.origin.className)
    (suffix : front <:+ before)
    (proper : ∀ name ∈ before ++ [className, key], Text.isIdentifierSegment name = true)
    (member :
      entry ∈ entries.filter fun entry =>
        entry.paths.contains (Text.joinWith ['.'] (front ++ [className, key]))) :
    entry ∈ (Trie.ofList entries).entriesAt (Text.joinWith ['.'] [className, key]) := by
  by_cases alone : front = []
  · subst alone
    rw [filter_paths_short] at member
    exact member
  · rw [filter_paths_joinWith dotFree alone (forall_proper_of_suffix suffix proper)] at member
    exact (List.mem_filter.mp member).1

theorem exists_suffix_of_walkOf
    {path : Text}
    (dotFree : ∀ entry ∈ entries, '.' ∉ entry.origin.className)
    (texts : segments.map Segment.text = before ++ [className, key])
    (walks : walkOf (entries.flatMap Entry.paths) segments = some path)
    (onPath : path ∈ entries.flatMap Entry.paths) :
    ∃ front, front <:+ before ∧ path = Text.joinWith ['.'] (front ++ [className, key]) := by
  obtain ⟨entry, member, memberPaths⟩ := List.mem_flatMap.mp onPath
  obtain ⟨leading, front, shape, path⟩ :=
    exists_front_of_walkOf (dotFree entry member) walks memberPaths
  obtain ⟨sameBefore, sameNames⟩ := List.append_inj' (texts.symm.trans shape) rfl
  cases sameNames
  exact ⟨front, ⟨leading, sameBefore.symm⟩, path⟩

theorem resolveNames_eq_resolve
    (context : ResolveContext)
    (proper : ∀ name ∈ before ++ [className, key], Text.isIdentifierSegment name = true) :
    context.resolveNames (before ++ [className, key]) =
      context.resolve
        ⟨if before = [] then none else some (Text.joinWith ['.'] before), className, key⟩
        (context.trie.entriesAt (Text.joinWith ['.'] [className, key])) := by
  simp only [ResolveContext.resolveNames, ofText?_names proper]

theorem mem_of_resolveNames
    {entry : Entry}
    (proper : ∀ name ∈ before ++ [className, key], Text.isIdentifierSegment name = true)
    (resolved :
      ResolveContext.resolveNames ⟨.ofList entries, scope, preferred?⟩
          (before ++ [className, key]) =
        .ok (some entry)) :
    entry ∈ entries ∧ Text.joinWith ['.'] [className, key] ∈ entry.paths := by
  rw [resolveNames_eq_resolve _ proper] at resolved
  have candidate := (ResolveContext.justifies_of_resolve resolved).1
  rw [Trie.entriesAt_ofList, List.mem_filter, decide_eq_true_eq] at candidate
  exact candidate

/-- Segments whose walk ends on no path stand for nothing. -/
theorem segmentReference?_of_not_mem
    (away :
      ∀ path, walkOf (entries.flatMap Entry.paths) segments = some path →
        path ∉ entries.flatMap Entry.paths) :
    segmentReference? entries scope preferred? flags segments = .ok none := by
  unfold segmentReference?
  split
  · rfl
  · rename_i path walks
    rw [if_neg]
    simpa using away path walks

/-- Segments whose walk ends on a path stand for what they resolve to among its entries. -/
theorem segmentReference?_of_mem
    {path : Text}
    (proper : ∀ name ∈ before ++ [className, key], Text.isIdentifierSegment name = true)
    (texts : segments.map Segment.text = before ++ [className, key])
    (walks : walkOf (entries.flatMap Entry.paths) segments = some path)
    (onPath : path ∈ entries.flatMap Entry.paths) :
    segmentReference? entries scope preferred? flags segments =
      let dotted : DottedReference :=
        ⟨if before = [] then none else some (Text.joinWith ['.'] before), className, key⟩
      (ResolveContext.resolve ⟨.ofList entries, scope, preferred?⟩ dotted
        (entries.filter fun entry => entry.paths.contains path)).map
          (Option.map fun entry => .ofEntry dotted entry (Segment.spanOf segments) flags) := by
  have cut := ofText?_names proper
  rw [← texts] at cut
  have taken : (entries.flatMap Entry.paths).contains path = true :=
    List.contains_iff_mem.mpr onPath
  unfold segmentReference?
  simp only [walks, taken, ↓reduceIte, Segment.joined, cut]

/-- Segments whose last two names lead nowhere stand for nothing. -/
theorem segmentReference?_eq_none
    (wellFormed : scope.IsWellFormed)
    (dotFree : ∀ entry ∈ entries, '.' ∉ entry.origin.className)
    (proper : ∀ name ∈ before ++ [className, key], Text.isIdentifierSegment name = true)
    (texts : segments.map Segment.text = before ++ [className, key])
    (nothing :
      ∀ entry,
        ResolveContext.resolveNames ⟨.ofList entries, scope, preferred?⟩
            (before ++ [className, key]) ≠
          .ok (some entry)) :
    segmentReference? entries scope preferred? flags segments = .ok none := by
  by_cases walked :
      ∃ path ∈ entries.flatMap Entry.paths,
        walkOf (entries.flatMap Entry.paths) segments = some path
  · obtain ⟨path, onPath, walks⟩ := walked
    rw [segmentReference?_of_mem proper texts walks onPath]
    obtain ⟨front, suffix, rfl⟩ := exists_suffix_of_walkOf dotFree texts walks onPath
    obtain ⟨places, resolves, -⟩ :=
      @ResolveContext.exists_places ⟨.ofList entries, scope, preferred?⟩ wellFormed
        ⟨if before = [] then none else some (Text.joinWith ['.'] before), className, key⟩
    simp only [resolveNames_eq_resolve _ proper, resolves] at nothing ⊢
    have missed :
        places.findSome?
            (ResolveContext.pick ⟨.ofList entries, scope, preferred?⟩
              ((Trie.ofList entries).entriesAt (Text.joinWith ['.'] [className, key]))) =
          none := by
      rw [Option.eq_none_iff_forall_ne_some]
      intro entry found
      exact nothing entry (congrArg Except.ok found)
    have nowhere :
        places.findSome?
            (ResolveContext.pick ⟨.ofList entries, scope, preferred?⟩
              (entries.filter fun entry =>
                entry.paths.contains (Text.joinWith ['.'] (front ++ [className, key])))) =
          none := by
      rw [List.findSome?_eq_none_iff] at missed ⊢
      intro place member
      rw [Option.eq_none_iff_forall_ne_some]
      intro entry picked
      apply ResolveContext.pick_ne_none_of_subset picked _ (missed place member)
      intro candidate memberCandidate
      exact mem_entriesAt_of_suffix dotFree suffix proper memberCandidate
    rw [nowhere]
    rfl
  · apply segmentReference?_of_not_mem
    intro path walks onPath
    exact walked ⟨path, onPath, walks⟩

/-- The places of a qualifier lead to the same entry among the candidates of the path that the
walk has taken, if that is a path of the entry, and nowhere otherwise. -/
theorem findSome?_pick_of_suffix
    {entry : Entry}
    {first : Text}
    {others : List Text}
    (dotFree : ∀ entry ∈ entries, '.' ∉ entry.origin.className)
    (suffix : front <:+ before)
    (proper : ∀ name ∈ before ++ [className, key], Text.isIdentifierSegment name = true)
    (onPath : Text.joinWith ['.'] (front ++ [className, key]) ∈ entries.flatMap Entry.paths)
    (member : entry ∈ entries)
    (onShortPath : Text.joinWith ['.'] [className, key] ∈ entry.paths)
    (nested :
      ∀ place ∈ others,
        first = Text.joinWith ['.'] before ∧
          ∃ outer, place = qualify outer (Text.joinWith ['.'] before))
    (resolved :
      (first :: others).findSome?
          (ResolveContext.pick ⟨.ofList entries, scope, preferred?⟩
            ((Trie.ofList entries).entriesAt (Text.joinWith ['.'] [className, key]))) =
        some entry) :
    (first :: others).findSome?
        (ResolveContext.pick ⟨.ofList entries, scope, preferred?⟩
          (entries.filter fun entry =>
            entry.paths.contains (Text.joinWith ['.'] (front ++ [className, key])))) =
      if Text.joinWith ['.'] (front ++ [className, key]) ∈ entry.paths then some entry
      else none := by
  by_cases alone : front = []
  -- The walk has begun anew with the class, so the candidates are those that lead to the entry.
  · subst alone
    rw [filter_paths_short, resolved, List.nil_append, if_pos onShortPath]
  -- The walk has taken the end of the qualifier as a namespace, in which the entry may lie.
  · have properFront := forall_proper_of_suffix suffix proper
    have shorter := Text.length_joinWith_le_of_suffix alone suffix
    have apart :
        Text.joinWith ['.'] front ∈ others → Text.joinWith ['.'] front = first := by
      intro memberOthers
      obtain ⟨rfl, outer, shape⟩ := nested _ memberOthers
      rw [shape] at shorter ⊢
      by_cases isGlobal : outer = []
      · simp [qualify, isGlobal]
      · simp [qualify, isGlobal] at shorter
        omega
    have candidates := filter_paths_joinWith dotFree alone properFront
    have nonempty :
        ((Trie.ofList entries).entriesAt (Text.joinWith ['.'] [className, key])).filter
            (fun entry => entry.origin.scope = Text.joinWith ['.'] front) ≠
          [] := by
      rw [← candidates]
      obtain ⟨other, memberOther, memberPaths⟩ := List.mem_flatMap.mp onPath
      apply List.ne_nil_of_mem (a := other)
      simpa using ⟨memberOther, memberPaths⟩
    have inPlace :
        Text.joinWith ['.'] (front ++ [className, key]) ∈ entry.paths ↔
          entry.origin.scope = Text.joinWith ['.'] front := by
      rw [joinWith_mem_paths_iff_of_ne_nil (dotFree entry member) alone properFront]
      exact and_iff_right onShortPath
    rw [candidates, ResolveContext.findSome?_pick_filter nonempty apart resolved]
    simp only [inPlace]

/-- Segments whose last two names lead to an entry stand for it when the walk along them ends
on a path of it, and for nothing otherwise. -/
theorem segmentReference?_of_resolveNames
    {entry : Entry}
    (wellFormed : scope.IsWellFormed)
    (dotFree : ∀ entry ∈ entries, '.' ∉ entry.origin.className)
    (qualified : before ≠ [])
    (proper : ∀ name ∈ before ++ [className, key], Text.isIdentifierSegment name = true)
    (texts : segments.map Segment.text = before ++ [className, key])
    (resolved :
      ResolveContext.resolveNames ⟨.ofList entries, scope, preferred?⟩
          (before ++ [className, key]) =
        .ok (some entry)) :
    segmentReference? entries scope preferred? flags segments =
      .ok
        (if WalksTo entries (before ++ [className, key]) entry then
          some
            (.ofEntry ⟨some (Text.joinWith ['.'] before), className, key⟩ entry
              (Segment.spanOf segments) flags)
        else none) := by
  obtain ⟨member, onShortPath⟩ := mem_of_resolveNames proper resolved
  by_cases walked :
      ∃ path ∈ entries.flatMap Entry.paths,
        walkOf (entries.flatMap Entry.paths) segments = some path
  · obtain ⟨path, onPath, walks⟩ := walked
    have reached :
        WalksTo entries (before ++ [className, key]) entry ↔ path ∈ entry.paths := by
      rw [WalksTo, ← texts]
      constructor
      · rintro ⟨other, memberOther, walksOther⟩
        cases walks.symm.trans walksOther
        exact memberOther
      · intro memberPath
        exact ⟨path, memberPath, walks⟩
    rw [segmentReference?_of_mem proper texts walks onPath]
    obtain ⟨front, suffix, rfl⟩ := exists_suffix_of_walkOf dotFree texts walks onPath
    rw [resolveNames_eq_resolve _ proper, if_neg qualified] at resolved
    obtain ⟨places, resolves, ordered⟩ :=
      @ResolveContext.exists_places ⟨.ofList entries, scope, preferred?⟩ wellFormed
        ⟨some (Text.joinWith ['.'] before), className, key⟩
    obtain ⟨first, others, rfl, nested⟩ := ordered (Text.joinWith ['.'] before) rfl
    rw [resolves] at resolved
    simp only [qualified, ↓reduceIte, resolves, reached]
    rw [findSome?_pick_of_suffix dotFree suffix proper onPath member onShortPath nested
      (Except.ok.inj resolved)]
    split <;> rfl
  · have away :
        ¬WalksTo entries (before ++ [className, key]) entry := by
      rintro ⟨path, memberPath, walks⟩
      refine walked ⟨path, List.mem_flatMap.mpr ⟨entry, member, memberPath⟩, ?_⟩
      rw [walkOf, texts]
      exact walks
    rw [if_neg away]
    apply segmentReference?_of_not_mem
    intro path walks onPath
    exact walked ⟨path, onPath, walks⟩

/-- A walk along names has taken the last of them. -/
theorem exists_suffix_of_foldl_advanceWalk
    {paths names : List Text}
    {path : Text}
    (proper : ∀ name ∈ names, Text.isIdentifierSegment name = true)
    (walks : names.foldl (advanceWalk paths) none = some path) :
    ∃ front, front ≠ [] ∧ front <:+ names ∧ path = Text.joinWith ['.'] front := by
  have nonempty : names ≠ [] := by
    rintro rfl
    cases walks
  obtain ⟨chain, -, rfl, -⟩ := exists_chain_of_joinWith [] .start nonempty proper
  obtain ⟨count, inside, rfl⟩ := exists_drop_of_walkOf (show walkOf paths chain = _ from walks)
  refine ⟨(chain.drop count).map Segment.text, by simpa using inside, ?_, rfl⟩
  rw [List.map_drop]
  exact List.drop_suffix _ _

/-- A walk that no path takes away from the class ends with the class and the property. -/
theorem walksTo_of_not_beginsPath
    {entry : Entry}
    (proper : ∀ name ∈ before ++ [className, key], Text.isIdentifierSegment name = true)
    (member : entry ∈ entries)
    (onPath : Text.joinWith ['.'] [className, key] ∈ entry.paths)
    (free :
      ∀ front, front ≠ [] → front <:+ before →
        ¬BeginsPath (entries.flatMap Entry.paths)
          (Text.joinWith ['.'] front ++ '.' :: className.take 1)) :
    WalksTo entries (before ++ [className, key]) entry := by
  refine ⟨_, onPath, ?_⟩
  have whole : BeginsPath (entries.flatMap Entry.paths) (className ++ '.' :: key) := by
    refine ⟨_, List.mem_flatMap.mpr ⟨entry, member, onPath⟩, ?_⟩
    simp [Text.joinWith]
  have toClass : BeginsPath (entries.flatMap Entry.paths) className :=
    BeginsPath.of_append _ whole
  have toKey : BeginsPath (entries.flatMap Entry.paths) (className ++ '.' :: key.take 1) := by
    apply BeginsPath.of_append (key.drop 1)
    rw [List.append_assoc, List.cons_append, List.take_append_drop]
    exact whole
  have atClass :
      advanceWalk (entries.flatMap Entry.paths)
          (before.foldl (advanceWalk (entries.flatMap Entry.paths)) none) className =
        some className := by
    cases walked : before.foldl (advanceWalk (entries.flatMap Entry.paths)) none with
    | none =>
        simp [advanceWalk, toClass]
    | some path =>
        have properBefore : ∀ name ∈ before, Text.isIdentifierSegment name = true := by
          intro name memberName
          exact proper name (List.mem_append_left _ memberName)
        obtain ⟨front, nonempty, suffix, rfl⟩ :=
          exists_suffix_of_foldl_advanceWalk properBefore walked
        simp [advanceWalk, free front nonempty suffix, toClass]
  rw [List.foldl_append, List.foldl_cons, List.foldl_cons, List.foldl_nil, atClass]
  simp [advanceWalk, toKey, whole, Text.joinWith]

end Names

/-- Names of which the last two, and no shorter start of them, lead to an entry are reported
as a reference to it when the walk along them ends on a path of it, and as nothing otherwise.
The walk ends there when no path goes on from the qualifier with the first character of the
class. -/
theorem findReferences_of_resolveNames
    (marker : Text)
    (entries : List Entry)
    (scope : Scope)
    (preferred? : Option Origin)
    (flags : ItemFlags)
    (anchor : Position)
    (qualifier : List Text)
    (className key : Text)
    (entry : Entry)
    (validLine : 1 ≤ anchor.line)
    (validColumn : 1 ≤ anchor.column)
    (dotFree : ∀ entry ∈ entries, '.' ∉ entry.origin.className)
    (wellFormed : scope.IsWellFormed)
    (qualified : qualifier ≠ [])
    (proper : ∀ name ∈ qualifier ++ [className, key], Text.isIdentifierSegment name = true)
    (resolved :
      ResolveContext.resolveNames ⟨.ofList entries, scope, preferred?⟩
          (qualifier ++ [className, key]) =
        .ok (some entry))
    (shortest :
      ∀ count < qualifier.length + 2, ∀ other,
        ResolveContext.resolveNames ⟨.ofList entries, scope, preferred?⟩
            ((qualifier ++ [className, key]).take count) ≠
          .ok (some other)) :
    findReferences (.csharp marker) ⟨.ofList entries, scope, preferred?⟩ flags anchor
          (Text.joinWith ['.'] (qualifier ++ [className, key])) =
        .ok
          (if WalksTo entries (qualifier ++ [className, key]) entry then
            [entry.referenceAt flags anchor
              (Text.joinWith ['.'] (qualifier ++ [className, key]))]
          else []) ∧
      ((∀ front, front ≠ [] → front <:+ qualifier →
          ¬BeginsPath (entries.flatMap Entry.paths)
            (Text.joinWith ['.'] front ++ '.' :: className.take 1)) →
        WalksTo entries (qualifier ++ [className, key]) entry) := by
  have valid := Position.asAnchor_of_one_le validLine validColumn
  obtain ⟨member, onPath⟩ := mem_of_resolveNames proper resolved
  refine ⟨?_, walksTo_of_not_beginsPath proper member onPath⟩
  have absent : ∀ name ∈ [] ++ [className, key], '.' ∉ name := by
    intro name memberName
    exact Text.dot_not_mem_of_isIdentifierSegment
      (proper name (List.mem_append_right _ memberName))
  have sameKey : key = entry.propertyName :=
    ((Entry.joinWith_mem_paths_iff (dotFree entry member) absent).mp onPath).2.1.symm
  have long : 2 ≤ (qualifier ++ [className, key]).length := by
    simp
  -- No shorter start of the names leads to an entry, so none of them is reported.
  have quiet :
      ∀ segments : List Segment, ∀ count,
        2 ≤ count → count < (qualifier ++ [className, key]).length →
          segments.map Segment.text = (qualifier ++ [className, key]).take count →
            segmentReference? entries scope preferred? flags segments = .ok none := by
    intro segments count least most texts
    have properStart :
        ∀ name ∈ (qualifier ++ [className, key]).take count,
          Text.isIdentifierSegment name = true := by
      intro name memberName
      exact proper name (List.mem_of_mem_take memberName)
    have longStart : 2 ≤ ((qualifier ++ [className, key]).take count).length := by
      rw [List.length_take]
      exact Nat.le_min.mpr ⟨least, long⟩
    have nothing := shortest count (by simpa using most)
    obtain ⟨before, second, last, shape⟩ := exists_last_two longStart
    rw [shape] at properStart nothing texts
    exact segmentReference?_eq_none wellFormed dotFree properStart texts nothing
  obtain ⟨chain, texts, span, found⟩ := findReferences_joinWith marker valid long proper quiet
  have cut := ofText?_names proper
  rw [if_neg qualified] at cut
  rw [found, segmentReference?_of_resolveNames wellFormed dotFree qualified proper texts resolved,
    span, Reference.ofEntry_eq_referenceAt anchor flags cut sameKey]
  split <;> rfl

/-- An alias leads to an entry when no other path goes on from it with the class. -/
theorem findReferences_of_resolveNames_alias :
    let entry : Entry :=
      ⟨"Greeting".toList, "Hi".toList, ⟨"MyNs".toList, "Resources".toList, none, []⟩⟩
    let other : Entry := ⟨"K".toList, "V".toList, ⟨"App".toList, "Texts".toList, none, []⟩⟩
    let context : ResolveContext :=
      ⟨.ofList [entry, other], ⟨[], [("App".toList, "MyNs".toList)]⟩, none⟩
    context.resolveNames ["App".toList, "Resources".toList, "Greeting".toList] =
        .ok (some entry) ∧
      findReferences (.csharp defaultMarker) context .none .start
          "App.Resources.Greeting".toList =
        .ok [entry.referenceAt .none .start "App.Resources.Greeting".toList] := by
  intro entry other context
  have resolved :
      context.resolveNames ["App".toList, "Resources".toList, "Greeting".toList] =
        .ok (some entry) := by
    cbv
  have shortest :
      ∀ count < 3, ∀ found,
        context.resolveNames
            (["App".toList, "Resources".toList, "Greeting".toList].take count) ≠
          .ok (some found) := by
    have nothing :
        ∀ count < 3,
          context.resolveNames
              (["App".toList, "Resources".toList, "Greeting".toList].take count) =
            .ok none := by
      decide +kernel
    intro count bound found same
    cases (nothing count bound).symm.trans same
  have free :
      ∀ front, front ≠ [] → front <:+ ["App".toList] →
        ¬BeginsPath ([entry, other].flatMap Entry.paths)
          (Text.joinWith ['.'] front ++ '.' :: "Resources".toList.take 1) := by
    intro front nonempty suffix
    rcases List.suffix_cons_iff.mp suffix with rfl | shorter
    · decide
    · exact absurd (List.suffix_nil.mp shorter) nonempty
  obtain ⟨found, reaches⟩ :=
    findReferences_of_resolveNames defaultMarker [entry, other]
      ⟨[], [("App".toList, "MyNs".toList)]⟩ none .none .start ["App".toList]
      "Resources".toList "Greeting".toList entry (by decide) (by decide) (by decide)
      ⟨by decide, by decide⟩ (by decide) (by decide) resolved shortest
  rw [if_pos (reaches free)] at found
  exact ⟨resolved, found⟩

/-- A path of another entry that goes on from the alias with the first character of the class
takes the walk away, and so does a namespace of the same name with the same class. -/
theorem findReferences_captured :
    let entry : Entry :=
      ⟨"Greeting".toList, "Hi".toList, ⟨"MyNs".toList, "Resources".toList, none, []⟩⟩
    let names := ["App".toList, "Resources".toList, "Greeting".toList]
    let scope : Scope := ⟨[], [("App".toList, "MyNs".toList)]⟩
    ∀ other ∈
        [(⟨"K".toList, "V".toList, ⟨"App".toList, "Rex".toList, none, []⟩⟩ : Entry),
          ⟨"Greeting".toList, "Ho".toList, ⟨"App".toList, "Resources".toList, none, []⟩⟩],
      let context : ResolveContext := ⟨.ofList [entry, other], scope, none⟩
      (∀ candidate ∈ [entry, other], '.' ∉ candidate.origin.className) ∧ scope.IsWellFormed ∧
        (∀ name ∈ names, Text.isIdentifierSegment name = true) ∧
        scope.aliases.lookup "App".toList = some "MyNs".toList ∧
        context.resolveNames names = .ok (some entry) ∧
        (∀ count < 3, context.resolveNames (names.take count) = .ok none) ∧
        findReferences (.csharp defaultMarker) context .none .start
            (Text.joinWith ['.'] names) =
          .ok [] := by
  intro entry names scope other member
  have wellFormed : scope.IsWellFormed := ⟨by decide, by decide⟩
  have proper : ∀ name ∈ names, Text.isIdentifierSegment name = true := by decide
  simp only [List.mem_cons, List.not_mem_nil, or_false] at member
  rcases member with rfl | rfl
  · refine ⟨by decide, wellFormed, proper, rfl, by cbv, by decide +kernel, ?_⟩
    simp only [names, entry, scope]
    cbv
  · refine ⟨by decide, wellFormed, proper, rfl, by cbv, by decide +kernel, ?_⟩
    simp only [names, entry, scope]
    cbv

end LocalizationScan
