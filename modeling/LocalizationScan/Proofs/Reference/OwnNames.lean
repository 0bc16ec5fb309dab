import LocalizationScan.Proofs.Reference.Completeness

namespace LocalizationScan

/-!
# Entries under their own names

Every entry is reached by its full path, whatever namespaces are in scope, and
by its short path where its class is declared in one namespace in scope only.
Entries that share the full path differ in their containers, of which the
reference shows one.
-/

/-- Which of some entries is shown: that of the preferred container, or else the first
culture-neutral one, or else the first one. -/
inductive IsShown (preferred? : Option Origin) (entries : List Entry) (shown : Entry) : Prop where
  | preferred
      {origin : Origin}
      (prefers : preferred? = some origin)
      (first : entries.find? (fun entry => entry.origin = origin) = some shown)
  | neutral
      (absent : ∀ entry ∈ entries, preferred? ≠ some entry.origin)
      (first : entries.find? (fun entry => entry.origin.culture? = none) = some shown)
  | first
      (absent : ∀ entry ∈ entries, preferred? ≠ some entry.origin)
      (cultured : ∀ entry ∈ entries, entry.origin.culture? ≠ none)
      (first : entries.head? = some shown)

/-- Whether a namespace has entries of a class. -/
def Declares (entries : List Entry) (name className : Text) : Prop :=
  ∃ entry ∈ entries, entry.origin.scope = name ∧ entry.origin.className = className

instance (entries : List Entry) (name className : Text) :
    Decidable (Declares entries name className) :=
  inferInstanceAs (Decidable (∃ entry ∈ entries, _ ∧ _))

section Shown

variable {preferred? : Option Origin} {entries : List Entry} {shown : Entry}

theorem isShown_of_choose
    (chosen : choose preferred? entries = some shown) :
    IsShown preferred? entries shown := by
  unfold choose at chosen
  rcases Option.or_eq_some_iff.mp chosen with preferred | ⟨nothing, others⟩
  · obtain ⟨origin, prefers, first⟩ := Option.bind_eq_some_iff.mp preferred
    exact .preferred prefers first
  · have absent : ∀ entry ∈ entries, preferred? ≠ some entry.origin := by
      rintro entry member rfl
      have elsewhere := List.find?_eq_none.mp nothing entry member
      exact elsewhere (decide_eq_true rfl)
    have neutrals :
        (fun entry : Entry => !entry.origin.isCultureSpecific) =
          fun entry => decide (entry.origin.culture? = none) := by
      funext entry
      cases culture : entry.origin.culture? <;> simp [Origin.isCultureSpecific, culture]
    rw [neutrals] at others
    rcases Option.or_eq_some_iff.mp others with first | ⟨cultured, first⟩
    · exact .neutral absent first
    · refine .first absent ?_ first
      intro entry member same
      have elsewhere := List.find?_eq_none.mp cultured entry member
      exact elsewhere (decide_eq_true same)

theorem exists_isShown
    (nonempty : entries ≠ []) :
    ∃ shown, choose preferred? entries = some shown ∧ IsShown preferred? entries shown := by
  obtain ⟨shown, chosen⟩ : ∃ shown, choose preferred? entries = some shown := by
    rw [← Option.ne_none_iff_exists']
    intro nothing
    have noFirst := (Option.or_eq_none_iff.mp (Option.or_eq_none_iff.mp nothing).2).2
    exact nonempty (List.head?_eq_none_iff.mp noFirst)
  exact ⟨shown, chosen, isShown_of_choose chosen⟩

end Shown

namespace Text

theorem exists_joinWith_take
    {names : List Text}
    {count : Nat}
    (positive : 0 < count)
    (inside : count < names.length) :
    ∃ rest,
      joinWith ['.'] names = joinWith ['.'] (names.take count) ++ '.' :: rest := by
  have front : names.take count ≠ [] := by
    intro nothing
    rw [List.take_eq_nil_iff] at nothing
    rcases nothing with rfl | rfl
    · cases positive
    · cases inside
  have back : names.drop count ≠ [] := by
    rw [Ne, List.drop_eq_nil_iff]
    exact Nat.not_le.mpr inside
  refine ⟨joinWith ['.'] (names.drop count), ?_⟩
  have joined := joinWith_append ['.'] front back
  rw [List.take_append_drop] at joined
  rw [joined, List.append_assoc]
  rfl

end Text

namespace Entry

variable {entry other : Entry}

/-- Entries share their full path when they share namespace, class and property. -/
theorem fullPath_eq_iff
    (dotFree : '.' ∉ entry.origin.className)
    (dotFreeOther : '.' ∉ other.origin.className) :
    other.fullPath = entry.fullPath ↔
      other.origin.scope = entry.origin.scope ∧
        other.origin.className = entry.origin.className ∧
        other.propertyName = entry.propertyName := by
  constructor
  · intro same
    have names := splitOn_fullPath_eq_scopeNames dotFreeOther
    rw [same, splitOn_fullPath_eq_scopeNames dotFree] at names
    obtain ⟨sameFront, sameNames⟩ := List.append_inj' names rfl
    obtain ⟨sameClass, sameProperty⟩ := List.cons_eq_cons.mp sameNames
    refine ⟨?_, sameClass.symm, (List.cons_eq_cons.mp sameProperty).1.symm⟩
    rw [← joinWith_scopeNames other, ← sameFront, joinWith_scopeNames]
  · rintro ⟨sameScope, sameClass, sameProperty⟩
    simp only [fullPath, Origin.qualifiedClass, sameScope, sameClass, sameProperty]

/-- The entries of a namespace on a path of an entry of it are those with its full path. -/
theorem mem_paths_and_scope_eq_iff
    {front : List Text}
    (dotFree : '.' ∉ entry.origin.className)
    (dotFreeOther : '.' ∉ other.origin.className)
    (absent : ∀ name ∈ front ++ [entry.origin.className, entry.propertyName], '.' ∉ name)
    (place :
      front = [] ∨
        entry.origin.scope ≠ [] ∧ entry.origin.scope = Text.joinWith ['.'] front) :
    Text.joinWith ['.'] (front ++ [entry.origin.className, entry.propertyName]) ∈ other.paths ∧
        other.origin.scope = entry.origin.scope ↔
      other.fullPath = entry.fullPath := by
  rw [joinWith_mem_paths_iff dotFreeOther absent, fullPath_eq_iff dotFree dotFreeOther]
  constructor
  · rintro ⟨⟨sameClass, sameProperty, -⟩, sameScope⟩
    exact ⟨sameScope, sameClass, sameProperty⟩
  · rintro ⟨sameScope, sameClass, sameProperty⟩
    rw [sameScope]
    exact ⟨⟨sameClass, sameProperty, place⟩, rfl⟩

end Entry

section Walk

variable {paths names : List Text} {segments : List Segment}

/-- A walk along names that begin a path takes all of them. -/
theorem foldl_advanceWalk_of_beginsPath
    (nonempty : names ≠ [])
    (begins : BeginsPath paths (Text.joinWith ['.'] names)) :
    names.foldl (advanceWalk paths) none = some (Text.joinWith ['.'] names) := by
  induction names using List.reverseRecOn with
  | nil =>
      exact absurd rfl nonempty
  | append_singleton names name inductionHypothesis =>
      rw [List.foldl_append, List.foldl_cons, List.foldl_nil]
      by_cases alone : names = []
      · subst alone
        rw [List.nil_append, Text.joinWith] at begins
        simp [advanceWalk, begins, Text.joinWith]
      · have joined :
            Text.joinWith ['.'] (names ++ [name]) =
              Text.joinWith ['.'] names ++ '.' :: name := by
          rw [Text.joinWith_append ['.'] alone (by simp), List.append_assoc]
          rfl
        rw [joined] at begins ⊢
        have further : BeginsPath paths (Text.joinWith ['.'] names ++ '.' :: name.take 1) := by
          apply BeginsPath.of_append (name.drop 1)
          rw [List.append_assoc, List.cons_append, List.take_append_drop]
          exact begins
        rw [inductionHypothesis alone (BeginsPath.of_append _ begins)]
        simp [advanceWalk, further, begins]

end Walk

section Lookup

variable {trie : Trie} {scope : Scope} {name result : Text} {candidates : List Text}

/-- A search among namespaces of which one only declares a class finds that one. -/
theorem Scope.searchType_eq_ok_of_unique
    {found : Option Text}
    (proper : ∀ other ∈ candidates, other = [] ∨ Text.isDottedIdentifier other = true)
    (unique :
      ∀ other ∈ candidates, trie.containsClass (qualify other name) = true → other = result)
    (known :
      found = some result ∨
        found = none ∧ result ∈ candidates ∧ trie.containsClass (qualify result name) = true) :
    searchType trie name found candidates = .ok (some result) := by
  induction candidates generalizing found with
  | nil =>
      rcases known with rfl | ⟨-, member, -⟩
      · rfl
      · cases member
  | cons candidate candidates inductionHypothesis =>
      obtain ⟨properHere, properLater⟩ := List.forall_mem_cons.mp proper
      obtain ⟨uniqueHere, uniqueLater⟩ := List.forall_mem_cons.mp unique
      rw [searchType_cons properHere]
      by_cases declares : trie.containsClass (qualify candidate name) = true
      · obtain rfl := uniqueHere declares
        rw [if_pos declares]
        rcases known with rfl | ⟨rfl, -, -⟩
        · dsimp only
          rw [if_pos rfl]
          exact inductionHypothesis properLater uniqueLater (.inl rfl)
        · exact inductionHypothesis properLater uniqueLater (.inl rfl)
      · rw [if_neg declares]
        apply inductionHypothesis properLater uniqueLater
        rcases known with rfl | ⟨rfl, member, declaresResult⟩
        · exact .inl rfl
        · rcases List.mem_cons.mp member with rfl | later
          · exact absurd declaresResult declares
          · exact .inr ⟨rfl, later, declaresResult⟩

end Lookup

section OwnNames

variable {entries : List Entry} {scope : Scope} {preferred? : Option Origin} {flags : ItemFlags}
  {anchor : Position} {entry : Entry} {front : List Text}

/-- The namespace and the class of a full name are determined. -/
theorem qualify_injective
    {name other className otherClass : Text}
    (dotFree : '.' ∉ className)
    (dotFreeOther : '.' ∉ otherClass)
    (same : qualify name className = qualify other otherClass) :
    name = other ∧ className = otherClass := by
  by_cases isGlobal : name = []
  · by_cases isGlobalOther : other = []
    · simpa [qualify, isGlobal, isGlobalOther] using same
    · refine absurd ?_ dotFree
      simp only [qualify, isGlobal, isGlobalOther, List.isEmpty_iff, ↓reduceIte] at same
      rw [same]
      exact List.mem_append_right _ List.mem_cons_self
  · by_cases isGlobalOther : other = []
    · refine absurd ?_ dotFreeOther
      simp only [qualify, isGlobal, isGlobalOther, List.isEmpty_iff, ↓reduceIte] at same
      rw [← same]
      exact List.mem_append_right _ List.mem_cons_self
    · simp only [qualify, isGlobal, isGlobalOther, List.isEmpty_iff, ↓reduceIte] at same
      have cut := Text.splitLast?_append name dotFree
      rw [same, Text.splitLast?_append other dotFreeOther] at cut
      cases cut
      exact ⟨rfl, rfl⟩

/-- A full name is that of a resource class when its namespace declares the class. -/
theorem containsClass_qualify_iff
    {name className : Text}
    (named : ∀ entry ∈ entries, entry.IsWellNamed)
    (dotFree : '.' ∉ className) :
    (Trie.ofList entries).containsClass (qualify name className) = true ↔
      Declares entries name className := by
  rw [Trie.containsClass_ofList]
  constructor
  · rintro ⟨declaring, member, same⟩
    exact ⟨declaring, member, qualify_injective (named declaring member).dotFree dotFree same⟩
  · rintro ⟨declaring, member, rfl, rfl⟩
    exact ⟨declaring, member, rfl⟩

/-- The candidates for the names of an entry that lie in its namespace share its full path. -/
theorem filter_paths_and_scope
    (named : ∀ entry ∈ entries, entry.IsWellNamed)
    (member : entry ∈ entries)
    (absent : ∀ name ∈ front ++ [entry.origin.className, entry.propertyName], '.' ∉ name)
    (place :
      front = [] ∨
        entry.origin.scope ≠ [] ∧ entry.origin.scope = Text.joinWith ['.'] front) :
    ((entries.filter fun other =>
            other.paths.contains
              (Text.joinWith ['.']
                (front ++ [entry.origin.className, entry.propertyName]))).filter
          fun other => other.origin.scope = entry.origin.scope) =
      entries.filter fun other => other.fullPath = entry.fullPath := by
  rw [List.filter_filter]
  apply List.filter_congr
  intro other memberOther
  have same :=
    Entry.mem_paths_and_scope_eq_iff (named entry member).dotFree
      (named other memberOther).dotFree absent place
  rw [Bool.eq_iff_iff, Bool.and_eq_true, List.contains_iff_mem, decide_eq_true_eq,
    decide_eq_true_eq, ← same]
  exact and_comm

/-- A start of the names of a path stands for nothing unless it is a path itself: the walk
takes it as a whole. -/
theorem segmentReference?_of_take
    {names : List Text}
    {segments : List Segment}
    {count : Nat}
    (onPaths : Text.joinWith ['.'] names ∈ entries.flatMap Entry.paths)
    (least : 2 ≤ count)
    (most : count < names.length)
    (texts : segments.map Segment.text = names.take count)
    (shorter : Text.joinWith ['.'] (names.take count) ∉ entries.flatMap Entry.paths) :
    segmentReference? entries scope preferred? flags segments = .ok none := by
  apply segmentReference?_of_not_mem
  intro path walks
  obtain ⟨rest, joined⟩ := Text.exists_joinWith_take (Nat.zero_lt_of_lt least) most
  have start : names.take count ≠ [] := by
    intro nothing
    rcases List.take_eq_nil_iff.mp nothing with rfl | rfl
    · cases least
    · cases most
  have begins :
      BeginsPath (entries.flatMap Entry.paths) (Text.joinWith ['.'] (names.take count)) :=
    ⟨_, onPaths, ⟨_, joined.symm⟩⟩
  rw [walkOf, texts, foldl_advanceWalk_of_beginsPath start begins] at walks
  cases walks
  exact shorter

/-- Names that lead to an entry are reported as a reference to the shown one of those that
share its full path, when no shorter start of them is a path. -/
theorem exists_findReferences_of_place
    {names : List Text}
    {text : Text}
    (marker : Text)
    (valid : anchor.asAnchor = .ok anchor)
    (named : ∀ entry ∈ entries, entry.IsWellNamed)
    (member : entry ∈ entries)
    (shape : front ++ [entry.origin.className, entry.propertyName] = names)
    (written : Text.joinWith ['.'] names = text)
    (properFront : ∀ name ∈ front, Text.isIdentifierSegment name = true)
    (place :
      front = [] ∨
        entry.origin.scope ≠ [] ∧ entry.origin.scope = Text.joinWith ['.'] front)
    (shortest :
      ∀ count, 2 ≤ count → count < names.length →
        Text.joinWith ['.'] (names.take count) ∉ entries.flatMap Entry.paths)
    (resolves :
      ∀ candidates shown,
        ResolveContext.pick ⟨.ofList entries, scope, preferred?⟩ candidates
            entry.origin.scope =
          some shown →
        ResolveContext.resolve ⟨.ofList entries, scope, preferred?⟩
            ⟨if front = [] then none else some (Text.joinWith ['.'] front),
              entry.origin.className, entry.propertyName⟩
            candidates =
          .ok (some shown)) :
    ∃ shown,
      IsShown preferred? (entries.filter fun other => other.fullPath = entry.fullPath) shown ∧
        shown.fullPath = entry.fullPath ∧
        findReferences (.csharp marker) ⟨.ofList entries, scope, preferred?⟩ flags anchor text =
          .ok [shown.referenceAt flags anchor text] := by
  subst written
  have dotFree := (named entry member).dotFree
  have proper := (named entry member).names_proper properFront
  have absent :
      ∀ name ∈ front ++ [entry.origin.className, entry.propertyName], '.' ∉ name := by
    intro name memberName
    exact Text.dot_not_mem_of_isIdentifierSegment (proper name memberName)
  have onPath := (Entry.joinWith_mem_paths_iff dotFree absent).mpr ⟨rfl, rfl, place⟩
  have sharing := filter_paths_and_scope named member absent place
  have cut := ofText?_names proper
  have long : 2 ≤ names.length := by
    rw [← shape, List.length_append]
    exact Nat.le_add_left _ _
  rw [shape] at proper onPath sharing cut
  have onPaths := List.mem_flatMap.mpr ⟨entry, member, onPath⟩
  have quiet :
      ∀ segments : List Segment, ∀ count,
        2 ≤ count → count < names.length → segments.map Segment.text = names.take count →
          segmentReference? entries scope preferred? flags segments = .ok none := by
    intro segments count least most texts
    exact segmentReference?_of_take onPaths least most texts (shortest count least most)
  obtain ⟨chain, texts, span, found⟩ := findReferences_joinWith marker valid long proper quiet
  have walks :
      walkOf (entries.flatMap Entry.paths) chain = some (Text.joinWith ['.'] names) := by
    have nonempty : names ≠ [] := by
      rintro rfl
      cases long
    rw [walkOf, texts]
    exact foldl_advanceWalk_of_beginsPath nonempty ⟨_, onPaths, List.prefix_refl _⟩
  have nonempty : (entries.filter fun other => other.fullPath = entry.fullPath) ≠ [] := by
    apply List.ne_nil_of_mem
    exact List.mem_filter.mpr ⟨member, decide_eq_true rfl⟩
  obtain ⟨shown, chosen, isShown⟩ := @exists_isShown preferred? _ nonempty
  obtain ⟨memberShown, samePath⟩ := List.mem_filter.mp (mem_of_choose chosen)
  rw [decide_eq_true_eq] at samePath
  have sameProperty :=
    ((Entry.fullPath_eq_iff dotFree (named shown memberShown).dotFree).mp samePath).2.2
  refine ⟨shown, isShown, samePath, ?_⟩
  rw [← sharing] at chosen
  subst shape
  rw [found, segmentReference?_of_mem proper texts walks onPaths]
  dsimp only
  rw [resolves _ shown chosen, span]
  simp only [Except.map, Except.mapError, Option.map, Option.toList]
  rw [Reference.ofEntry_eq_referenceAt anchor flags cut sameProperty.symm]

/-- Every entry is reported under its full path when its namespace is no alias and no shorter
start of the path is one, and under its short path when its namespace alone among those in
scope declares its class. -/
theorem findReferences_ownName
    (marker : Text)
    (entries : List Entry)
    (scope : Scope)
    (preferred? : Option Origin)
    (flags : ItemFlags)
    (anchor : Position)
    (entry : Entry)
    (validLine : 1 ≤ anchor.line)
    (validColumn : 1 ≤ anchor.column)
    (named : ∀ entry ∈ entries, entry.IsWellNamed)
    (member : entry ∈ entries) :
    (entry.origin.scope ≠ [] →
      scope.aliases.lookup entry.origin.scope = none →
      (∀ front rest, entry.fullPath = front ++ '.' :: rest →
        (Trie.ofList entries).isTerminal front = false) →
      ∃ shown,
        IsShown preferred? (entries.filter fun other => other.fullPath = entry.fullPath) shown ∧
          shown.fullPath = entry.fullPath ∧
          findReferences (.csharp marker) ⟨.ofList entries, scope, preferred?⟩ flags anchor
              entry.fullPath =
            .ok [shown.referenceAt flags anchor entry.fullPath]) ∧
      ((∀ name ∈ scope.namespaces, name = [] ∨ Text.isDottedIdentifier name = true) →
        entry.origin.scope ∈ [] :: scope.namespaces →
        (∀ other ∈ [] :: scope.namespaces,
          Declares entries other entry.origin.className → other = entry.origin.scope) →
        ∃ shown,
          IsShown preferred? (entries.filter fun other => other.fullPath = entry.fullPath)
              shown ∧
            shown.fullPath = entry.fullPath ∧
            findReferences (.csharp marker) ⟨.ofList entries, scope, preferred?⟩ flags anchor
                entry.classPath =
              .ok [shown.referenceAt flags anchor entry.classPath]) := by
  have valid := Position.asAnchor_of_one_le validLine validColumn
  have dotFree := (named entry member).dotFree
  constructor
  · intro qualified unaliased shortest
    have text := Entry.joinWith_names_eq_fullPath dotFree
    have place := (Entry.joinWith_scopeNames entry).symm
    have scopeNames : entry.scopeNames ≠ [] := mt Entry.scopeNames_eq_nil_iff.mp qualified
    apply exists_findReferences_of_place marker valid named member rfl text
      (named entry member).scopeNames_proper (.inr ⟨qualified, place⟩)
    · intro count least most
      obtain ⟨rest, joined⟩ := Text.exists_joinWith_take (Nat.zero_lt_of_lt least) most
      rw [← isTerminal_ofList, shortest _ rest (text.symm.trans joined)]
      exact Bool.false_ne_true
    · intro candidates shown picked
      simp only [ResolveContext.resolve, scopeNames, ↓reduceIte, ← place,
        Scope.resolveAlias, unaliased]
      simp [bind, Except.bind, pure, Except.pure, picked]
  · intro proper inScope unique
    have text : Text.joinWith ['.'] [entry.origin.className, entry.propertyName] =
        entry.classPath := by
      simp [Text.joinWith, Entry.classPath]
    have found :
        scope.resolveType entry.origin.className (.ofList entries) =
          .ok (some entry.origin.scope) := by
      apply Scope.searchType_eq_ok_of_unique
      · exact List.forall_mem_cons.mpr ⟨.inl rfl, proper⟩
      · intro other memberOther known
        exact unique other memberOther ((containsClass_qualify_iff named dotFree).mp known)
      · refine .inr ⟨rfl, inScope, ?_⟩
        exact (containsClass_qualify_iff named dotFree).mpr ⟨entry, member, rfl, rfl⟩
    have properFront : ∀ name ∈ ([] : List Text), Text.isIdentifierSegment name = true := by
      intro name memberName
      cases memberName
    apply exists_findReferences_of_place marker valid named member rfl text properFront
      (.inl rfl)
    · intro count least most
      exact absurd (Nat.lt_of_le_of_lt least most) (Nat.lt_irrefl 2)
    · intro candidates shown picked
      simp only [ResolveContext.resolve, ↓reduceIte, found]
      simp [bind, Except.bind, pure, Except.pure, picked]

/-- Of two cultures the neutral one is shown, under the full path and under the short one. -/
theorem findReferences_ownName_cultures :
    let german : Entry :=
      ⟨"K-1".toList, "eins".toList, ⟨"App".toList, "Texts".toList, some "de".toList, []⟩⟩
    let neutral : Entry :=
      ⟨"K-1".toList, "one".toList, ⟨"App".toList, "Texts".toList, none, []⟩⟩
    let context : ResolveContext := ⟨.ofList [german, neutral], ⟨["App".toList], []⟩, none⟩
    ∀ text ∈ ["App.Texts.K_1".toList, "Texts.K_1".toList],
      findReferences (.csharp defaultMarker) context .none .start text =
        .ok [neutral.referenceAt .none .start text] := by
  intro german neutral context text member
  have shortest :
      ∀ front rest, german.fullPath = front ++ '.' :: rest →
        (Trie.ofList [german, neutral]).isTerminal front = false := by
    have starts :
        ∀ front ∈ german.fullPath.inits, front ≠ german.fullPath →
          (Trie.ofList [german, neutral]).isTerminal front = false := by
      decide +kernel
    intro front rest shape
    apply starts front
    · rw [List.mem_inits, shape]
      exact List.prefix_append _ _
    · intro same
      rw [same] at shape
      simpa using congrArg List.length shape
  obtain ⟨full, short⟩ :=
    findReferences_ownName defaultMarker [german, neutral] ⟨["App".toList], []⟩ none .none
      .start german (by decide) (by decide) (by decide) (by decide)
  have shownNeutral :
      ∀ shown,
        IsShown none
            ([german, neutral].filter fun other => other.fullPath = german.fullPath) shown →
          shown = neutral := by
    intro shown isShown
    cases isShown with
    | preferred prefers _ =>
        cases prefers
    | neutral _ first =>
        exact (Option.some.inj first).symm
    | first _ cultured _ =>
        exact absurd rfl (cultured neutral (by decide))
  rcases List.mem_pair.mp member with rfl | rfl
  · obtain ⟨shown, isShown, -, found⟩ := full (by decide) (by decide) shortest
    cases shownNeutral shown isShown
    exact found
  · obtain ⟨shown, isShown, -, found⟩ := short (by decide) (by decide) (by decide)
    cases shownNeutral shown isShown
    exact found

end OwnNames

end LocalizationScan
