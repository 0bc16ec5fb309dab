import LocalizationScan.Proofs.Reference.OwnNames

namespace LocalizationScan

/-!
# The order of resource entries

The order in which entries are inserted can only show where several entries of
one namespace end at one node, of which the first that fits is chosen.  Such
entries share their full path.  When each full path has one culture-neutral
entry, and one entry of each culture at most, no more than one of them fits,
and the references of a block do not depend on the order.
-/

/-- Entries in which every full path has exactly one culture-neutral entry, and no two share
both their full path and their culture. -/
structure Entry.AreApart (entries : List Entry) : Prop where
  neutral :
    ∀ entry ∈ entries,
      entries.countP (fun other =>
        other.fullPath = entry.fullPath ∧ other.origin.culture? = none) = 1
  distinct : (entries.map fun entry => (entry.fullPath, entry.origin.culture?)).Nodup

section Choice

variable {entries candidates others : List Entry} {entry other : Entry} {path : Text}

theorem Entry.AreApart.eq_of_fullPath_eq
    (apart : AreApart entries)
    (member : entry ∈ entries)
    (memberOther : other ∈ entries)
    (samePath : entry.fullPath = other.fullPath)
    (sameCulture : entry.origin.culture? = other.origin.culture?) :
    entry = other :=
  List.inj_on_of_nodup_map apart.distinct member memberOther
    (Prod.ext samePath sameCulture)

theorem Entry.AreApart.exists_neutral
    (apart : AreApart entries)
    (member : entry ∈ entries) :
    ∃ neutral ∈ entries,
      neutral.fullPath = entry.fullPath ∧ neutral.origin.culture? = none := by
  have some : 0 < entries.countP fun other =>
      other.fullPath = entry.fullPath ∧ other.origin.culture? = none := by
    rw [apart.neutral entry member]
    exact Nat.zero_lt_one
  obtain ⟨neutral, memberNeutral, fits⟩ := List.countP_pos_iff.mp some
  exact ⟨neutral, memberNeutral, of_decide_eq_true fits⟩

/-- Entries of one namespace that end at one node share their full path. -/
theorem Entry.fullPath_eq_of_mem_paths
    (dotFree : '.' ∉ entry.origin.className)
    (dotFreeOther : '.' ∉ other.origin.className)
    (member : path ∈ entry.paths)
    (memberOther : path ∈ other.paths)
    (sameScope : entry.origin.scope = other.origin.scope) :
    entry.fullPath = other.fullPath := by
  obtain ⟨front, names⟩ := splitOn_of_mem_paths dotFree member
  obtain ⟨frontOther, namesOther⟩ := splitOn_of_mem_paths dotFreeOther memberOther
  rw [names] at namesOther
  obtain ⟨-, sameNames⟩ := List.append_inj' namesOther rfl
  obtain ⟨sameClass, sameProperty⟩ := List.cons_eq_cons.mp sameNames
  simp only [fullPath, Origin.qualifiedClass, sameScope, sameClass,
    (List.cons_eq_cons.mp sameProperty).1]

/-- Which of some candidates is chosen does not depend on their order when they differ in
their cultures and one of them is culture-neutral. -/
theorem choose_eq_of_perm
    (preferred? : Option Origin)
    (permuted : candidates.Perm others)
    (distinct :
      ∀ entry ∈ candidates, ∀ other ∈ candidates,
        entry.origin.culture? = other.origin.culture? → entry = other)
    (neutral : candidates ≠ [] → ∃ entry ∈ candidates, entry.origin.culture? = none) :
    choose preferred? candidates = choose preferred? others := by
  have samePreferred :
      ∀ preferred : Origin,
        candidates.find? (fun entry => entry.origin = preferred) =
          others.find? (fun entry => entry.origin = preferred) := by
    intro preferred
    apply List.find?_eq_find?_of_perm permuted
    rintro entry ⟨member, fits⟩ other ⟨memberOther, fitsOther⟩
    apply distinct entry member other memberOther
    rw [of_decide_eq_true fits, of_decide_eq_true fitsOther]
  have sameNeutral :
      candidates.find? (fun entry => !entry.origin.isCultureSpecific) =
        others.find? (fun entry => !entry.origin.isCultureSpecific) := by
    apply List.find?_eq_find?_of_perm permuted
    rintro entry ⟨member, fits⟩ other ⟨memberOther, fitsOther⟩
    apply distinct entry member other memberOther
    simp_all [Origin.isCultureSpecific]
  unfold choose
  simp only [samePreferred, sameNeutral]
  -- The first candidate is asked for only when there is no neutral one, so when there is none.
  by_cases nothing : candidates = []
  · subst nothing
    rw [List.nil_perm.mp permuted]
  · obtain ⟨first, member, isNeutral⟩ := neutral nothing
    cases found : others.find? fun entry => !entry.origin.isCultureSpecific with
    | some entry =>
        rfl
    | none =>
        have specific := List.find?_eq_none.mp found first (permuted.mem_iff.mp member)
        simp [Origin.isCultureSpecific, isNeutral] at specific

end Choice

section Order

variable {entries permuted : List Entry} {scope : Scope} {preferred? : Option Origin}
  {flags : ItemFlags} {path : Text}

/-- The candidates of a namespace at a node lead to the same entry in any order. -/
theorem ResolveContext.pick_eq_of_perm
    (reordered : entries.Perm permuted)
    (dotFree : ∀ entry ∈ entries, '.' ∉ entry.origin.className)
    (apart : Entry.AreApart entries)
    (path name : Text) :
    pick ⟨.ofList permuted, scope, preferred?⟩
        (permuted.filter fun entry => entry.paths.contains path) name =
      pick ⟨.ofList entries, scope, preferred?⟩
        (entries.filter fun entry => entry.paths.contains path) name := by
  have candidate :
      ∀ {entry},
        entry ∈
            (entries.filter fun entry => entry.paths.contains path).filter
              (fun entry => entry.origin.scope = name) →
          entry ∈ entries ∧ entry.origin.scope = name ∧ path ∈ entry.paths := by
    intro entry member
    simpa using member
  symm
  apply choose_eq_of_perm preferred? ((reordered.filter _).filter _)
  · intro entry member other memberOther sameCulture
    obtain ⟨inserted, inScope, ends⟩ := candidate member
    obtain ⟨insertedOther, inScopeOther, endsOther⟩ := candidate memberOther
    have samePath :=
      Entry.fullPath_eq_of_mem_paths (dotFree entry inserted) (dotFree other insertedOther)
        ends endsOther (inScope.trans inScopeOther.symm)
    exact apart.eq_of_fullPath_eq inserted insertedOther samePath sameCulture
  · intro nonempty
    obtain ⟨entry, member⟩ := List.exists_mem_of_ne_nil _ nonempty
    obtain ⟨inserted, inScope, ends⟩ := candidate member
    obtain ⟨neutral, insertedNeutral, samePath, isNeutral⟩ := apart.exists_neutral inserted
    obtain ⟨sameScope, sameClass, sameProperty⟩ :=
      (Entry.fullPath_eq_iff (dotFree entry inserted) (dotFree neutral insertedNeutral)).mp
        samePath
    have endsNeutral : path ∈ neutral.paths := by
      rw [Entry.mem_paths_iff] at ends ⊢
      simpa only [Entry.classPath, samePath, sameScope, sameClass, sameProperty] using ends
    refine ⟨neutral, ?_, isNeutral⟩
    simp [insertedNeutral, endsNeutral, sameScope, inScope]

/-- A class is looked up in any order of the entries alike. -/
theorem Scope.resolveType_eq_of_perm
    (reordered : entries.Perm permuted)
    (scope : Scope)
    (name : Text) :
    scope.resolveType name (.ofList permuted) = scope.resolveType name (.ofList entries) := by
  have sameClasses :
      ∀ name,
        (Trie.ofList permuted).containsClass name = (Trie.ofList entries).containsClass name := by
    intro name
    rw [Bool.eq_iff_iff, Trie.containsClass_ofList, Trie.containsClass_ofList]
    simp only [reordered.mem_iff]
  unfold resolveType
  generalize [] :: scope.namespaces = candidates
  generalize (none : Option Text) = found
  induction candidates generalizing found with
  | nil =>
      rfl
  | cons candidate candidates inductionHypothesis =>
      simp only [searchType, sameClasses, inductionHypothesis]

/-- What a chain stands for does not depend on the order of the candidates. -/
theorem ResolveContext.resolve_eq_of_perm
    (reordered : entries.Perm permuted)
    (dotFree : ∀ entry ∈ entries, '.' ∉ entry.origin.className)
    (apart : Entry.AreApart entries)
    (dotted : DottedReference)
    (path : Text) :
    resolve ⟨.ofList permuted, scope, preferred?⟩ dotted
        (permuted.filter fun entry => entry.paths.contains path) =
      resolve ⟨.ofList entries, scope, preferred?⟩ dotted
        (entries.filter fun entry => entry.paths.contains path) := by
  unfold resolve
  have picked :
      pick ⟨.ofList permuted, scope, preferred?⟩
          (permuted.filter fun entry => entry.paths.contains path) =
        pick ⟨.ofList entries, scope, preferred?⟩
          (entries.filter fun entry => entry.paths.contains path) :=
    funext (pick_eq_of_perm reordered dotFree apart path)
  simp only [picked, Scope.resolveType_eq_of_perm reordered]

/-- A walk goes on over the same paths in any order of them. -/
theorem walkOf_eq_of_perm
    {paths others : List Text}
    (reordered : paths.Perm others)
    (segments : List Segment) :
    walkOf others segments = walkOf paths segments := by
  have begins : ∀ text, BeginsPath others text ↔ BeginsPath paths text := by
    intro text
    simp only [BeginsPath, reordered.mem_iff]
  have advances : advanceWalk others = advanceWalk paths := by
    funext walked? segment
    simp only [advanceWalk, begins]
  rw [walkOf, walkOf, advances]

theorem segmentReference?_eq_of_perm
    (reordered : entries.Perm permuted)
    (dotFree : ∀ entry ∈ entries, '.' ∉ entry.origin.className)
    (apart : Entry.AreApart entries)
    (segments : List Segment) :
    segmentReference? permuted scope preferred? flags segments =
      segmentReference? entries scope preferred? flags segments := by
  have paths := reordered.flatMap_right Entry.paths
  have contained :
      ∀ path,
        (permuted.flatMap Entry.paths).contains path =
          (entries.flatMap Entry.paths).contains path := by
    intro path
    rw [Bool.eq_iff_iff, List.contains_iff_mem, List.contains_iff_mem, paths.mem_iff]
  simp only [segmentReference?, walkOf_eq_of_perm paths, contained,
    ResolveContext.resolve_eq_of_perm reordered dotFree apart]

/-- The references of a block are the same in any order of the resource entries, when each
full path has one culture-neutral entry and no two entries of one culture. -/
theorem findReferences_perm
    (dialect : Dialect)
    (entries permuted : List Entry)
    (scope : Scope)
    (preferred? : Option Origin)
    (flags : ItemFlags)
    (anchor : Position)
    (block : Text)
    (reordered : entries.Perm permuted)
    (dotFree : ∀ entry ∈ entries, '.' ∉ entry.origin.className)
    (apart : Entry.AreApart entries) :
    findReferences dialect ⟨.ofList permuted, scope, preferred?⟩ flags anchor block =
      findReferences dialect ⟨.ofList entries, scope, preferred?⟩ flags anchor block := by
  have sameSegments :
      segmentReference? permuted scope preferred? flags =
        segmentReference? entries scope preferred? flags :=
    funext (segmentReference?_eq_of_perm reordered dotFree apart)
  have sameChains :
      chainReferences permuted scope preferred? flags =
        chainReferences entries scope preferred? flags := by
    funext chains
    have sameChain :
        chainReference? permuted scope preferred? flags =
          chainReference? entries scope preferred? flags := by
      funext chain
      rw [chainReference?, chainReference?, sameSegments]
    rw [chainReferences, chainReferences, sameChain]
  unfold findReferences
  simp only [Dialect.references_eq_chainReferences, sameChains]

/-- Three entries end at one node.  Whichever is inserted first, the culture-neutral one of
the namespace in scope is reported. -/
theorem findReferences_perm_cultures :
    let german : Entry :=
      ⟨"K-1".toList, "eins".toList, ⟨"App".toList, "Texts".toList, some "de".toList, []⟩⟩
    let neutral : Entry :=
      ⟨"K-1".toList, "one".toList, ⟨"App".toList, "Texts".toList, none, []⟩⟩
    let foreign : Entry :=
      ⟨"K.1".toList, "uno".toList, ⟨"Lib".toList, "Texts".toList, none, []⟩⟩
    let scope : Scope := ⟨["App".toList], []⟩
    let text := "Texts.K_1".toList
    Entry.AreApart [german, neutral, foreign] ∧
      ∀ entries ∈ [[german, neutral, foreign], [foreign, neutral, german]],
        findReferences (.csharp defaultMarker) ⟨.ofList entries, scope, none⟩ .none .start text =
          .ok [neutral.referenceAt .none .start text] := by
  intro german neutral foreign scope text
  have apart : Entry.AreApart [german, neutral, foreign] := ⟨by decide, by decide⟩
  have found :
      findReferences (.csharp defaultMarker)
          ⟨.ofList [german, neutral, foreign], scope, none⟩ .none .start text =
        .ok [neutral.referenceAt .none .start text] := by
    simp only [german, neutral, foreign, scope, text]
    cbv
  refine ⟨apart, ?_⟩
  intro entries member
  rcases List.mem_pair.mp member with rfl | rfl
  · exact found
  · rw [findReferences_perm _ [german, neutral, foreign] _ _ _ _ _ _ (by decide) (by decide)
      apart]
    exact found

end Order

end LocalizationScan
