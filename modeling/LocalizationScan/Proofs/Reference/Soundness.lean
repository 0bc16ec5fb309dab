import Mathlib
import LocalizationScan.Proofs.Reference.Walking
import LocalizationScan.Proofs.Resource.Names

namespace LocalizationScan

/-!
# Soundness of references

Every reference that is found names an entry: its last two segments are the
class and the property of the entry, and the segments before them, or the
namespaces in scope, lead to the namespace of the class.
-/

/-- Whether a full name is that of a class with entries. -/
def IsKnownClass (entries : List Entry) (name : Text) : Prop :=
  ∃ entry ∈ entries, entry.origin.qualifiedClass = name

/-- Why a class that is written behind some segments lies in a namespace. -/
inductive Justifies
    (entries : List Entry)
    (scope : Scope)
    (className : Text) :
    (leading : List Text) → (name : Text) → Prop where
  /-- Without segments before it the class lies in one namespace in scope only. -/
  | unqualified
      {name : Text}
      (inScope : name ∈ [] :: scope.namespaces)
      (known : IsKnownClass entries (qualify name className))
      (unique :
        ∀ other ∈ [] :: scope.namespaces,
          IsKnownClass entries (qualify other className) → other = name) :
      Justifies entries scope className [] name
  | alias
      {leading : List Text}
      {target : Text}
      (qualified : leading ≠ [])
      (aliased : scope.aliases.lookup (Text.joinWith ['.'] leading) = some target) :
      Justifies entries scope className leading target
  | itself
      {leading : List Text}
      (qualified : leading ≠ [])
      (unaliased : scope.aliases.lookup (Text.joinWith ['.'] leading) = none) :
      Justifies entries scope className leading (Text.joinWith ['.'] leading)
  /-- The segments are the rest of the namespace behind one in scope, and behind no other do
  they lead to the class. -/
  | nested
      {leading : List Text}
      {outer : Text}
      (qualified : leading ≠ [])
      (unaliased : scope.aliases.lookup (Text.joinWith ['.'] leading) = none)
      (inScope : outer ∈ scope.namespaces)
      (nonempty : outer ≠ [])
      (known :
        IsKnownClass entries
          (outer ++ '.' :: Text.joinWith ['.'] (leading ++ [className])))
      (unique :
        ∀ other ∈ [] :: scope.namespaces,
          IsKnownClass entries (qualify other (Text.joinWith ['.'] (leading ++ [className]))) →
          other = outer) :
      Justifies entries scope className leading (outer ++ '.' :: Text.joinWith ['.'] leading)

section Lookup

variable {entries : List Entry} {scope : Scope}

/-- A search that finds a namespace finds the only one that declares the class. -/
theorem Scope.unique_of_searchType
    {trie : Trie}
    {name result : Text}
    {found : Option Text}
    {candidates : List Text}
    (searched : searchType trie name found candidates = .ok (some result)) :
    (found = some result ∨
        found = none ∧ result ∈ candidates ∧
          trie.containsClass (qualify result name) = true) ∧
      ∀ other ∈ candidates,
        trie.containsClass (qualify other name) = true → other = result := by
  induction candidates generalizing found with
  | nil =>
      cases searched
      exact ⟨.inl rfl, fun other member => by cases member⟩
  | cons candidate candidates inductionHypothesis =>
      unfold searchType at searched
      split at searched
      · cases searched
      · split at searched
        · rename_i known
          split at searched
          · obtain ⟨first, unique⟩ := inductionHypothesis searched
            have same : candidate = result := by
              rcases first with first | ⟨first, _⟩
              · exact Option.some.inj first
              · cases first
            subst same
            exact ⟨.inr ⟨rfl, List.mem_cons_self, known⟩,
              List.forall_mem_cons.mpr ⟨fun _ => rfl, unique⟩⟩
          · rename_i earlier
            -- A second namespace that declares the class would have been an error.
            split at searched
            · rename_i same
              obtain ⟨first, unique⟩ := inductionHypothesis searched
              rcases first with first | ⟨first, _⟩
              · cases first
                exact ⟨.inl rfl, List.forall_mem_cons.mpr ⟨fun _ => same.symm, unique⟩⟩
              · cases first
            · cases searched
        · rename_i unknown
          obtain ⟨first, unique⟩ := inductionHypothesis searched
          refine ⟨first.imp_right fun ⟨nothing, member, known⟩ =>
            ⟨nothing, List.mem_cons_of_mem _ member, known⟩, ?_⟩
          exact List.forall_mem_cons.mpr ⟨fun known => absurd known unknown, unique⟩

/-- A type that is resolved lies in the only namespace in scope that declares it. -/
theorem Scope.unique_of_resolveType
    {name result : Text}
    (resolved : scope.resolveType name (.ofList entries) = .ok (some result)) :
    result ∈ [] :: scope.namespaces ∧
      IsKnownClass entries (qualify result name) ∧
      ∀ other ∈ [] :: scope.namespaces,
        IsKnownClass entries (qualify other name) → other = result := by
  obtain ⟨first, unique⟩ := unique_of_searchType resolved
  rcases first with first | ⟨_, member, known⟩
  · cases first
  · exact ⟨member, (Trie.containsClass_ofList entries _).mp known,
      fun other memberOther knownOther =>
        unique other memberOther ((Trie.containsClass_ofList entries _).mpr knownOther)⟩

theorem mem_of_choose
    {preferred? : Option Origin}
    {candidates : List Entry}
    {entry : Entry}
    (chosen : choose preferred? candidates = some entry) :
    entry ∈ candidates := by
  unfold choose at chosen
  rcases Option.or_eq_some_iff.mp chosen with preferred | ⟨_, others⟩
  · obtain ⟨origin, _, found⟩ := Option.bind_eq_some_iff.mp preferred
    exact List.mem_of_find?_eq_some found
  · rcases Option.or_eq_some_iff.mp others with neutral | ⟨_, first⟩
    · exact List.mem_of_find?_eq_some neutral
    · exact List.mem_of_head? first

theorem ResolveContext.mem_of_pick
    {context : ResolveContext}
    {candidates : List Entry}
    {name : Text}
    {entry : Entry}
    (picked : context.pick candidates name = some entry) :
    entry ∈ candidates ∧ entry.origin.scope = name := by
  have member := mem_of_choose picked
  simpa using member

theorem ResolveContext.scope_ne_of_pick_none
    {context : ResolveContext}
    {candidates : List Entry}
    {name : Text}
    (nothing : context.pick candidates name = none)
    (entry : Entry)
    (member : entry ∈ candidates) :
    entry.origin.scope ≠ name := by
  intro same
  unfold pick choose at nothing
  have noneLeft := (Option.or_eq_none_iff.mp (Option.or_eq_none_iff.mp nothing).2).2
  have matching : entry ∈ candidates.filter fun entry => entry.origin.scope = name := by
    simp [member, same]
  rw [List.head?_eq_none_iff.mp noneLeft] at matching
  cases matching

/-- A type that is found in the scope justifies the namespace in which it is picked. -/
theorem ResolveContext.exists_of_bind_pick
    {context : ResolveContext}
    {candidates : List Entry}
    {entry : Entry}
    (place : Text → Text)
    {found : Except ScopeError (Option Text)}
    (picked :
      (found >>= fun name? =>
        pure (name?.bind fun name => context.pick candidates (place name))) =
        .ok (some entry)) :
    ∃ name,
      found = .ok (some name) ∧ entry ∈ candidates ∧ entry.origin.scope = place name := by
  obtain ⟨name?, succeeds, pickedFrom⟩ := Except.exists_of_bind_eq_ok picked
  obtain ⟨name, rfl, pickedHere⟩ := Option.bind_eq_some_iff.mp (Except.ok.inj pickedFrom)
  obtain ⟨member, same⟩ := mem_of_pick pickedHere
  exact ⟨name, succeeds, member, same⟩

/-- Behind a namespace in scope the segments lead to the entry when they are no namespace of
their own with a candidate. -/
theorem ResolveContext.justifies_of_nested
    {preferred? : Option Origin}
    {leading : List Text}
    {className : Text}
    {candidates : List Entry}
    {entry : Entry}
    (qualified : leading ≠ [])
    (unaliased : scope.aliases.lookup (Text.joinWith ['.'] leading) = none)
    (nothing :
      pick ⟨.ofList entries, scope, preferred?⟩ candidates (Text.joinWith ['.'] leading) = none)
    (resolved :
      (scope.resolveType (Text.joinWith ['.'] (leading ++ [className])) (.ofList entries) >>=
        fun name? =>
          pure (name?.bind fun name =>
            pick ⟨.ofList entries, scope, preferred?⟩ candidates
              (qualify name (Text.joinWith ['.'] leading)))) =
        .ok (some entry)) :
    entry ∈ candidates ∧ Justifies entries scope className leading entry.origin.scope := by
  obtain ⟨outer, found, member, same⟩ :=
    exists_of_bind_pick (fun name => qualify name (Text.joinWith ['.'] leading)) resolved
  obtain ⟨inScope, known, unique⟩ := Scope.unique_of_resolveType found
  have nonempty : outer ≠ [] := by
    rintro rfl
    exact scope_ne_of_pick_none nothing entry member same
  have qualifies : ∀ name, qualify outer name = outer ++ '.' :: name := fun name => by
    simp [qualify, nonempty]
  rw [qualifies] at same known
  rw [same]
  exact ⟨member,
    .nested qualified unaliased ((List.mem_cons.mp inScope).resolve_left nonempty) nonempty
      known unique⟩

/-- The entry that a chain resolves to lies in a justified namespace. -/
theorem ResolveContext.justifies_of_resolve
    {preferred? : Option Origin}
    {leading : List Text}
    {className key : Text}
    {candidates : List Entry}
    {entry : Entry}
    (resolved :
      resolve ⟨.ofList entries, scope, preferred?⟩
          ⟨if leading = [] then none else some (Text.joinWith ['.'] leading), className, key⟩
          candidates =
        .ok (some entry)) :
    entry ∈ candidates ∧ Justifies entries scope className leading entry.origin.scope := by
  by_cases alone : leading = []
  · subst alone
    obtain ⟨name, found, member, same⟩ := exists_of_bind_pick id resolved
    obtain ⟨inScope, known, unique⟩ := Scope.unique_of_resolveType found
    subst same
    exact ⟨member, .unqualified inScope known unique⟩
  · simp only [alone, ↓reduceIte, resolve, Scope.resolveAlias] at resolved
    cases aliased : scope.aliases.lookup (Text.joinWith ['.'] leading) with
    | some target =>
        simp only [aliased] at resolved
        split at resolved
        · obtain ⟨member, same⟩ := mem_of_pick (Except.ok.inj resolved)
          subst same
          exact ⟨member, .alias alone aliased⟩
        · cases resolved
    | none =>
        simp only [aliased] at resolved
        cases picked :
            pick ⟨.ofList entries, scope, preferred?⟩ candidates
              (Text.joinWith ['.'] leading) with
        | some chosen =>
            have same : chosen = entry := by
              simpa [picked, pure, Except.pure, bind, Except.bind] using resolved
            subst same
            obtain ⟨member, same⟩ := mem_of_pick picked
            rw [same]
            exact ⟨member, .itself alone aliased⟩
        | none =>
            have partialName :
                Text.joinWith ['.'] leading ++ '.' :: className =
                  Text.joinWith ['.'] (leading ++ [className]) := by
              rw [Text.joinWith_append ['.'] alone (by simp)]
              simp [Text.joinWith]
            simp only [bind, Except.bind, picked, partialName] at resolved
            exact justifies_of_nested alone aliased picked resolved

end Lookup

section Paths

/-- A walk has taken the last segments. -/
theorem exists_drop_of_foldl_advanceWalk
    {paths : List Text}
    {walked? : Option Text}
    {path : Text}
    (before rest : List Segment)
    (start :
      ∀ walked, walked? = some walked →
        ∃ count < before.length, walked = Segment.joined (before.drop count))
    (walks : (rest.map Segment.text).foldl (advanceWalk paths) walked? = some path) :
    ∃ count < (before ++ rest).length, path = Segment.joined ((before ++ rest).drop count) := by
  induction rest generalizing before walked? with
  | nil =>
      rw [List.append_nil]
      exact start path walks
  | cons segment rest inductionHypothesis =>
      have shape : before ++ segment :: rest = before ++ [segment] ++ rest := by simp
      have alone : ∃ count < (before ++ [segment]).length,
          segment.text = Segment.joined ((before ++ [segment]).drop count) :=
        ⟨before.length, by simp, by simp [Segment.joined, Text.joinWith]⟩
      rw [shape]
      refine inductionHypothesis (before ++ [segment]) ?_ walks
      intro walked advanced
      simp only [advanceWalk, Option.ite_none_right_eq_some, Option.some.injEq] at advanced
      obtain ⟨_, rfl⟩ := advanced
      cases walked? with
      | none =>
          exact alone
      | some earlier =>
          dsimp only
          split
          · obtain ⟨count, inside, rfl⟩ := start earlier rfl
            refine ⟨count, by simp; omega, ?_⟩
            rw [List.drop_append_of_le_length (Nat.le_of_lt inside),
              Segment.joined_concat segment (by simpa using inside)]
          · exact alone

theorem exists_drop_of_walkOf
    {paths : List Text}
    {segments : List Segment}
    {path : Text}
    (walks : walkOf paths segments = some path) :
    ∃ count < segments.length, path = Segment.joined (segments.drop count) :=
  exists_drop_of_foldl_advanceWalk [] segments (fun _ walked => by cases walked) walks

theorem Segment.splitOn_joined
    {segments : List Segment}
    (nonempty : segments ≠ []) :
    Text.splitOn '.' (joined segments) = segments.map text := by
  refine Text.splitOn_joinWith (by simpa using nonempty) ?_
  intro piece member
  obtain ⟨segment, _, rfl⟩ := List.mem_map.mp member
  exact segment.dot_not_mem

/-- Segments are cut into the last two and those before them. -/
theorem Segment.exists_of_ofText?
    {segments : List Segment}
    {dotted : DottedReference}
    (cut : DottedReference.ofText? (joined segments) = some dotted) :
    ∃ leading className key,
      segments.map text = leading ++ [className, key] ∧
        dotted =
          ⟨if leading = [] then none else some (Text.joinWith ['.'] leading), className, key⟩ := by
  have nonempty : segments ≠ [] := by
    rintro rfl
    cases cut
  rw [← Segment.splitOn_joined nonempty]
  exact DottedReference.exists_pieces_of_ofText? cut

/-- Segments whose walk ends on a path of an entry end with its class and its property, and
the path holds those before them that the walk has taken. -/
theorem exists_front_of_walkOf
    {paths : List Text}
    {segments : List Segment}
    {entry : Entry}
    {path : Text}
    (dotFree : '.' ∉ entry.origin.className)
    (walks : walkOf paths segments = some path)
    (onPath : path ∈ entry.paths) :
    ∃ leading front,
      segments.map Segment.text =
          leading ++ front ++ [entry.origin.className, entry.propertyName] ∧
        path = Text.joinWith ['.'] (front ++ [entry.origin.className, entry.propertyName]) := by
  obtain ⟨front, names⟩ := Entry.splitOn_of_mem_paths dotFree onPath
  obtain ⟨count, inside, rfl⟩ := exists_drop_of_walkOf walks
  rw [Segment.splitOn_joined (by simpa using inside)] at names
  refine ⟨(segments.take count).map Segment.text, front, ?_, ?_⟩
  · rw [List.append_assoc, ← names, ← List.map_append, List.take_append_drop]
  · rw [← names, Segment.joined]

end Paths

/-- What a reference says about the entry that it stands for, whose class is written behind
some leading segments. -/
structure Reference.StandsFor
    (reference : Reference)
    (entries : List Entry)
    (scope : Scope)
    (leading : List Text)
    (entry : Entry) :
    Prop where
  key : reference.key = entry.key
  value : reference.value = entry.value
  origin : reference.origin = entry.origin
  fullText : reference.fullText = entry.fullPath
  segments :
    Text.splitOn '.' reference.originalText =
      leading ++ [entry.origin.className, entry.propertyName]
  justified : Justifies entries scope entry.origin.className leading entry.origin.scope

section References

variable {entries : List Entry} {scope : Scope} {preferred? : Option Origin} {flags : ItemFlags}
  {reference : Reference}

/-- Segments that stand for a reference name its entry. -/
theorem exists_entry_of_segmentReference?
    {segments : List Segment}
    (dotFree : ∀ entry ∈ entries, '.' ∉ entry.origin.className)
    (found : segmentReference? entries scope preferred? flags segments = .ok (some reference)) :
    ∃ entry ∈ entries, ∃ leading, reference.StandsFor entries scope leading entry := by
  unfold segmentReference? at found
  split at found
  · cases found
  · rename_i path walks
    split at found
    · split at found
      · cases found
      · rename_i dotted cut
        obtain ⟨leading, className, key, shape, rfl⟩ := Segment.exists_of_ofText? cut
        obtain ⟨entry, resolved, rfl⟩ := exists_of_map_eq_ok_some found
        obtain ⟨candidate, justified⟩ := ResolveContext.justifies_of_resolve resolved
        simp only [List.mem_filter, List.contains_iff_mem] at candidate
        obtain ⟨member, onPath⟩ := candidate
        -- The path holds the last segments of the chain and ends with the class and the property
        -- of its entry, so the chain is cut in front of these two.
        obtain ⟨others, front, whole, -⟩ :=
          exists_front_of_walkOf (dotFree entry member) walks onPath
        obtain ⟨sameLeading, sameNames⟩ := List.append_inj' (shape.symm.trans whole) rfl
        cases sameNames
        refine ⟨entry, member, leading, rfl, rfl, rfl, rfl, ?_, justified⟩
        have original :
            (Reference.ofEntry _ entry (Segment.spanOf segments) flags).originalText =
              Segment.joined segments :=
          DottedReference.toText_of_ofText? cut
        rw [original, Segment.splitOn_joined (by rintro rfl; simp at shape), shape]
    · cases found

/-- The references of chains are each found in one of them. -/
theorem exists_chain_of_mem_chainReferences
    {chains : List (List Segment)}
    {items : List Reference}
    (found : chainReferences entries scope preferred? flags chains = .ok items)
    (member : reference ∈ items) :
    ∃ chain ∈ chains,
      chainReference? entries scope preferred? flags chain = .ok (some reference) := by
  obtain ⟨results, searched, rfl⟩ := Except.exists_of_map_eq_ok found
  obtain ⟨reported?, memberReported, same⟩ := List.mem_filterMap.mp member
  cases same
  exact exists_of_mem_of_mapM_eq_ok searched memberReported

end References

/-- Every reference that is found stands for an entry: the entry has its key, its value and
its full name, and the chain that is written leads to the class of the entry. -/
theorem exists_entry_of_mem_findReferences
    (dialect : Dialect)
    (entries : List Entry)
    (scope : Scope)
    (preferred? : Option Origin)
    (flags : ItemFlags)
    (anchor : Position)
    (block : Text)
    (dotFree : ∀ entry ∈ entries, '.' ∉ entry.origin.className)
    (items : List Reference)
    (found :
      findReferences dialect ⟨.ofList entries, scope, preferred?⟩ flags anchor block = .ok items)
    (item : Reference)
    (member : item ∈ items) :
    ∃ entry ∈ entries, ∃ leading, item.StandsFor entries scope leading entry := by
  unfold findReferences at found
  split at found
  · cases found
  · have searched := Except.eq_ok_of_mapError_eq_ok found
    rw [Dialect.references_eq_chainReferences] at searched
    obtain ⟨chain, _, reported⟩ := exists_chain_of_mem_chainReferences searched member
    obtain ⟨count, _, resolved⟩ := exists_of_findSomeM?_eq_ok reported
    exact exists_entry_of_segmentReference? dotFree resolved

/-- A chain behind an enclosing namespace stands for the only entry that was inserted. -/
theorem exists_entry_of_mem_findReferences_nested :
    let entry : Entry := ⟨"k 1".toList, "Hi".toList, ⟨"A.B".toList, "R".toList, none, []⟩⟩
    let item : Reference :=
      ⟨"B.R.k_1".toList, "A.B.R.k_1".toList, "k 1".toList, "Hi".toList, entry.origin,
        ⟨⟨1, 2, 1⟩, ⟨1, 15, 14⟩⟩, .none⟩
    findReferences (.csharp defaultMarker) ⟨.ofList [entry], ⟨["A".toList], []⟩, none⟩ .none
          .start "(B.R /**/. k_1)".toList = .ok [item] ∧
      ∃ other ∈ [entry], ∃ leading,
        item.StandsFor [entry] ⟨["A".toList], []⟩ leading other := by
  intro entry item
  have found :
      findReferences (.csharp defaultMarker) ⟨.ofList [entry], ⟨["A".toList], []⟩, none⟩ .none
        .start "(B.R /**/. k_1)".toList = .ok [item] := by
    simp only [entry, item]
    cbv
  exact ⟨found,
    exists_entry_of_mem_findReferences (.csharp defaultMarker) [entry] ⟨["A".toList], []⟩ none
      .none .start "(B.R /**/. k_1)".toList (by decide) [item] found item List.mem_cons_self⟩

end LocalizationScan
