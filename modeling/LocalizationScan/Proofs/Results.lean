namespace LocalizationScan

/-!
# Results that may fail

A result is a failure or a value, and a search of a list has one for each
item.  What such a result is can be traced back through changes and through
searches, and two results can be compared, or their failures bounded, part by
part.
-/

variable {error item found : Type}

/-- Finding nothing leaves what is found later as it is. -/
theorem Except.map_toList_none (later : Except error (List item)) :
    later.map ((none : Option item).toList ++ ·) = later := by
  cases later <;> rfl

/-- What goes on from a result and succeeds goes on from a success. -/
theorem Except.exists_of_bind_eq_ok
    {result : Except error item}
    {next : item → Except error found}
    {value : found}
    (bound : result >>= next = .ok value) :
    ∃ source, result = .ok source ∧ next source = .ok value := by
  cases result with
  | error error =>
      cases bound
  | ok source =>
      exact ⟨source, rfl, bound⟩

theorem Except.exists_of_map_eq_ok
    {result : Except error item}
    {change : item → found}
    {value : found}
    (mapped : result.map change = .ok value) :
    ∃ source, result = .ok source ∧ change source = value := by
  cases result with
  | error error =>
      cases mapped
  | ok source =>
      exact ⟨source, rfl, Except.ok.inj mapped⟩

theorem Except.eq_ok_of_mapError_eq_ok
    {wider : Type}
    {result : Except error item}
    {change : error → wider}
    {value : item}
    (mapped : result.mapError change = .ok value) :
    result = .ok value := by
  cases result with
  | error error =>
      cases mapped
  | ok source =>
      exact congrArg Except.ok (Except.ok.inj mapped)

/-- Something that is found and changed was found before the change. -/
theorem exists_of_map_eq_ok_some
    {result : Except error (Option item)}
    {change : item → found}
    {changed : found}
    (mapped : result.map (fun found => found.map change) = .ok (some changed)) :
    ∃ source, result = .ok (some source) ∧ change source = changed := by
  obtain ⟨source?, succeeds, same⟩ := Except.exists_of_map_eq_ok mapped
  obtain ⟨source, rfl, changes⟩ := Option.map_eq_some_iff.mp same
  exact ⟨source, succeeds, changes⟩

/-- What is found among some items is found at one of them. -/
theorem exists_of_findSomeM?_eq_ok
    {search : item → Except error (Option found)}
    {items : List item}
    {result : found}
    (searched : items.findSomeM? search = .ok (some result)) :
    ∃ item ∈ items, search item = .ok (some result) := by
  induction items with
  | nil =>
      cases searched
  | cons first rest inductionHypothesis =>
      rw [List.findSomeM?_cons] at searched
      cases here : search first with
      | error error =>
          rw [here] at searched
          cases searched
      | ok found? =>
          rw [here] at searched
          cases found? with
          | some found =>
              cases searched
              exact ⟨first, List.mem_cons_self, here⟩
          | none =>
              obtain ⟨item, member, found⟩ := inductionHypothesis searched
              exact ⟨item, List.mem_cons_of_mem _ member, found⟩

/-- Searches that all succeed succeed together. -/
theorem mapM_eq_ok_map
    {search : item → Except error found}
    {result : item → found}
    {items : List item}
    (succeeds : ∀ item ∈ items, search item = .ok (result item)) :
    items.mapM search = .ok (items.map result) := by
  induction items with
  | nil =>
      rfl
  | cons first rest inductionHypothesis =>
      obtain ⟨here, later⟩ := List.forall_mem_cons.mp succeeds
      rw [List.mapM_cons, here, inductionHypothesis later]
      rfl

/-- Each result of searches that succeed together is that of one of them. -/
theorem exists_of_mem_of_mapM_eq_ok
    {search : item → Except error found}
    {items : List item}
    {results : List found}
    (searched : items.mapM search = .ok results)
    {result : found}
    (member : result ∈ results) :
    ∃ item ∈ items, search item = .ok result := by
  induction items generalizing results with
  | nil =>
      cases searched
      cases member
  | cons first rest inductionHypothesis =>
      rw [List.mapM_cons] at searched
      obtain ⟨here, searchedHere, searched⟩ := Except.exists_of_bind_eq_ok searched
      obtain ⟨later, searchedLater, same⟩ := Except.exists_of_bind_eq_ok searched
      cases same
      rcases List.mem_cons.mp member with rfl | memberLater
      · exact ⟨first, List.mem_cons_self, searchedHere⟩
      · obtain ⟨item, memberItem, searchedItem⟩ :=
          inductionHypothesis searchedLater memberLater
        exact ⟨item, List.mem_cons_of_mem _ memberItem, searchedItem⟩

/-- Searches for lists that succeed together have each found the list at its place. -/
theorem exists_map_of_mapM_eq_ok
    {search : item → Except error (List found)}
    {items : List item}
    {results : List (List found)}
    (searched : items.mapM search = .ok results) :
    (∀ item ∈ items, search item = .ok ((search item).toOption.getD [])) ∧
      results = items.map fun item => (search item).toOption.getD [] := by
  induction items generalizing results with
  | nil =>
      cases searched
      exact ⟨fun _ member => (nomatch member), rfl⟩
  | cons first rest inductionHypothesis =>
      rw [List.mapM_cons] at searched
      obtain ⟨here, searchedHere, searched⟩ := Except.exists_of_bind_eq_ok searched
      obtain ⟨later, searchedLater, same⟩ := Except.exists_of_bind_eq_ok searched
      cases same
      obtain ⟨succeeds, rfl⟩ := inductionHypothesis searchedLater
      refine ⟨List.forall_mem_cons.mpr ⟨?_, succeeds⟩, ?_⟩
      · rw [searchedHere]
        rfl
      · rw [List.map_cons, searchedHere]
        rfl

/-- Results that are the same failure, or values in a relation. -/
inductive Agree (related : item → item → Prop) : Except error item → Except error item → Prop where
  | error (failure : error) : Agree related (.error failure) (.error failure)
  | ok {value other : item} (values : related value other) : Agree related (.ok value) (.ok other)

section Agreement

variable {related : item → item → Prop} {relatedFound : found → found → Prop}
  {result other : Except error item}

/-- Results that agree still agree when both go on alike. -/
theorem Agree.bind
    {next nextOther : item → Except error found}
    (agree : Agree related result other)
    (goesOn :
      ∀ value otherValue, related value otherValue →
        Agree relatedFound (next value) (nextOther otherValue)) :
    Agree relatedFound (result >>= next) (other >>= nextOther) := by
  cases agree with
  | error failure =>
      exact .error failure
  | ok values =>
      exact goesOn _ _ values

theorem Agree.map
    {change changeOther : item → found}
    (agree : Agree related result other)
    (changes :
      ∀ value otherValue, related value otherValue →
        relatedFound (change value) (changeOther otherValue)) :
    Agree relatedFound (result.map change) (other.map changeOther) := by
  cases agree with
  | error failure =>
      exact .error failure
  | ok values =>
      exact .ok (changes _ _ values)

theorem Agree.mapError
    {wider : Type}
    (agree : Agree related result other)
    (change : error → wider) :
    Agree related (result.mapError change) (other.mapError change) := by
  cases agree with
  | error failure =>
      exact .error (change failure)
  | ok values =>
      exact .ok values

end Agreement

/-- Results that are values, or failures of some sort only. -/
inductive FailsOnly (expected : error → Prop) : Except error item → Prop where
  | ok (value : item) : FailsOnly expected (.ok value)
  | error {failure : error} (isExpected : expected failure) : FailsOnly expected (.error failure)

section Failures

variable {expected : error → Prop} {result : Except error item}

/-- What goes on from a result fails as the result does or as what goes on does. -/
theorem FailsOnly.bind
    {next : item → Except error found}
    (failsOnly : FailsOnly expected result)
    (goesOn : ∀ value, FailsOnly expected (next value)) :
    FailsOnly expected (result >>= next) := by
  cases failsOnly with
  | error isExpected =>
      exact .error isExpected
  | ok value =>
      exact goesOn value

theorem FailsOnly.map
    (failsOnly : FailsOnly expected result)
    (change : item → found) :
    FailsOnly expected (result.map change) := by
  cases failsOnly with
  | error isExpected =>
      exact .error isExpected
  | ok value =>
      exact .ok (change value)

theorem FailsOnly.mapError
    {wider : Type}
    {change : error → wider}
    {expectedWider : wider → Prop}
    (failsOnly : FailsOnly expected result)
    (changes : ∀ failure, expected failure → expectedWider (change failure)) :
    FailsOnly expectedWider (result.mapError change) := by
  cases failsOnly with
  | error isExpected =>
      exact .error (changes _ isExpected)
  | ok value =>
      exact .ok value

/-- Searches of a list fail as one of them does. -/
theorem FailsOnly.mapM
    {search : item → Except error found}
    {items : List item}
    (searches : ∀ item ∈ items, FailsOnly expected (search item)) :
    FailsOnly expected (items.mapM search) := by
  induction items with
  | nil =>
      exact .ok []
  | cons first rest inductionHypothesis =>
      obtain ⟨here, later⟩ := List.forall_mem_cons.mp searches
      rw [List.mapM_cons]
      exact here.bind fun _ => (inductionHypothesis later).bind fun _ => .ok _

/-- What cannot fail as expected succeeds. -/
theorem FailsOnly.exists_eq_ok
    (failsOnly : FailsOnly expected result)
    (never : ∀ failure, ¬expected failure) :
    ∃ value, result = .ok value := by
  cases failsOnly with
  | error isExpected =>
      exact absurd isExpected (never _)
  | ok value =>
      exact ⟨value, rfl⟩

end Failures

end LocalizationScan
