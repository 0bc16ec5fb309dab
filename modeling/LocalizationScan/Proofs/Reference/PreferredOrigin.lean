import LocalizationScan.Proofs.Reference.OwnNames

namespace LocalizationScan

/-!
# The preferred container

A preferred container decides which entry of a property is shown.  It decides
neither whether a chain is a reference nor of which class: searches with it and
without it are in the same state behind every event, so they find references at
the same places.
-/

/-- Two entries of one class of which the first is that of the preferred container, unless
they are the same. -/
structure Entry.IsAlternative (preferred : Origin) (entry other : Entry) : Prop where
  qualifiedClass : entry.origin.qualifiedClass = other.origin.qualifiedClass
  preferred : entry ≠ other → entry.origin = preferred

/-- Two references that differ at most in the entry that they show; where they do, the first
one shows that of the preferred container. -/
structure Reference.IsAlternative (preferred : Origin) (reference other : Reference) : Prop where
  span : reference.span = other.span
  originalText : reference.originalText = other.originalText
  fullText : reference.fullText = other.fullText
  flags : reference.flags = other.flags
  preferred :
    reference.key ≠ other.key ∨ reference.value ≠ other.value ∨
        reference.origin ≠ other.origin →
      reference.origin = preferred

section Resolution

variable {preferred : Origin} {trie : Trie} {scope : Scope} {candidates : List Entry}

theorem Entry.IsAlternative.refl (preferred : Origin) (entry : Entry) :
    IsAlternative preferred entry entry :=
  ⟨rfl, fun differs => absurd rfl differs⟩

/-- An entry is chosen with a preferred container exactly when one is chosen without it. -/
theorem choose_isAlternative
    (preferred : Origin)
    (sameClass :
      ∀ entry ∈ candidates, ∀ other ∈ candidates,
        entry.origin.qualifiedClass = other.origin.qualifiedClass) :
    Option.Rel (Entry.IsAlternative preferred) (choose (some preferred) candidates)
      (choose none candidates) := by
  cases found : candidates.find? fun entry => entry.origin = preferred with
  | none =>
      have same : choose (some preferred) candidates = choose none candidates := by
        simp [choose, found]
      rw [same]
      cases choose none candidates with
      | none =>
          exact .none
      | some entry =>
          exact .some (.refl preferred entry)
  | some entry =>
      have chosen : choose (some preferred) candidates = some entry := by
        simp [choose, found]
      have member := List.mem_of_find?_eq_some found
      have isPreferred : entry.origin = preferred := by
        simpa using List.find?_some found
      obtain ⟨other, chosenOther, -⟩ :=
        @exists_isShown none candidates (List.ne_nil_of_mem member)
      rw [chosen, chosenOther]
      exact .some
        ⟨sameClass entry member other (mem_of_choose chosenOther), fun _ => isPreferred⟩

namespace ResolveContext

theorem pick_isAlternative
    (preferred : Origin)
    (sameClass :
      ∀ entry ∈ candidates, ∀ other ∈ candidates,
        entry.origin.scope = other.origin.scope →
          entry.origin.className = other.origin.className)
    (name : Text) :
    Option.Rel (Entry.IsAlternative preferred)
      (pick ⟨trie, scope, some preferred⟩ candidates name)
      (pick ⟨trie, scope, none⟩ candidates name) := by
  apply choose_isAlternative
  intro entry member other memberOther
  obtain ⟨candidate, inScope⟩ := List.mem_filter.mp member
  obtain ⟨candidateOther, inScopeOther⟩ := List.mem_filter.mp memberOther
  have sameScope : entry.origin.scope = other.origin.scope :=
    (of_decide_eq_true inScope).trans (of_decide_eq_true inScopeOther).symm
  rw [Origin.qualifiedClass, Origin.qualifiedClass, sameScope,
    sameClass entry candidate other candidateOther sameScope]

/-- Picking in a namespace that a lookup finds, or fails to find. -/
theorem bind_pick_isAlternative
    (preferred : Origin)
    (sameClass :
      ∀ entry ∈ candidates, ∀ other ∈ candidates,
        entry.origin.scope = other.origin.scope →
          entry.origin.className = other.origin.className)
    (place : Text → Text)
    (lookup : Except ScopeError (Option Text)) :
    Agree (Option.Rel (Entry.IsAlternative preferred))
      (lookup >>= fun name? =>
        pure (name?.bind fun name =>
          pick ⟨trie, scope, some preferred⟩ candidates (place name)))
      (lookup >>= fun name? =>
        pure (name?.bind fun name => pick ⟨trie, scope, none⟩ candidates (place name))) := by
  cases lookup with
  | error failure =>
      exact .error failure
  | ok name? =>
      cases name? with
      | none =>
          exact .ok .none
      | some name =>
          exact .ok (pick_isAlternative preferred sameClass (place name))

/-- Every way of resolving a reference goes through the same namespaces with a preferred
container and without it. -/
theorem resolve_isAlternative
    (preferred : Origin)
    (sameClass :
      ∀ entry ∈ candidates, ∀ other ∈ candidates,
        entry.origin.scope = other.origin.scope →
          entry.origin.className = other.origin.className)
    (dotted : DottedReference) :
    Agree (Option.Rel (Entry.IsAlternative preferred))
      (resolve ⟨trie, scope, some preferred⟩ dotted candidates)
      (resolve ⟨trie, scope, none⟩ dotted candidates) := by
  obtain ⟨qualifier?, className, key⟩ := dotted
  cases qualifier? with
  | none =>
      exact bind_pick_isAlternative preferred sameClass id (scope.resolveType className trie)
  | some qualifier =>
      simp only [resolve]
      cases scope.resolveAlias qualifier with
      | error failure =>
          exact .error failure
      | ok target? =>
          cases target? with
          | some target =>
              exact .ok (pick_isAlternative preferred sameClass target)
          | none =>
              have picked :=
                @pick_isAlternative trie scope candidates preferred sameClass qualifier
              simp only [bind, Except.bind]
              generalize
                pick ⟨trie, scope, some preferred⟩ candidates qualifier = chosen at picked ⊢
              generalize
                pick ⟨trie, scope, none⟩ candidates qualifier = chosenOther at picked ⊢
              cases picked with
              | some alternative =>
                  exact .ok (.some alternative)
              | none =>
                  exact bind_pick_isAlternative preferred sameClass (qualify · qualifier)
                    (scope.resolveType (qualifier ++ '.' :: className) trie)

end ResolveContext

end Resolution

section Search

variable {entries : List Entry} {scope : Scope} {flags : ItemFlags}

/-- Entries of one namespace that end at one node are of one class. -/
theorem Trie.className_eq_of_mem_entriesAt
    (dotFree : ∀ entry ∈ entries, '.' ∉ entry.origin.className)
    (node : Node) :
    ∀ entry ∈ (ofList entries).entriesAt node, ∀ other ∈ (ofList entries).entriesAt node,
      entry.origin.scope = other.origin.scope →
        entry.origin.className = other.origin.className := by
  intro entry member other memberOther sameScope
  rw [entriesAt_ofList] at member memberOther
  obtain ⟨inserted, ends⟩ := List.mem_filter.mp member
  obtain ⟨insertedOther, endsOther⟩ := List.mem_filter.mp memberOther
  obtain ⟨_, names⟩ :=
    Entry.splitOn_of_mem_paths (dotFree entry inserted) (of_decide_eq_true ends)
  obtain ⟨_, namesOther⟩ :=
    Entry.splitOn_of_mem_paths (dotFree other insertedOther) (of_decide_eq_true endsOther)
  rw [names] at namesOther
  obtain ⟨-, same⟩ := List.append_inj' namesOther rfl
  exact (List.cons_eq_cons.mp same).1

/-- References to entries that are alternatives are alternatives. -/
theorem Reference.isAlternative_ofEntry
    {preferred : Origin}
    {entry other : Entry}
    (alternative : entry.IsAlternative preferred other)
    (dotted : DottedReference)
    (span : Span)
    (flags : ItemFlags) :
    IsAlternative preferred (ofEntry dotted entry span flags)
      (ofEntry dotted other span flags) where
  span := rfl
  originalText := rfl
  fullText := by
    rw [ofEntry, ofEntry, alternative.qualifiedClass]
  flags := rfl
  preferred := by
    intro differs
    apply alternative.preferred
    rintro rfl
    rcases differs with differs | differs | differs <;> exact differs rfl

namespace Chain

theorem resolved_isAlternative
    (preferred : Origin)
    (dotFree : ∀ entry ∈ entries, '.' ∉ entry.origin.className)
    (chain : Chain)
    (stop : Position) :
    Agree (Option.Rel (Reference.IsAlternative preferred))
      (chain.resolved ⟨.ofList entries, scope, some preferred⟩ flags stop)
      (chain.resolved ⟨.ofList entries, scope, none⟩ flags stop) := by
  unfold resolved
  split
  · exact .ok .none
  · cases DottedReference.ofText? chain.text with
    | none =>
        exact .ok .none
    | some dotted =>
        have sameClass := Trie.className_eq_of_mem_entriesAt dotFree chain.node
        apply (ResolveContext.resolve_isAlternative preferred sameClass dotted).map
        intro found other alternatives
        cases alternatives with
        | none =>
            exact .none
        | some alternative =>
            exact .some (Reference.isAlternative_ofEntry alternative dotted _ flags)

/-- Behind an event the chain is the same, and where it completes a reference it does so in
both searches. -/
theorem next_isAlternative
    (preferred : Origin)
    (dotFree : ∀ entry ∈ entries, '.' ∉ entry.origin.className)
    (chain : Chain)
    (event : Event) :
    Agree
      (fun step other =>
        step.1 = other.1 ∧ Option.Rel (Reference.IsAlternative preferred) step.2 other.2)
      (chain.next ⟨.ofList entries, scope, some preferred⟩ flags event)
      (chain.next ⟨.ofList entries, scope, none⟩ flags event) := by
  cases event with
  | code char position next? =>
      simp only [next, code]
      split
      · split
        · exact .ok ⟨rfl, .none⟩
        · apply (resolved_isAlternative preferred dotFree _ _).map
          intro found other alternatives
          cases alternatives with
          | none =>
              exact ⟨rfl, .none⟩
          | some alternative =>
              exact ⟨rfl, .some alternative⟩
      · split
        · exact .ok ⟨rfl, .none⟩
        · split <;> exact .ok ⟨rfl, .none⟩
  | _ =>
      exact .ok ⟨rfl, .none⟩

end Chain

theorem referencesOfEvents_isAlternative
    (preferred : Origin)
    (dotFree : ∀ entry ∈ entries, '.' ∉ entry.origin.className)
    (chain : Chain)
    (events : List Event) :
    Agree (List.Forall₂ (Reference.IsAlternative preferred))
      (referencesOfEvents ⟨.ofList entries, scope, some preferred⟩ flags chain events)
      (referencesOfEvents ⟨.ofList entries, scope, none⟩ flags chain events) := by
  induction events generalizing chain with
  | nil =>
      exact .ok .nil
  | cons event events inductionHypothesis =>
      apply (Chain.next_isAlternative preferred dotFree chain event).bind
      rintro ⟨next, found⟩ ⟨_, other⟩ ⟨rfl, alternatives⟩
      apply (inductionHypothesis next).bind
      intro later laterOther laterAlternatives
      cases alternatives with
      | none =>
          exact .ok laterAlternatives
      | some alternative =>
          exact .ok (.cons alternative laterAlternatives)

/-- Searches of a block with a preferred container and without one fail alike, or they find
references at the same places, to the same properties; where these show different entries, the
search with the preferred container shows its entry. -/
theorem findReferences_preferred
    (dialect : Dialect)
    (entries : List Entry)
    (scope : Scope)
    (preferred : Origin)
    (flags : ItemFlags)
    (anchor : Position)
    (block : Text)
    (dotFree : ∀ entry ∈ entries, '.' ∉ entry.origin.className) :
    Agree (List.Forall₂ (Reference.IsAlternative preferred))
      (findReferences dialect ⟨.ofList entries, scope, some preferred⟩ flags anchor block)
      (findReferences dialect ⟨.ofList entries, scope, none⟩ flags anchor block) := by
  unfold findReferences
  cases anchor.asAnchor with
  | error failure =>
      exact .error (ScanError.anchor failure)
  | ok anchor =>
      exact (referencesOfEvents_isAlternative preferred dotFree .idle _).mapError ScanError.scope

/-- One of two properties has an entry in the preferred container, which is shown in place of
the culture-neutral one; the other property is shown as ever. -/
theorem findReferences_preferred_cultures :
    let german : Origin := ⟨[], "R".toList, some "de".toList, "R.de.resx".toList⟩
    let neutral : Origin := ⟨[], "R".toList, none, "R.resx".toList⟩
    let entries : List Entry :=
      [⟨"K".toList, "one".toList, neutral⟩, ⟨"K".toList, "eins".toList, german⟩,
        ⟨"L".toList, "two".toList, neutral⟩]
    let text := "R.K;R.L".toList
    (∀ entry ∈ entries, '.' ∉ entry.origin.className) ∧
      ∃ shown plain,
        findReferences (.csharp defaultMarker) ⟨.ofList entries, .empty, some german⟩ .none .start
            text =
          .ok shown ∧
        findReferences (.csharp defaultMarker) ⟨.ofList entries, .empty, none⟩ .none .start text =
          .ok plain ∧
        List.Forall₂ (Reference.IsAlternative german) shown plain ∧
        shown.map Reference.value = ["eins".toList, "two".toList] ∧
        plain.map Reference.value = ["one".toList, "two".toList] := by
  intro german neutral entries text
  have dotFree : ∀ entry ∈ entries, '.' ∉ entry.origin.className := by decide
  have foundPreferred :
      findReferences (.csharp defaultMarker) ⟨.ofList entries, .empty, some german⟩ .none .start
          text =
        .ok
          [⟨"R.K".toList, "R.K".toList, ['K'], "eins".toList, german,
              ⟨⟨1, 1, 0⟩, ⟨1, 4, 3⟩⟩, .none⟩,
            ⟨"R.L".toList, "R.L".toList, ['L'], "two".toList, neutral,
              ⟨⟨1, 5, 4⟩, ⟨1, 8, 7⟩⟩, .none⟩] := by
    decide +kernel
  have foundPlain :
      findReferences (.csharp defaultMarker) ⟨.ofList entries, .empty, none⟩ .none .start text =
        .ok
          [⟨"R.K".toList, "R.K".toList, ['K'], "one".toList, neutral,
              ⟨⟨1, 1, 0⟩, ⟨1, 4, 3⟩⟩, .none⟩,
            ⟨"R.L".toList, "R.L".toList, ['L'], "two".toList, neutral,
              ⟨⟨1, 5, 4⟩, ⟨1, 8, 7⟩⟩, .none⟩] := by
    decide +kernel
  have agree :=
    findReferences_preferred (.csharp defaultMarker) entries .empty german .none .start text
      dotFree
  rw [foundPreferred, foundPlain] at agree
  cases agree with
  | ok alternatives =>
      exact ⟨dotFree, _, _, foundPreferred, foundPlain, alternatives, rfl, rfl⟩

end Search

end LocalizationScan
