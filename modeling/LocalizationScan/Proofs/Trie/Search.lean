import LocalizationScan.Proofs.Trie.PrefixMap
import LocalizationScan.Reference.Chain

namespace LocalizationScan

/-!
# Searches over nodes

The search for references asks a trie for the node that a character leads to,
whether that is the root, and which entries end there.  So it can be run over
nodes that are named in any way, with a flag that says whether the walk of a
chain is still among them.  Over a prefix map of some entries it finds what it
finds over the trie of these entries.
-/

/-- A chain on its way through nodes. -/
structure NodeChain (Node : Type) where
  state : ChainState
  start : Position
  /-- The identifiers and dots so far. -/
  text : Text
  node : Node
  /-- The walk has not left the nodes. -/
  alive : Bool
  /-- The chain has been reported. -/
  consumed : Bool
  deriving Repr, DecidableEq

namespace Walkable

variable {Node : Type} [DecidableEq Node]

/-- No chain. -/
def idle (nodes : Walkable Node) : NodeChain Node :=
  ⟨.idle, .start, [], nodes.root, false, false⟩

/-- The node behind the first character of a segment that follows a dot: a walk that cannot go
on there starts again at the root. -/
def stepOrRestart (nodes : Walkable Node) (chain : NodeChain Node) (char : Char) : Node :=
  let node := if chain.alive then nodes.step chain.node char else nodes.root
  if node = nodes.root then nodes.step nodes.root char else node

/-- Take up an identifier character. -/
def identifier
    (nodes : Walkable Node)
    (chain : NodeChain Node)
    (char : Char)
    (position : Position) :
    NodeChain Node :=
  let moved : NodeChain Node :=
    match chain.state with
    | .idle | .afterSegment =>
        { nodes.idle with start := position, node := nodes.step nodes.root char }
    | .afterDot => { chain with node := nodes.stepOrRestart chain char }
    | .segment =>
        if chain.alive then { chain with node := nodes.step chain.node char } else chain
  { moved with
    state := .segment, text := moved.text ++ [char], alive := moved.node ≠ nodes.root }

/-- Take up a dot; one that does not follow a segment ends the chain. -/
def dot (nodes : Walkable Node) (chain : NodeChain Node) : NodeChain Node :=
  match chain.state with
  | .segment | .afterSegment =>
      let moved : NodeChain Node :=
        if chain.alive then
          let node := nodes.step chain.node '.'
          { chain with node := node, alive := node ≠ nodes.root }
        else chain
      { moved with state := .afterDot, text := moved.text ++ ['.'] }
  | .idle | .afterDot => nodes.idle

/-- Take up white space, or what counts as such. -/
def blank (chain : NodeChain Node) : NodeChain Node :=
  if chain.state = .segment then { chain with state := .afterSegment } else chain

/-- The reference that a chain stands for at the end of a segment. -/
def resolved
    (nodes : Walkable Node)
    (chain : NodeChain Node)
    (context : ResolveContext)
    (flags : ItemFlags)
    (stop : Position) :
    Except ScopeError (Option Reference) :=
  if chain.consumed || !chain.alive || !nodes.isTerminal chain.node then
    .ok none
  else
    match DottedReference.ofText? chain.text with
    | none => .ok none
    | some dotted =>
        (context.resolve dotted (nodes.entriesAt chain.node)).map fun found =>
          found.map fun entry => .ofEntry dotted entry ⟨chain.start, stop⟩ flags

/-- The chain after an event, and the reference that the event completes. -/
def next
    (nodes : Walkable Node)
    (chain : NodeChain Node)
    (context : ResolveContext)
    (flags : ItemFlags) :
    Event → Except ScopeError (NodeChain Node × Option Reference)
  | .code char position next =>
      if Text.isIdentifierChar char then
        let longer := nodes.identifier chain char position
        if next.any Text.isIdentifierChar then
          .ok (longer, none)
        else
          (nodes.resolved longer context flags (position.advance char)).map fun found =>
            ({ longer with consumed := longer.consumed || found.isSome }, found)
      else if char = '.' then
        .ok (nodes.dot chain, none)
      else if Text.isBlank char then
        .ok (blank chain, none)
      else
        .ok (nodes.idle, none)
  | .stringOpened _ _ | .lineComment | .holeClosed => .ok (nodes.idle, none)
  | .commentClosed _ | .continuation => .ok (blank chain, none)
  | .stringClosed _ | .stringAbandoned | .commentOpened => .ok (chain, none)

/-- The references among events, in order; the first scope error ends the search. -/
def referencesOfEvents
    (nodes : Walkable Node)
    (context : ResolveContext)
    (flags : ItemFlags) :
    NodeChain Node → List Event → Except ScopeError (List Reference)
  | _, [] => .ok []
  | chain, event :: events => do
      let (chain, found) ← nodes.next chain context flags event
      let later ← nodes.referencesOfEvents context flags chain events
      return found.toList ++ later

/-- The references of a block, found over some nodes. -/
def findReferences
    (nodes : Walkable Node)
    (dialect : Dialect)
    (context : ResolveContext)
    (flags : ItemFlags)
    (anchor : Position)
    (block : Text) :
    Except ScanError (List Reference) :=
  match anchor.asAnchor with
  | .error error => .error (.anchor error)
  | .ok anchor =>
      (nodes.referencesOfEvents context flags nodes.idle (dialect.events anchor block)).mapError
        .scope

end Walkable

namespace Walkable

variable {Node : Type} {nodes : Walkable Node} {entries : List Entry} {text : Text}

/-- A text that leads to a node: that of the root, or one along which the walk stays alive. -/
def Reaches (nodes : Walkable Node) (text : Text) : Prop :=
  text = Trie.root ∨ nodes.IsLive text

/-- The texts that stay alive are the nodes of the trie. -/
theorem IsPrefixMap.isSome_find?_iff
    (isPrefixMap : nodes.IsPrefixMap entries)
    (text : Text) :
    ((Trie.ofList entries).find? text).isSome ↔ nodes.IsLive text := by
  have reaches := Trie.reaches_ofList entries text
  simp only [Entry.exists_mem_paths_iff] at reaches
  exact reaches.trans (isPrefixMap.isLive_iff text).symm

theorem walk_concat (nodes : Walkable Node) (text : Text) (char : Char) :
    nodes.walk (text ++ [char]) = nodes.step (nodes.walk text) char := by
  rw [walk, List.foldl_append, List.foldl_cons, List.foldl_nil, walk]

theorem Reaches.walk_eq_root_iff
    (reaches : nodes.Reaches text) :
    nodes.walk text = nodes.root ↔ text = Trie.root := by
  constructor
  · intro atRoot
    exact reaches.resolve_right fun live => live.2 text live.1 List.prefix_rfl atRoot
  · rintro rfl
    rfl

/-- A walk that does not stay alive is back at the root. -/
theorem Reaches.walk_concat_eq_root
    {char : Char}
    (reaches : nodes.Reaches text)
    (lost : ¬nodes.IsLive (text ++ [char])) :
    nodes.walk (text ++ [char]) = nodes.root := by
  by_contra away
  refine lost ⟨by simp, fun front nonempty starts => ?_⟩
  rcases List.prefix_concat_iff.mp starts with rfl | earlier
  · exact away
  · rcases reaches with rfl | live
    · exact absurd (List.prefix_nil.mp earlier) nonempty
    · exact live.2 front nonempty earlier

/-- A step over the nodes goes where the trie goes. -/
theorem IsPrefixMap.step_walk
    (isPrefixMap : nodes.IsPrefixMap entries)
    (reaches : nodes.Reaches text)
    (char : Char) :
    nodes.step (nodes.walk text) char = nodes.walk ((Trie.ofList entries).step text char) ∧
      nodes.Reaches ((Trie.ofList entries).step text char) := by
  rw [← walk_concat, Trie.step]
  by_cases live : nodes.IsLive (text ++ [char])
  · rw [if_pos ((isPrefixMap.isSome_find?_iff _).mpr live)]
    exact ⟨rfl, .inr live⟩
  · rw [if_neg (mt (isPrefixMap.isSome_find?_iff _).mp live)]
    exact ⟨reaches.walk_concat_eq_root live, .inl rfl⟩

/-- At a node other than the root the same entries end as in the trie. -/
theorem IsPrefixMap.entriesAt_eq
    (isPrefixMap : nodes.IsPrefixMap entries)
    (live : nodes.IsLive text) :
    nodes.entriesAt (nodes.walk text) = (Trie.ofList entries).entriesAt text := by
  rw [isPrefixMap.entriesAt_walk text live, Entry.map_filter_insertions, Trie.entriesAt_ofList]

section Chains

variable {chain : Chain} {context : ResolveContext}

/-- A chain of the trie over the nodes that its texts lead to. -/
def ofChain (nodes : Walkable Node) (chain : Chain) : NodeChain Node :=
  ⟨chain.state, chain.start, chain.text, nodes.walk chain.node, chain.isAlive, chain.consumed⟩

/-- A chain that follows a character goes where it goes in the trie. -/
theorem IsPrefixMap.follow_ofChain
    (isPrefixMap : nodes.IsPrefixMap entries)
    (reaches : nodes.Reaches chain.node)
    (char : Char) :
    (if chain.isAlive then nodes.step (nodes.walk chain.node) char else nodes.root) =
        nodes.walk (chain.follow (.ofList entries) char) ∧
      nodes.Reaches (chain.follow (.ofList entries) char) := by
  unfold Chain.follow
  split
  · exact isPrefixMap.step_walk reaches char
  · exact ⟨rfl, .inl rfl⟩

/-- Results that are the same failure, or the same reference and chain, one over nodes and one
over the trie. -/
inductive Mirrors (nodes : Walkable Node) :
    Except ScopeError (NodeChain Node × Option Reference) →
      Except ScopeError (Chain × Option Reference) → Prop where
  | error
      (failure : ScopeError) :
      Mirrors nodes (.error failure) (.error failure)
  | ok
      {chain : Chain}
      (found : Option Reference)
      (reaches : nodes.Reaches chain.node) :
      Mirrors nodes (.ok (nodes.ofChain chain, found)) (.ok (chain, found))

theorem blank_ofChain (nodes : Walkable Node) (chain : Chain) :
    blank (nodes.ofChain chain) = nodes.ofChain chain.blank ∧ chain.blank.node = chain.node := by
  obtain ⟨state, start, text, node, consumed⟩ := chain
  cases state <;> exact ⟨rfl, rfl⟩

theorem IsPrefixMap.resolved_ofChain
    (isPrefixMap : nodes.IsPrefixMap entries)
    (knows : context.trie = .ofList entries)
    (reaches : nodes.Reaches chain.node)
    (flags : ItemFlags)
    (stop : Position) :
    nodes.resolved (nodes.ofChain chain) context flags stop =
      chain.resolved context flags stop := by
  rcases reaches with atRoot | live
  · have lost : chain.isAlive = false := by simp [Chain.isAlive, atRoot]
    simp [resolved, ofChain, Chain.resolved, lost]
  · have sameEntries := isPrefixMap.entriesAt_eq live
    cases written : DottedReference.ofText? chain.text with
    | none => simp [resolved, ofChain, Chain.resolved, written]
    | some dotted =>
        simp [resolved, ofChain, Chain.resolved, isTerminal, Trie.isTerminal, sameEntries, knows,
          written]

variable [DecidableEq Node]

/-- The flag of a chain says whether its node is another one than the root. -/
theorem ofChain_mk
    {state : ChainState}
    {start : Position}
    {written node : Text}
    {consumed : Bool}
    (reaches : nodes.Reaches node) :
    nodes.ofChain ⟨state, start, written, node, consumed⟩ =
      ⟨state, start, written, nodes.walk node, decide (nodes.walk node ≠ nodes.root),
        consumed⟩ := by
  rw [ofChain, Chain.isAlive, decide_eq_decide.mpr (not_congr reaches.walk_eq_root_iff)]

theorem IsPrefixMap.stepOrRestart_ofChain
    (isPrefixMap : nodes.IsPrefixMap entries)
    (reaches : nodes.Reaches chain.node)
    (char : Char) :
    nodes.stepOrRestart (nodes.ofChain chain) char =
        nodes.walk (chain.followOrRestart (.ofList entries) char) ∧
      nodes.Reaches (chain.followOrRestart (.ofList entries) char) := by
  obtain ⟨followed, reachesNext⟩ := isPrefixMap.follow_ofChain reaches char
  have restarted := isPrefixMap.step_walk (.inl rfl : nodes.Reaches Trie.root) char
  have walked :
      (if (nodes.ofChain chain).alive then nodes.step (nodes.ofChain chain).node char
        else nodes.root) =
      nodes.walk (chain.follow (.ofList entries) char) := followed
  simp only [stepOrRestart, walked, Chain.followOrRestart, reachesNext.walk_eq_root_iff]
  split
  · exact restarted
  · exact ⟨rfl, reachesNext⟩

theorem IsPrefixMap.identifier_ofChain
    (isPrefixMap : nodes.IsPrefixMap entries)
    (reaches : nodes.Reaches chain.node)
    (char : Char)
    (position : Position) :
    nodes.identifier (nodes.ofChain chain) char position =
        nodes.ofChain (chain.identifier (.ofList entries) char position) ∧
      nodes.Reaches (chain.identifier (.ofList entries) char position).node := by
  obtain ⟨begun, reachesBegun⟩ := isPrefixMap.step_walk (.inl rfl : nodes.Reaches Trie.root) char
  obtain ⟨restarted, reachesRestarted⟩ := isPrefixMap.stepOrRestart_ofChain reaches char
  obtain ⟨followed, reachesFollowed⟩ := isPrefixMap.follow_ofChain reaches char
  obtain ⟨state, start, text, node, consumed⟩ := chain
  cases state with
  | idle | afterSegment =>
      refine ⟨?_, reachesBegun⟩
      simp only [Chain.identifier]
      rw [ofChain_mk reachesBegun, ← begun]
      rfl
  | afterDot =>
      refine ⟨?_, reachesRestarted⟩
      simp only [Chain.identifier]
      rw [ofChain_mk reachesRestarted, ← restarted]
      rfl
  | segment =>
      refine ⟨?_, reachesFollowed⟩
      simp only [Chain.identifier]
      rw [ofChain_mk reachesFollowed, ← followed]
      by_cases atRoot : node = Trie.root
      · subst atRoot
        rfl
      · have alive : Chain.isAlive ⟨.segment, start, text, node, consumed⟩ = true :=
          decide_eq_true atRoot
        simp only [identifier, ofChain, alive, ↓reduceIte]

theorem IsPrefixMap.dot_ofChain
    (isPrefixMap : nodes.IsPrefixMap entries)
    (reaches : nodes.Reaches chain.node) :
    nodes.dot (nodes.ofChain chain) = nodes.ofChain (chain.dot (.ofList entries)) ∧
      nodes.Reaches (chain.dot (.ofList entries)).node := by
  obtain ⟨followed, reachesFollowed⟩ := isPrefixMap.follow_ofChain reaches '.'
  obtain ⟨state, start, text, node, consumed⟩ := chain
  cases state with
  | idle | afterDot =>
      exact ⟨rfl, .inl rfl⟩
  | segment | afterSegment =>
      refine ⟨?_, reachesFollowed⟩
      simp only [Chain.dot]
      rw [ofChain_mk reachesFollowed, ← followed]
      by_cases atRoot : node = Trie.root
      · subst atRoot
        simp [dot, ofChain, Chain.isAlive, walk, Trie.root]
      · have alive : ∀ state, Chain.isAlive ⟨state, start, text, node, consumed⟩ = true :=
          fun _ => decide_eq_true atRoot
        simp only [dot, ofChain, alive, ↓reduceIte]

/-- A chain over nodes takes up an event as it does over the trie. -/
theorem IsPrefixMap.next_ofChain
    (isPrefixMap : nodes.IsPrefixMap entries)
    (knows : context.trie = .ofList entries)
    (reaches : nodes.Reaches chain.node)
    (flags : ItemFlags)
    (event : Event) :
    nodes.Mirrors (nodes.next (nodes.ofChain chain) context flags event)
      (chain.next context flags event) := by
  obtain ⟨blanked, sameNode⟩ := blank_ofChain nodes chain
  have reachesBlank : nodes.Reaches chain.blank.node := sameNode ▸ reaches
  have reachesIdle : nodes.Reaches Chain.idle.node := .inl rfl
  cases event with
  | stringOpened | lineComment | holeClosed =>
      exact .ok none reachesIdle
  | stringClosed | stringAbandoned | commentOpened =>
      exact .ok none reaches
  | commentClosed | continuation =>
      simp only [next, Chain.next, blanked]
      exact .ok none reachesBlank
  | code char position follows =>
      obtain ⟨identified, reachesLonger⟩ :=
        isPrefixMap.identifier_ofChain reaches char position
      obtain ⟨dotted, reachesDot⟩ := isPrefixMap.dot_ofChain reaches
      simp only [next, Chain.next, Chain.code, knows, identified, dotted, blanked]
      generalize chain.identifier (.ofList entries) char position = longer at reachesLonger ⊢
      split
      · split
        · exact .ok none reachesLonger
        · rw [isPrefixMap.resolved_ofChain knows reachesLonger]
          cases longer.resolved context flags (position.advance char) with
          | error failure =>
              exact .error failure
          | ok found =>
              let marked : Chain := { longer with consumed := longer.consumed || found.isSome }
              have reachesMarked : nodes.Reaches marked.node := reachesLonger
              exact .ok found reachesMarked
      · split
        · exact .ok none reachesDot
        · split
          · exact .ok none reachesBlank
          · exact .ok none reachesIdle

/-- The references among events are those that are found over the trie. -/
theorem IsPrefixMap.referencesOfEvents_ofChain
    (isPrefixMap : nodes.IsPrefixMap entries)
    (knows : context.trie = .ofList entries)
    (reaches : nodes.Reaches chain.node)
    (flags : ItemFlags)
    (events : List Event) :
    nodes.referencesOfEvents context flags (nodes.ofChain chain) events =
      LocalizationScan.referencesOfEvents context flags chain events := by
  induction events generalizing chain with
  | nil =>
      rfl
  | cons event events inductionHypothesis =>
      have mirrors := isPrefixMap.next_ofChain knows reaches flags event
      rw [referencesOfEvents, LocalizationScan.referencesOfEvents]
      generalize nodes.next (nodes.ofChain chain) context flags event = result at mirrors ⊢
      generalize chain.next context flags event = named at mirrors ⊢
      cases mirrors with
      | error failure =>
          rfl
      | ok found reachesNext =>
          have later := inductionHypothesis reachesNext
          exact congrArg (fun rest => rest >>= fun later => pure (found.toList ++ later)) later

/-- A search over a prefix map of some entries finds what the search over their trie finds. -/
theorem IsPrefixMap.findReferences_eq
    (isPrefixMap : nodes.IsPrefixMap entries)
    (knows : context.trie = .ofList entries)
    (dialect : Dialect)
    (flags : ItemFlags)
    (anchor : Position)
    (block : Text) :
    nodes.findReferences dialect context flags anchor block =
      LocalizationScan.findReferences dialect context flags anchor block := by
  unfold findReferences LocalizationScan.findReferences
  cases anchor.asAnchor with
  | error error =>
      rfl
  | ok anchor =>
      have reaches : nodes.Reaches Chain.idle.node := .inl rfl
      have found :=
        isPrefixMap.referencesOfEvents_ofChain knows reaches flags (dialect.events anchor block)
      exact congrArg (Except.mapError ScanError.scope) found

end Chains

end Walkable

/-- A search over numbered nodes finds what the search over the nodes' texts finds. -/
theorem Arena.findReferences_ofList
    {entries : List Entry}
    {context : ResolveContext}
    (few : (ofList entries).nodes.length ≤ 2 ^ 32)
    (knows : context.trie = .ofList entries)
    (dialect : Dialect)
    (flags : ItemFlags)
    (anchor : Position)
    (block : Text) :
    (ofList entries).walkable.findReferences dialect context flags anchor block =
      findReferences dialect context flags anchor block :=
  (follows_ofList entries few).isPrefixMap.findReferences_eq knows dialect flags anchor block

end LocalizationScan
