import Mathlib.Data.List.DropRight
import LocalizationScan.Proofs.Driver.Turn

namespace LocalizationScan

/-!
# Braces in holes

The code of a hole may have braces of its own.  The count that a waiting string
keeps is the number of opening braces that its hole has met and not yet closed,
those in the holes of inner strings left out.
-/

/-- Code whose closing braces match opening braces before them, and the number of opening
braces that are left over. -/
structure LeavesOpen (code : Text) (depth : Nat) : Prop where
  matched : ∀ front, front <+: code → front.count '\x7d' ≤ front.count '\x7b'
  left : code.count '\x7b' = code.count '\x7d' + depth

namespace LeavesOpen

variable {code : Text} {depth : Nat}

theorem nil : LeavesOpen [] 0 where
  matched := by simp
  left := rfl

theorem concat
    {char : Char}
    {depthNext : Nat}
    (leaves : LeavesOpen code depth)
    (left : (code ++ [char]).count '\x7b' = (code ++ [char]).count '\x7d' + depthNext) :
    LeavesOpen (code ++ [char]) depthNext where
  matched := by
    intro front isFront
    rcases List.prefix_concat_iff.mp isFront with rfl | earlier
    · exact left ▸ Nat.le_add_right _ _
    · exact leaves.matched front earlier
  left := left

theorem opening
    (leaves : LeavesOpen code depth) :
    LeavesOpen (code ++ ['\x7b']) (depth + 1) := by
  apply leaves.concat
  simp [leaves.left]
  omega

theorem closing
    (leaves : LeavesOpen code (depth + 1)) :
    LeavesOpen (code ++ ['\x7d']) depth := by
  apply leaves.concat
  simp [leaves.left]
  omega

theorem other
    {char : Char}
    (leaves : LeavesOpen code depth)
    (noBrace : char ≠ '\x7b' ∧ char ≠ '\x7d') :
    LeavesOpen (code ++ [char]) depth := by
  apply leaves.concat
  simp [leaves.left, noBrace.1, noBrace.2]

end LeavesOpen

/-- The character that an event delivers as code. -/
def Event.codeChar? : Event → Option Char
  | .code char _ _ => some char
  | _ => none

namespace Driver

/-- The characters that a turn delivers as code. -/
def Turn.codeChars (turn : Turn) : Text :=
  turn.events.filterMap Event.codeChar?

/-- The last of some turns, as long as at least the given number of strings waits: the turns
since the hole at that level has opened. -/
def sinceOpened (level : Nat) (earlier : List Turn) : List Turn :=
  earlier.rtakeWhile fun turn => level ≤ turn.before.holes.length

/-- The code that has been delivered directly in the hole at a level since it has opened. -/
def codeInHole (level : Nat) (earlier : List Turn) : Text :=
  ((sinceOpened level earlier).filter fun turn => turn.before.holes.length = level).flatMap
    Turn.codeChars

section CodeInHole

variable {level : Nat} {earlier : List Turn} {turn : Turn}

theorem codeInHole_concat_of_lt
    (fewer : turn.before.holes.length < level) :
    codeInHole level (earlier ++ [turn]) = [] := by
  rw [codeInHole, sinceOpened, List.rtakeWhile_concat_neg]
  · rfl
  · simpa using fewer

theorem codeInHole_concat_of_eq
    (here : turn.before.holes.length = level) :
    codeInHole level (earlier ++ [turn]) = codeInHole level earlier ++ turn.codeChars := by
  rw [codeInHole, sinceOpened, List.rtakeWhile_concat_pos]
  · simp [codeInHole, sinceOpened, here]
  · simp [here]

theorem codeInHole_concat_of_gt
    (more : level < turn.before.holes.length) :
    codeInHole level (earlier ++ [turn]) = codeInHole level earlier := by
  rw [codeInHole, sinceOpened, List.rtakeWhile_concat_pos]
  · simp [codeInHole, sinceOpened, Nat.ne_of_gt more]
  · simpa using Nat.le_of_lt more

end CodeInHole

/-- Whether the holes that wait, innermost first, have counted the braces of their code. -/
def CountBraces (earlier : List Turn) : List Hole → Prop
  | [] => True
  | hole :: outer =>
      LeavesOpen (codeInHole (outer.length + 1) earlier) hole.depth ∧
        CountBraces earlier outer

section Changes

variable {dialect : Dialect} {earlier : List Turn} {turn : Turn} {next : Driver}
  {holes outer : List Hole} {hole : Hole} {count : Nat} {char : Char}
  {transition : Transition} {events : List Event}

/-- A turn inside of more holes than the given ones delivers no code in these. -/
theorem CountBraces.concat_of_lt
    (counted : CountBraces earlier holes)
    (inside : holes.length < turn.before.holes.length) :
    CountBraces (earlier ++ [turn]) holes := by
  induction holes with
  | nil =>
      trivial
  | cons hole outer inductionHypothesis =>
      obtain ⟨here, behind⟩ := counted
      refine ⟨?_, inductionHypothesis behind (Nat.lt_of_succ_lt inside)⟩
      have above : outer.length + 1 < turn.before.holes.length := inside
      rw [codeInHole_concat_of_gt above]
      exact here

/-- A turn in the code of a hole adds its characters to the code of that hole alone. -/
theorem CountBraces.concat_of_cons
    {changed : Hole}
    (counted : CountBraces earlier outer)
    (inside : turn.before.holes = hole :: outer)
    (leaves :
      LeavesOpen (codeInHole (outer.length + 1) earlier ++ turn.codeChars) changed.depth) :
    CountBraces (earlier ++ [turn]) (changed :: outer) := by
  refine ⟨?_, counted.concat_of_lt (by simp [inside])⟩
  rw [codeInHole_concat_of_eq (by simp [inside])]
  exact leaves

/-- A turn that delivers no brace leaves the holes as they are. -/
theorem CountBraces.concat_of_noBrace
    (counted : CountBraces earlier turn.before.holes)
    (noBrace :
      turn.before.holes ≠ [] →
        turn.codeChars = [] ∨
          ∃ char, turn.codeChars = [char] ∧ char ≠ '\x7b' ∧ char ≠ '\x7d') :
    CountBraces (earlier ++ [turn]) turn.before.holes := by
  cases inside : turn.before.holes with
  | nil =>
      trivial
  | cons hole outer =>
      rw [inside] at counted noBrace
      refine counted.2.concat_of_cons inside ?_
      rcases noBrace (List.cons_ne_nil hole outer) with nothing | ⟨char, single, other⟩
      · rw [nothing, List.append_nil]
        exact counted.1
      · rw [single]
        exact counted.1.other other

/-- Every transition counts the braces that it delivers in a hole. -/
theorem CountBraces.change
    (counted : CountBraces earlier turn.before.holes)
    (yields : turn.events = events)
    (change : Change dialect turn.before count char transition events next) :
    CountBraces (earlier ++ [turn]) next.holes := by
  have delivers : turn.codeChars = events.filterMap Event.codeChar? := by
    rw [Turn.codeChars, yields]
  cases change with
  | code noBrace | abandon _ noBrace =>
      exact counted.concat_of_noBrace fun waits => .inr ⟨char, delivers, noBrace waits⟩
  | text | escape | continuation | lineComment | openString | openComment | closeString
  | closeComment =>
      exact counted.concat_of_noBrace fun _ => .inl delivers
  | openHole =>
      -- The code of the hole that opens begins behind this turn.
      refine ⟨?_, counted.concat_of_noBrace fun _ => .inl delivers⟩
      rw [codeInHole_concat_of_lt (Nat.lt_succ_self _)]
      exact .nil
  | openBrace inside isBrace =>
      subst isBrace
      rw [inside] at counted
      obtain ⟨leaves, behind⟩ := counted
      refine behind.concat_of_cons inside ?_
      rw [delivers]
      exact leaves.opening
  | closeBrace inside matched isBrace =>
      subst isBrace
      rw [inside] at counted
      obtain ⟨leaves, behind⟩ := counted
      rw [matched] at leaves
      refine behind.concat_of_cons inside ?_
      rw [delivers]
      exact leaves.closing
  | closeHole inside =>
      rw [inside] at counted
      exact counted.2.concat_of_lt (by simp [inside])

end Changes

end Driver

end LocalizationScan
