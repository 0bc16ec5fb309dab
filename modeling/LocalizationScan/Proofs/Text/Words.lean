import Mathlib.Data.List.TakeWhile
import LocalizationScan.Proofs.Text.LineStarts

namespace LocalizationScan

/-!
# Words

The recognisers of words and white space take off a text what they are meant for
when something else follows it.  The first word of a line is the same whatever
lines follow, and a keyword is only found where it is the whole first word.
-/

namespace Text

variable {test : Char → Bool} {run rest text word : Text}

/-- A text without the white space at its start up to the next white space. -/
def firstWord (text : Text) : Text :=
  (trimLeft text).takeWhile (!isBlank ·)

/-- What a text is checked for holds of each of its characters. -/
theorem forall_mem_of_all
    {value : Bool}
    (checked : (text.all fun char => test char == value) = true) :
    ∀ char ∈ text, test char = value := fun char member =>
  beq_iff_eq.mp (List.all_eq_true.mp checked char member)

/-- A run of characters ends where another character follows. -/
theorem takeWhile_run
    (members : ∀ char ∈ run, test char = true)
    (stops : ∀ char ∈ rest.head?, test char = false) :
    (run ++ rest).takeWhile test = run := by
  rw [List.takeWhile_append_of_pos members]
  cases rest with
  | nil => exact List.append_nil run
  | cons char rest => simp [stops char rfl]

theorem dropWhile_run
    (members : ∀ char ∈ run, test char = true)
    (stops : ∀ char ∈ rest.head?, test char = false) :
    (run ++ rest).dropWhile test = rest := by
  rw [List.dropWhile_append_of_pos members]
  cases rest with
  | nil => rfl
  | cons char rest => simp [stops char rfl]

theorem takeSome?_append
    (nonempty : run ≠ [])
    (members : ∀ char ∈ run, test char = true)
    (stops : ∀ char ∈ rest.head?, test char = false) :
    takeSome? test (run ++ rest) = some (run, rest) := by
  rw [takeSome?, takeWhile_run members stops, dropWhile_run members stops]
  cases run with
  | nil => exact absurd rfl nonempty
  | cons => rfl

theorem after?_append (opening rest : Text) :
    after? opening (opening ++ rest) = some rest := by
  induction opening with
  | nil => rfl
  | cons char opening inductionHypothesis => simp [after?, inductionHypothesis]

theorem trimLeft_append
    (blank : ∀ char ∈ run, isBlank char = true)
    (begins : ∀ char ∈ text.head?, isBlank char = false) :
    trimLeft (run ++ text) = text :=
  dropWhile_run blank begins

theorem afterSome?_append
    (nonempty : run ≠ [])
    (blank : ∀ char ∈ run, isBlank char = true)
    (begins : ∀ char ∈ text.head?, isBlank char = false) :
    afterSome? isBlank (run ++ text) = some text := by
  cases run with
  | nil => exact absurd rfl nonempty
  | cons char run =>
      obtain ⟨here, later⟩ := List.forall_mem_cons.mp blank
      simp only [List.cons_append, afterSome?, here, ↓reduceIte]
      exact congrArg some (trimLeft_append later begins)

theorem takeWhile_word
    (inWord : ∀ char ∈ word, isBlank char = false)
    (ends : ∀ char ∈ rest.head?, isBlank char = true) :
    (word ++ rest).takeWhile (!isBlank ·) = word :=
  takeWhile_run (fun char member => by simp [inWord char member])
    fun char begins => by simp [ends char begins]

/-- A word behind white space is the first word of a text. -/
theorem firstWord_append
    (blank : ∀ char ∈ run, isBlank char = true)
    (nonempty : word ≠ [])
    (inWord : ∀ char ∈ word, isBlank char = false)
    (ends : ∀ char ∈ rest.head?, isBlank char = true) :
    firstWord (run ++ (word ++ rest)) = word := by
  rw [firstWord, trimLeft_append blank, takeWhile_word inWord ends]
  cases word with
  | nil => exact absurd rfl nonempty
  | cons char word =>
      rintro _ ⟨⟩
      exact inWord char List.mem_cons_self

/-- A text that is not blank begins with its first word. -/
theorem exists_firstWord
    (hasWord : trimLeft text ≠ []) :
    ∃ run rest, text = run ++ (firstWord text ++ rest) ∧
      (∀ char ∈ run, isBlank char = true) ∧
      firstWord text ≠ [] ∧
      (∀ char ∈ firstWord text, isBlank char = false) ∧
      ∀ char ∈ rest.head?, isBlank char = true := by
  refine ⟨text.takeWhile isBlank, (trimLeft text).dropWhile (!isBlank ·), ?_, ?_, ?_, ?_, ?_⟩
  · rw [firstWord, List.takeWhile_append_dropWhile, trimLeft, List.takeWhile_append_dropWhile]
  · exact fun char member => List.mem_takeWhile_imp member
  · intro isNil
    have begins := List.head?_dropWhile_not isBlank text
    rw [firstWord] at isNil
    cases trimmed : trimLeft text with
    | nil => exact hasWord trimmed
    | cons char rest =>
        rw [← trimLeft, trimmed] at begins
        rw [trimmed, List.takeWhile_cons_of_pos (by simpa using begins)] at isNil
        cases isNil
  · intro char member
    have notBlank := List.mem_takeWhile_imp (p := (!isBlank ·)) member
    simpa using notBlank
  · intro char begins
    have ended := List.head?_dropWhile_not (!isBlank ·) (trimLeft text)
    rw [Option.mem_def.mp begins] at ended
    simpa using ended

/-- White space at the start of a text is left away across lines. -/
theorem trimLeft_blankLine
    (isBlankLine : trimLeft text = [])
    (rest : Text) :
    trimLeft (text ++ '\n' :: rest) = trimLeft rest := by
  rw [trimLeft, List.dropWhile_append_of_pos (List.dropWhile_eq_nil_iff.mp isBlankLine)]
  exact List.dropWhile_cons_of_pos (by decide)

/-- What follows a line does not change the first word of the line. -/
theorem firstWord_line
    {later : Text}
    (hasWord : trimLeft text ≠ [])
    (endsLine : EndsLine later) :
    firstWord (text ++ later) = firstWord text := by
  obtain ⟨run, rest, shape, blank, nonempty, inWord, ends⟩ := exists_firstWord hasWord
  have whole : text ++ later = run ++ (firstWord text ++ (rest ++ later)) :=
    (congrArg (· ++ later) shape).trans (by simp)
  rw [whole]
  refine firstWord_append blank nonempty inWord ?_
  intro char begins
  cases rest with
  | nil =>
      rw [endsLine char begins]
      decide
  | cons => exact ends char begins

/-- A keyword that white space follows is the whole word at the start of a text. -/
theorem takeWhile_of_keyword
    (keyword : Text)
    (inWord : ∀ char ∈ keyword, isBlank char = false)
    (found : (after? keyword text).bind (afterSome? isBlank) = some rest) :
    text.takeWhile (!isBlank ·) = keyword := by
  obtain ⟨behind, isBehind, spaced⟩ := Option.bind_eq_some_iff.mp found
  rw [eq_append_of_after? isBehind]
  refine takeWhile_word inWord ?_
  rintro char begins
  cases behind with
  | nil => cases begins
  | cons first behind =>
      cases begins
      by_contra notBlank
      simp [afterSome?, notBlank] at spaced

/-- White space belongs to no word. -/
theorem isWordChar_eq_false_of_isBlank
    {char : Char}
    (blank : isBlank char = true) :
    isWordChar char = false := by
  have noWord : ∀ code ∈ blankCodes, isWordChar (Char.ofNat code) = false := by
    decide +kernel
  obtain ⟨code, member, rfl⟩ := exists_code_of_isBlank blank
  exact noWord code member

/-! ## Recognisers that stay in a line -/

section Line

variable {line later : Text}

/-- A run of characters that are no line feeds ends with the line. -/
theorem takeWhile_line
    (noFeed : test '\n' = false)
    (endsLine : EndsLine later) :
    (line ++ later).takeWhile test = line.takeWhile test := by
  induction line with
  | nil =>
      cases later with
      | nil => rfl
      | cons char later =>
          obtain rfl := endsLine char rfl
          exact List.takeWhile_cons_of_neg (by simp [noFeed])
  | cons char line inductionHypothesis =>
      rw [List.cons_append, List.takeWhile_cons, List.takeWhile_cons, inductionHypothesis]

theorem dropWhile_line
    (noFeed : test '\n' = false)
    (endsLine : EndsLine later) :
    (line ++ later).dropWhile test = line.dropWhile test ++ later := by
  induction line with
  | nil =>
      cases later with
      | nil => rfl
      | cons char later =>
          obtain rfl := endsLine char rfl
          exact List.dropWhile_cons_of_neg (by simp [noFeed])
  | cons char line inductionHypothesis =>
      rw [List.cons_append, List.dropWhile_cons, List.dropWhile_cons, inductionHypothesis]
      split <;> rfl

theorem takeSome?_line
    (noFeed : test '\n' = false)
    (endsLine : EndsLine later) :
    takeSome? test (line ++ later) =
      (takeSome? test line).map fun (run, rest) => (run, rest ++ later) := by
  rw [takeSome?, takeSome?, takeWhile_line noFeed endsLine, dropWhile_line noFeed endsLine]
  split <;> rfl

theorem afterSome?_line
    (noFeed : test '\n' = false)
    (endsLine : EndsLine later) :
    afterSome? test (line ++ later) = (afterSome? test line).map (· ++ later) := by
  cases line with
  | nil =>
      cases later with
      | nil => rfl
      | cons char later =>
          obtain rfl := endsLine char rfl
          simp [afterSome?, noFeed]
  | cons char line =>
      rw [List.cons_append, afterSome?, afterSome?, dropWhile_line noFeed endsLine]
      split <;> rfl

theorem afterFolded?_line
    {word : Text}
    (inLine : '\n' ∉ word)
    (endsLine : EndsLine later) :
    afterFolded? word (line ++ later) = (afterFolded? word line).map (· ++ later) := by
  induction word generalizing line with
  | nil => cases line <;> rfl
  | cons letter word inductionHypothesis =>
      obtain ⟨noFeed, inLater⟩ := not_or.mp (mt List.mem_cons.mpr inLine)
      cases line with
      | nil =>
          cases later with
          | nil => rfl
          | cons char later =>
              obtain rfl := endsLine char rfl
              have noMatch : foldsTo letter '\n' = false := by
                have lowered : Char.toLower '\n' = '\n' := by decide
                simp [foldsTo, lowered, noFeed]
              simp [afterFolded?, noMatch]
      | cons char line =>
          rw [List.cons_append, afterFolded?, afterFolded?, inductionHypothesis inLater]
          split <;> rfl

/-- A recogniser that does not look at what follows the line where it begins reads that line. -/
theorem readsLine_of_append
    {α : Type}
    {recognise : Text → Option (α × Text)}
    (stays :
      ∀ later, EndsLine later →
        recognise (line ++ later) =
          (recognise line).map fun (value, after) => (value, after ++ later)) :
    ReadsLine recognise line ((recognise line).map Prod.fst) := by
  cases found : recognise line with
  | none => exact .nothing fun later endsLine => by rw [stays later endsLine, found]; rfl
  | some read => exact .value _ fun later endsLine => by rw [stays later endsLine, found]; rfl

end Line

/-! ## Recognisers that take something -/

section Shortening

theorem length_after?_le
    {opening : Text}
    (found : after? opening text = some rest) :
    rest.length ≤ text.length := by
  rw [eq_append_of_after? found]
  simp

theorem length_trimLeft_le (text : Text) :
    (trimLeft text).length ≤ text.length :=
  (List.dropWhile_suffix isBlank).length_le

theorem length_afterSome?_lt
    (found : afterSome? test text = some rest) :
    rest.length < text.length := by
  cases text with
  | nil => cases found
  | cons char text =>
      rw [afterSome?] at found
      split at found
      · cases found
        exact Nat.lt_succ_of_le (List.dropWhile_suffix test).length_le
      · cases found

theorem length_afterFolded?_le
    (found : afterFolded? word text = some rest) :
    rest.length ≤ text.length := by
  induction word generalizing text with
  | nil =>
      cases found
      exact Nat.le_refl _
  | cons letter word inductionHypothesis =>
      cases text with
      | nil => cases found
      | cons char text =>
          rw [afterFolded?] at found
          split at found
          · exact Nat.le_succ_of_le (inductionHypothesis found)
          · cases found

theorem length_takeSome?_lt
    (found : takeSome? test text = some (run, rest)) :
    rest.length < text.length := by
  unfold takeSome? at found
  split at found
  · cases found
  · next nonempty =>
      cases found
      have parts := congrArg List.length (List.takeWhile_append_dropWhile (p := test) (l := text))
      have positive := List.length_pos_iff.mpr nonempty
      rw [List.length_append] at parts
      omega

end Shortening

end Text

end LocalizationScan
