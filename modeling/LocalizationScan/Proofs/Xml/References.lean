import LocalizationScan.Proofs.Results
import LocalizationScan.Xml.Escape

namespace LocalizationScan.Xml

/-!
# References undone

An escaped text holds neither the `<` that ends a text nor the quote that ends
the value of an attribute.  Reading its references gives the text back, whatever
stands behind it.
-/

theorem not_mem_escape
    {mark : Char}
    (isMark : mark = '<' ∨ mark = '"')
    (text : Text) :
    mark ∉ escape text := by
  intro member
  obtain ⟨char, -, inChar⟩ := List.mem_flatMap.mp member
  unfold escapeChar at inChar
  split at inChar
  case h_6 =>
    obtain rfl := List.mem_singleton.mp inChar
    rcases isMark with rfl | rfl <;> contradiction
  all_goals
    rcases isMark with rfl | rfl <;> simp at inChar

section Reading

variable {total : Nat} {rest text value : Text} {char : Char}

theorem unescapeFrom_plain
    (plain : char ≠ '&')
    (total : Nat)
    (rest : Text) :
    unescapeFrom total (char :: rest) = (unescapeFrom total rest).map (char :: ·) := by
  rw [unescapeFrom]
  · cases unescapeFrom total rest <;> rfl
  · exact plain

theorem unescapeFrom_reference
    (name : Text)
    (whole : ∀ letter ∈ name, isReferenceMark letter = false)
    (names : ∀ start, referencedChar start name = .ok char)
    (total : Nat)
    (rest : Text) :
    unescapeFrom total ('&' :: (name ++ ';' :: rest)) =
      (unescapeFrom total rest).map (char :: ·) := by
  have taken :
      (name ++ ';' :: rest).takeWhile (fun letter => !isReferenceMark letter) = name := by
    rw [List.takeWhile_append_of_pos (by simpa using whole)]
    simp [isReferenceMark]
  have behind : (name ++ ';' :: rest).drop (name.length + 1) = rest := by
    simp
  rw [unescapeFrom, taken, List.drop_left]
  simp only [names, behind]
  cases unescapeFrom total rest <;> rfl

theorem unescapeFrom_escapeChar (total : Nat) (char : Char) (rest : Text) :
    unescapeFrom total (escapeChar char ++ rest) = (unescapeFrom total rest).map (char :: ·) := by
  unfold escapeChar
  split
  · exact unescapeFrom_reference "lt".toList (by simp [isReferenceMark]) (fun _ => rfl) total rest
  · exact unescapeFrom_reference "gt".toList (by simp [isReferenceMark]) (fun _ => rfl) total rest
  · exact unescapeFrom_reference "amp".toList (by simp [isReferenceMark]) (fun _ => rfl) total rest
  · exact unescapeFrom_reference "apos".toList (by simp [isReferenceMark]) (fun _ => rfl) total rest
  · exact unescapeFrom_reference "quot".toList (by simp [isReferenceMark]) (fun _ => rfl) total rest
  · exact unescapeFrom_plain ‹_› total rest

theorem unescapeFrom_escape (total : Nat) (text rest : Text) :
    unescapeFrom total (escape text ++ rest) = (unescapeFrom total rest).map (text ++ ·) := by
  induction text with
  | nil =>
      rw [escape, List.flatMap_nil, List.nil_append]
      cases unescapeFrom total rest <;> rfl
  | cons char text inductionHypothesis =>
      rw [escape] at inductionHypothesis ⊢
      rw [List.flatMap_cons, List.append_assoc, unescapeFrom_escapeChar, inductionHypothesis]
      cases unescapeFrom total rest <;> rfl

/-- The start of a reference only shows in errors. -/
theorem referencedChar_eq_ok
    {start : Nat}
    {name : Text}
    (read : referencedChar start name = .ok char)
    (other : Nat) :
    referencedChar other name = .ok char := by
  revert read
  unfold referencedChar
  split
  · exact id
  · split
    · exact id
    · intro read
      cases read

/-- The length of the whole text only shows in errors. -/
theorem unescapeFrom_eq_ok
    (read : unescapeFrom total text = .ok value)
    (other : Nat) :
    unescapeFrom other text = .ok value := by
  fun_induction unescapeFrom total text generalizing value with
  | case1 =>
      rw [unescapeFrom]
      exact read
  | case2 rest name later shape =>
      rename_i inductionHypothesis
      obtain ⟨char, names, read⟩ := Except.exists_of_bind_eq_ok read
      obtain ⟨behind, readBehind, same⟩ := Except.exists_of_bind_eq_ok read
      cases same
      dsimp only [name] at shape inductionHypothesis names readBehind
      rw [unescapeFrom]
      simp only [shape, referencedChar_eq_ok names, inductionHypothesis readBehind]
      rfl
  | case3 => cases read
  | case4 char rest plain inductionHypothesis =>
      obtain ⟨behind, readBehind, same⟩ := Except.exists_of_bind_eq_ok read
      cases same
      rw [unescapeFrom_plain plain, inductionHypothesis readBehind]
      rfl

theorem unescape_append
    (read : unescape rest = .ok value)
    (text : Text) :
    unescape (escape text ++ rest) = .ok (text ++ value) := by
  rw [unescape, unescapeFrom_escape, unescapeFrom_eq_ok read]
  rfl

theorem unescape_escape (text : Text) : unescape (escape text) = .ok text := by
  have read : unescape [] = .ok [] := by
    rw [unescape, unescapeFrom]
  simpa using unescape_append read text

end Reading

end LocalizationScan.Xml
