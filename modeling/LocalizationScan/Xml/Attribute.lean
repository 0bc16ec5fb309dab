import LocalizationScan.Xml.Escape

namespace LocalizationScan.Xml

/-!
# Attributes

The attributes of a start tag, read from the text between `<` and `>`.  Places
are counted in bytes from the start of that text.
-/

/-- Whether a character separates the parts of a tag. -/
def isTagBlank (char : Char) : Bool :=
  char == ' ' || char == '\t' || char == '\r' || char == '\n'

/-- An attribute with its value as written. -/
structure Attribute where
  name : Text
  rawValue : Text
  deriving Repr, DecidableEq

/-- Why the attributes of a tag cannot be read on. -/
inductive AttributeError where
  | missingEquals (place : Nat)
  | missingValue (place : Nat)
  | unquotedValue (place : Nat)
  | missingQuote (place : Nat) (quote : Char)
  | duplicate (place earlier : Nat)
  deriving Repr, DecidableEq

/-- The wording of an attribute error. -/
def AttributeError.message (error : AttributeError) : Text :=
  let placed (place : Nat) (rest : Text) : Text := "position ".toList ++ Text.ofNat place ++ rest
  match error with
  | .missingEquals place =>
      placed place ": attribute key must be directly followed by `=` or space".toList
  | .missingValue place => placed place ": `=` must be followed by an attribute value".toList
  | .unquotedValue place =>
      placed place ": attribute value must be enclosed in `\"` or `'`".toList
  | .missingQuote place quote =>
      placed place (": missing closing quote `".toList ++ quote :: "` in attribute value".toList)
  | .duplicate place earlier =>
      placed place (": duplicated attribute, previous declaration at position ".toList ++
        Text.ofNat earlier)

/-- The name of a tag: its text up to the first blank. -/
def tagName (tag : Text) : Text :=
  tag.takeWhile fun char => !isTagBlank char

/-- Cut a quoted value off a text that follows an equals sign. -/
def quotedValue (total : Nat) (text : Text) : Except AttributeError (Text × Text) :=
  match text.dropWhile isTagBlank with
  | [] => .error (.missingValue total)
  | char :: rest =>
      if char = '"' ∨ char = '\'' then
        match Text.splitFirst? char rest with
        | some (value, rest) => .ok (value, rest)
        | none => .error (.missingQuote total char)
      else
        .error (.unquotedValue (total - Text.byteLength (char :: rest)))

/-- What follows the equals sign behind the name of an attribute. -/
def afterEquals (total : Nat) (text : Text) : Except AttributeError Text :=
  match text.dropWhile isTagBlank with
  | '=' :: rest => .ok rest
  | other => .error (.missingEquals (total - Text.byteLength other))

/-- Cut one attribute off a text that starts with its name. -/
def takeAttribute
    (total : Nat)
    (seen : List (Text × Nat))
    (text : Text) :
    Except AttributeError (Attribute × Text) :=
  match text with
  | [] => .error (.missingEquals total)
  | first :: rest => do
      let name := first :: rest.takeWhile fun char => !(char == '=' || isTagBlank char)
      let rest ← afterEquals total (text.drop name.length)
      match seen.lookup name with
      | some earlier => .error (.duplicate (total - Text.byteLength text) earlier)
      | none =>
          let (value, rest) ← quotedValue total rest
          return (⟨name, value⟩, rest)

/-- What is left behind a quoted value is no longer than the text that held it. -/
theorem length_quotedValue_le
    {total : Nat}
    {text value rest : Text}
    (found : quotedValue total text = .ok (value, rest)) :
    rest.length ≤ text.length := by
  have dropped : (text.dropWhile isTagBlank).length ≤ text.length :=
    (List.dropWhile_sublist _).length_le
  unfold quotedValue at found
  split at found
  · simp at found
  · rename_i char inner shape
    rw [shape] at dropped
    split at found
    · split at found
      · rename_i cut
        simp only [Except.ok.injEq, Prod.mk.injEq] at found
        obtain ⟨rfl, rfl⟩ := found
        have whole := congrArg List.length (Text.eq_append_of_splitFirst? cut)
        simp only [List.length_append, List.length_cons] at whole dropped
        omega
      · simp at found
    · simp at found

/-- What follows an equals sign is no longer than the text that held it. -/
theorem length_afterEquals_le
    {total : Nat}
    {text rest : Text}
    (found : afterEquals total text = .ok rest) :
    rest.length ≤ text.length := by
  have dropped : (text.dropWhile isTagBlank).length ≤ text.length :=
    (List.dropWhile_sublist _).length_le
  unfold afterEquals at found
  split at found
  · rename_i inner shape
    simp only [Except.ok.injEq] at found
    subst found
    rw [shape] at dropped
    simp only [List.length_cons] at dropped
    omega
  · simp at found

/-- What is left behind an attribute is shorter than the text that held it. -/
theorem length_takeAttribute_lt
    {total : Nat}
    {seen : List (Text × Nat)}
    {text rest : Text}
    {found : Attribute}
    (read : takeAttribute total seen text = .ok (found, rest)) :
    rest.length < text.length := by
  unfold takeAttribute at read
  split at read
  · simp at read
  · rename_i first inner
    simp only [bind, Except.bind] at read
    split at read
    · simp at read
    · rename_i behind equals
      have shorter := length_afterEquals_le equals
      split at read
      · simp at read
      · split at read
        · simp at read
        · rename_i pair quoted
          obtain ⟨value, later⟩ := pair
          have behindValue := length_quotedValue_le quoted
          simp only [pure, Except.pure, Except.ok.injEq, Prod.mk.injEq] at read
          obtain ⟨_, rfl⟩ := read
          simp only [List.length_drop, List.length_cons] at shorter ⊢
          omega

/-- The attributes in the rest of a tag of `total` bytes up to the first one that cannot be
read, and the error there; `seen` holds the names read so far with their places. -/
def attributesFrom
    (total : Nat)
    (seen : List (Text × Nat))
    (text : Text) :
    List Attribute × Option AttributeError :=
  match _ : text.dropWhile isTagBlank with
  | [] => ([], none)
  | first :: inner =>
      match _ : takeAttribute total seen (first :: inner) with
      | .error error => ([], some error)
      | .ok (found, rest) =>
          let place := total - Text.byteLength (first :: inner)
          let (later, error) := attributesFrom total ((found.name, place) :: seen) rest
          (found :: later, error)
termination_by text.length
decreasing_by
  have shape : text.dropWhile isTagBlank = first :: inner := ‹_›
  have shorter := length_takeAttribute_lt ‹_›
  have dropped : (text.dropWhile isTagBlank).length ≤ text.length :=
    (List.dropWhile_sublist _).length_le
  rw [shape] at dropped
  omega

/-- The attributes of a start tag up to the first one that cannot be read, and the error
there. -/
def attributes (tag : Text) : List Attribute × Option AttributeError :=
  attributesFrom (Text.byteLength tag) [] (tag.drop (tagName tag).length)

end LocalizationScan.Xml
