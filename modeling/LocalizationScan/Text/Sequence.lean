import LocalizationScan.Text.CharWidth

namespace LocalizationScan.Text

/-!
# Sequences of characters that are shown as one

Some characters are drawn together: emoji with a skin tone, with a selector or
with joiners between them, the letters of flags, and the ligatures of several
scripts.  A text is measured from its end: what stands behind a character
decides what that character adds.
-/

/-- The ligatures that a joiner or a mark may stand in, named for what is already behind. -/
inductive Ligature where
  /-- The Hebrew letter lamed, which alef joins across a joiner. -/
  | lamed
  /-- The Buginese letter ya, which the vowel i joins across a joiner. -/
  | ya
  /-- The Buginese letter ya with the vowel i, which the letter a joins. -/
  | vowelYa
  /-- A Tifinagh consonant, which another one joins across a joiner. -/
  | tifinagh
  /-- The Tifinagh joiner before a consonant, which another one joins. -/
  | tifinaghJoiner
  /-- The second mark of a Lisu tone, which the first one joins. -/
  | lisuTone
  /-- An Old Turkic vowel, which a consonant joins across a joiner. -/
  | oldTurkic
  /-- A Khmer letter, which the sign for stacking puts below the one before. -/
  | khmer
  deriving Repr, DecidableEq

/-- What stands behind a place, as far as it can join what stands before. -/
inductive Context where
  /-- Nothing that joins. -/
  | other
  | lineFeed
  | skinTone
  /-- One letter of a flag. -/
  | flagLetter
  /-- Two or more letters of flags. -/
  | flagLetters
  | emoji
  /-- A joiner before an emoji. -/
  | joinedEmoji
  /-- A keycap before a joiner and an emoji. -/
  | joinedKeycap
  /-- A letter of a flag before a joiner and an emoji. -/
  | joinedFlagLetter
  /-- Two or more letters of flags before a joiner and an emoji. -/
  | joinedFlagLetters (even : Bool)
  /-- The end of a tag with a number of letters before a joiner and an emoji. -/
  | tagLetters (count : Nat)
  /-- A number of digits before the end of a tag. -/
  | tagDigits (count : Nat)
  /-- The Kirat Rai vowel e. -/
  | kiratE
  /-- The Kirat Rai vowel ai. -/
  | kiratAi
  /-- The Arabic letter alef, maybe behind characters without a width. -/
  | alef
  /-- A part of a ligature; `joined` says that a joiner stands before it. -/
  | ligature (part : Ligature) (joined : Bool)
  deriving Repr, DecidableEq

namespace Context

/-- Whether a selector leaves what stands behind it able to join. -/
def outlastsSelectors : Context → Bool
  | .alef | .ligature _ _ => true
  | _ => false

/-- Whether an emoji with a selector joins what stands behind it. -/
def takesEmoji : Context → Bool
  | .joinedEmoji | .joinedKeycap => true
  | _ => false

/-- Whether a joiner in front belongs to an emoji. -/
def takesJoiner : Context → Bool
  | .emoji | .flagLetters | .joinedFlagLetters _ | .skinTone => true
  | _ => false

/-- What a character by itself is to what stands before it. -/
def ofChar (char : Char) : Context :=
  if isAlef char then .alef
  else if char = '\u05dc' then .ligature .lamed false
  else if isKhmerLetter char then .ligature .khmer true
  else if char = '\u1a10' then .ligature .ya false
  else if isTifinaghConsonant char then .ligature .tifinagh false
  else if isLisuToneEnd char then .ligature .lisuTone true
  else if char.toNat = 0x10C03 then .ligature .oldTurkic false
  else if char.toNat = 0x16D67 then .kiratE
  else if char.toNat = 0x16D68 then .kiratAi
  else if isFlagLetter char then .flagLetter
  else if isSkinTone char then .skinTone
  else if isEmoji char then .emoji
  else .other

/-- Columns that a character in front may take back, since its own covers them. -/
def owed : Context → Int
  | .ligature .khmer _ | .ligature .tifinaghJoiner _ | .joinedFlagLetter
  | .joinedFlagLetters false => 1
  | _ => 0

end Context

/-- What a character adds to the columns behind it, and what stands behind the next place; none
if it does not join a part of a ligature. -/
def joinLigature? (char : Char) (joined : Bool) : Ligature → Option (Int × Context)
  | .lamed => if joined && char == '\u05d0' then some (0, .other) else none
  | .ya => if joined && char == '\u1a17' then some (0, .ligature .vowelYa true) else none
  | .vowelYa => if char = '\u1a15' then some (0, .other) else none
  | .tifinagh =>
      if char = '\u2d7f' then some (1, .ligature .tifinaghJoiner true)
      else if joined && isTifinaghConsonant char then some (0, .other)
      else none
  | .tifinaghJoiner => if isTifinaghConsonant char then some (-1, .other) else none
  | .lisuTone => if isLisuTone char then some (0, .other) else none
  | .oldTurkic => if joined && char.toNat == 0x10C32 then some (0, .other) else none
  | .khmer => if char = '\u17d2' then some (-1, .other) else none

/-- What a character adds to the columns behind it, and what stands behind the next place; none
if it does not join a tag with a number of letters. -/
def joinTag? (char : Char) (count : Nat) : Option (Int × Context) :=
  if isTagLetter char && count < 6 then some (0, .tagLetters (count + 1))
  else if isTagDigit char && count < 5 then some (0, .tagDigits 1)
  else if char.toNat = 0x1F3F4 ∧ 3 ≤ count then some (0, .emoji)
  else none

/-- What a character adds to the columns behind it, and what stands behind the next place; none
if it does not join an emoji with a joiner before it. -/
def joinEmoji? (char : Char) : Option (Int × Context) :=
  if char = '\u20e3' then some (0, .joinedKeycap)
  else if isFlagLetter char then some (1, .joinedFlagLetter)
  else if isSkinTone char then some (0, .skinTone)
  else if char.toNat = 0xE007F then some (0, .tagLetters 0)
  else if isEmoji char then some (0, .emoji)
  else none

/-- What a character adds to the columns behind it, and what stands behind the next place; none
if it does not join what stands behind it. -/
def join? (char : Char) (context : Context) : Option (Int × Context) :=
  if char = joiner ∧ context.takesJoiner then some (0, .joinedEmoji)
  else
    match context with
    | .other | .lineFeed | .emoji | .joinedKeycap => none
    | .skinTone => if takesSkinTone char then some (0, .emoji) else none
    | .flagLetter | .flagLetters => if isFlagLetter char then some (1, .flagLetters) else none
    | .joinedEmoji => joinEmoji? char
    | .joinedFlagLetter | .joinedFlagLetters false =>
        if isFlagLetter char then some (-1, .joinedFlagLetters true) else none
    | .joinedFlagLetters true =>
        if isFlagLetter char then some (3, .joinedFlagLetters false) else none
    | .tagLetters count => joinTag? char count
    | .tagDigits count =>
        if isTagDigit char && count < 3 then some (0, .tagDigits (count + 1))
        else if char.toNat = 0x1F3F4 ∧ count = 3 then some (0, .emoji)
        else none
    | .kiratE =>
        if char.toNat = 0x16D63 ∨ char.toNat = 0x16D69 then some (0, .other)
        else if char.toNat = 0x16D67 then some (0, .kiratAi)
        else if char.toNat = 0x16D68 then some (1, .kiratE)
        else none
    | .kiratAi => if char.toNat = 0x16D63 then some (0, .other) else none
    | .alef =>
        if isLam char then some (0, .other)
        else if isJoinedAcross char then some (0, .alef)
        else none
    | .ligature part joined => joinLigature? char joined part

/-! ## Selectors -/

/-- What stands behind a place, with the selectors before it. -/
structure Following where
  context : Context
  /-- Whether a selector asks for emoji. -/
  asEmoji : Bool
  /-- Whether a selector asks for text. -/
  asText : Bool
  /-- Whether a selector asks for wide quotation marks. -/
  asWideQuote : Bool
  deriving Repr, DecidableEq

namespace Following

/-- What stands behind a place without selectors. -/
def ofContext (context : Context) : Following := ⟨context, false, false, false⟩

/-- The end of a text. -/
def nothing : Following := ofContext .other

/-- What is left behind a selector that the character before it does not heed. -/
def released (following left : Following) : Following :=
  if following.context.outlastsSelectors then left else nothing

/-- Measure a character beyond ASCII that does not heed the selectors behind it. -/
def addPlain (char : Char) (following : Following) : Int × Following :=
  match following.context with
  | .ligature part _ =>
      if char = joiner then (0, { following with context := .ligature part true })
      else if isIgnoredMark char then (0, following)
      else join char following
  | _ => join char following
where
  /-- Measure a character that joins what stands behind it or stands by itself. -/
  join (char : Char) (following : Following) : Int × Following :=
    match if following.asWideQuote then none else join? char following.context with
    | some (columns, context) => (columns, ofContext context)
    | none => (charWidth char, ofContext (.ofChar char))

/-- Measure a character beyond ASCII behind which no selector asks for emoji. -/
def addBeyond (char : Char) (following : Following) : Int × Following :=
  if char = emojiSelector then
    if following.context.takesEmoji then (0, { following with asEmoji := true })
    else (0, { following.released following with asEmoji := true })
  else if char = textSelector then (0, { following.released following with asText := true })
  else if char = wideQuoteSelector then
    (0, { following.released following with asWideQuote := true })
  else if following.asText then
    if isNarrowAsText char then (1, nothing)
    else addPlain char (following.released { following with asText := false })
  else if following.asWideQuote then
    if isCurlyQuote char then (2, nothing)
    else addPlain char (following.released { following with asWideQuote := false })
  else addPlain char following

/-- Measure a character behind which no selector asks for emoji.  A line feed takes a column,
a carriage return before it none, and every other control character one. -/
def addUnselected (char : Char) (following : Following) : Int × Following :=
  if char = '\n' then (1, ofContext .lineFeed)
  else if char = '\r' ∧ following = ofContext .lineFeed then (0, nothing)
  else if char.toNat ≤ 0xA0 then (1, nothing)
  else addBeyond char following

/-- What a character adds to the columns of the text behind it, and what then stands behind the
next place. -/
def add (char : Char) (following : Following) : Int × Following :=
  if following.asEmoji then
    if isSelectable char then
      (if following.context.takesEmoji then 0 else 2, ofContext .emoji)
    else addUnselected char (following.released { following with asEmoji := false })
  else addUnselected char following

end Following

/-! ## What is taken back -/

/-- A character by itself brings the columns that may be taken back. -/
theorem Context.owed_ofChar_le (char : Char) :
    (Context.ofChar char).owed ≤ charWidth char := by
  have visible := @charWidth_pos_of_isKhmerLetter char
  unfold ofChar
  simp only [apply_ite Context.owed]
  simp only [owed, ite_self]
  grind

/-- No columns are owed in advance. -/
theorem Context.owed_nonneg (context : Context) : 0 ≤ context.owed := by
  unfold owed
  split <;> decide

/-- A part of a ligature takes back no more than it may. -/
theorem owed_joinLigature?
    {char : Char}
    {joined : Bool}
    {part : Ligature}
    {next : Context}
    {columns : Int}
    (taken : joinLigature? char joined part = some (columns, next)) :
    next.owed ≤ (Context.ligature part joined).owed + columns := by
  cases part <;> unfold joinLigature? at taken <;> grind [Context.owed]

/-- A part of a tag takes back nothing. -/
theorem owed_joinTag?
    {char : Char}
    {count : Nat}
    {next : Context}
    {columns : Int}
    (taken : joinTag? char count = some (columns, next)) :
    next.owed ≤ columns := by
  unfold joinTag? at taken
  grind [Context.owed]

/-- A part of an emoji brings the columns that may be taken back. -/
theorem owed_joinEmoji?
    {char : Char}
    {next : Context}
    {columns : Int}
    (taken : joinEmoji? char = some (columns, next)) :
    next.owed ≤ columns := by
  unfold joinEmoji? at taken
  grind [Context.owed]

/-- A character that joins takes back no more than it may. -/
theorem owed_join?
    {char : Char}
    {context next : Context}
    {columns : Int}
    (taken : join? char context = some (columns, next)) :
    next.owed ≤ context.owed + columns := by
  have owedNow := context.owed_nonneg
  unfold join? at taken
  split at taken
  · grind [Context.owed]
  · split at taken
    · simp at taken
    · simp at taken
    · simp at taken
    · simp at taken
    · grind [Context.owed]
    · grind [Context.owed]
    · grind [Context.owed]
    · have := owed_joinEmoji? taken
      omega
    · grind [Context.owed]
    · grind [Context.owed]
    · grind [Context.owed]
    · have := owed_joinTag? taken
      omega
    · grind [Context.owed]
    · grind [Context.owed]
    · grind [Context.owed]
    · grind [Context.owed]
    · exact owed_joinLigature? taken

namespace Following

/-- A character beyond ASCII without selectors takes back no more than it may. -/
theorem owed_addPlain_le (char : Char) (following : Following) :
    (addPlain char following).2.context.owed ≤
      following.context.owed + (addPlain char following).1 := by
  have joins :
      (addPlain.join char following).2.context.owed ≤
        following.context.owed + (addPlain.join char following).1 := by
    unfold addPlain.join
    split
    · rename_i columns context joined
      split at joined
      · simp at joined
      · exact owed_join? joined
    · have := Context.owed_ofChar_le char
      have := following.context.owed_nonneg
      simp only [ofContext]
      omega
  unfold addPlain
  split
  · rename_i part between context
    split
    · rw [context]
      cases part <;> exact Int.le_of_eq (Int.add_zero _).symm
    · split
      · exact Int.le_of_eq (Int.add_zero _).symm
      · exact joins
  · exact joins

/-- A selector that is not heeded leaves no more to take back. -/
theorem owed_released_le
    {following left : Following}
    (same : left.context = following.context) :
    (following.released left).context.owed ≤ following.context.owed := by
  have := following.context.owed_nonneg
  unfold released
  split
  · exact Int.le_of_eq (congrArg Context.owed same)
  · exact this

/-- A character beyond ASCII takes back no more than it may. -/
theorem owed_addBeyond_le (char : Char) (following : Following) :
    (addBeyond char following).2.context.owed ≤
      following.context.owed + (addBeyond char following).1 := by
  have owedNow := following.context.owed_nonneg
  have kept := @owed_released_le following following rfl
  have plain : ∀ left : Following, left.context = following.context →
      (addPlain char (following.released left)).2.context.owed ≤
        following.context.owed + (addPlain char (following.released left)).1 := by
    intro left same
    have := owed_addPlain_le char (following.released left)
    have := @owed_released_le following left same
    omega
  unfold addBeyond
  split
  · split
    · exact Int.le_of_eq (Int.add_zero _).symm
    · rw [Int.add_zero]
      exact kept
  · split
    · rw [Int.add_zero]
      exact kept
    · split
      · rw [Int.add_zero]
        exact kept
      · split
        · split
          · change (0 : Int) ≤ following.context.owed + 1
            omega
          · exact plain _ rfl
        · split
          · split
            · change (0 : Int) ≤ following.context.owed + 2
              omega
            · exact plain _ rfl
          · exact owed_addPlain_le char following

/-- A character behind which no selector asks for emoji takes back no more than it may. -/
theorem owed_addUnselected_le (char : Char) (following : Following) :
    (addUnselected char following).2.context.owed ≤
      following.context.owed + (addUnselected char following).1 := by
  have owedNow := following.context.owed_nonneg
  have beyond := owed_addBeyond_le char following
  unfold addUnselected
  split
  · change (0 : Int) ≤ following.context.owed + 1
    omega
  · split
    · change (0 : Int) ≤ following.context.owed + 0
      omega
    · split
      · change (0 : Int) ≤ following.context.owed + 1
        omega
      · exact beyond

/-- A character takes back no more columns of the text behind it than it may. -/
theorem owed_add_le (char : Char) (following : Following) :
    (add char following).2.context.owed ≤ following.context.owed + (add char following).1 := by
  have owedNow := following.context.owed_nonneg
  unfold add
  split
  · split
    · change (0 : Int) ≤ following.context.owed + if _ then 0 else 2
      split <;> omega
    · have unselected := owed_addUnselected_le char
        (following.released { following with asEmoji := false })
      have := @owed_released_le following { following with asEmoji := false } rfl
      omega
  · exact owed_addUnselected_le char following

end Following

end LocalizationScan.Text
