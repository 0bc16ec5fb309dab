import LocalizationScan.Declaration

namespace LocalizationScan.Markup

/-!
# Page directives and script tags

What a page says about its code in the text of its `<%@ %>` directives and of
its `<script>` tags.  Attributes are read where their name starts a word; the
first one that can be read counts.
-/

/-- What follows the name of an attribute, an equals sign and at most one quote. -/
def attributeValue? (name text : Text) : Option Text := do
  let rest ← Text.afterFolded? name text
  let rest ← Text.after? ['='] (Text.trimLeft rest)
  match Text.trimLeft rest with
  | '"' :: value | '\'' :: value => return value
  | value => return value

/-- The value of an attribute at the start of a text, as a run of the given characters. -/
def attribute? (name : Text) (valueChar : Char → Bool) (text : Text) : Option Text := do
  let (value, _) ← Text.takeSome? valueChar (← attributeValue? name text)
  return value

/-- What follows the name of a directive, when it is the given word. -/
def afterDirective? (name text : Text) : Option Text := do
  let rest ← Text.afterFolded? name (Text.trimLeft text)
  if Text.wordFollows rest then none else some rest

/-- The namespace that an `Import` directive brings into scope. -/
def importedNamespace? (directive : Text) : Option Text := do
  let rest ← afterDirective? "import".toList directive
  Text.findAtWordStart? (attribute? "namespace".toList isPathChar) true rest

/-- Whether a character can stand in the name of a language. -/
def isLanguageChar (char : Char) : Bool :=
  Text.isWordChar char || char == '#'

/-- The language name of a directive that describes the whole page. -/
def languageName? (directive : Text) : Option Text := do
  let rest ← ["page".toList, "control".toList, "master".toList].findSome? fun name =>
    afterDirective? name directive
  Text.findAtWordStart? (attribute? "language".toList isLanguageChar) true rest

/-- Whether a text starts with the attribute that makes a script run on the server. -/
def runsOnServer? (text : Text) : Option Unit := do
  let rest ← Text.afterFolded? "server".toList (← attributeValue? "runat".toList text)
  if Text.wordFollows rest then none else some ()

/-- Whether the text of an opening script tag says that the script runs on the server. -/
def isServerScript (tag : Text) : Bool :=
  (Text.findAtWordStart? runsOnServer? false tag).isSome

end LocalizationScan.Markup
