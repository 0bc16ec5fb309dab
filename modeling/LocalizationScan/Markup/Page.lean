import LocalizationScan.Lexical.Event
import LocalizationScan.Markup.Directive

namespace LocalizationScan.Markup

/-!
# Pages

A page of markup is walked once from its start.  Server comments, directives,
code between `<%` and `%>`, and server scripts are recognised; all else is
client markup.  An unterminated construct ends the page.  Every code block is
kept with the position of its first character.
-/

/-- How a code block is written. -/
inductive BlockKind where
  /-- Between `<%` and `%>`. -/
  | statement
  /-- Between `<%=` and `%>`. -/
  | expression
  /-- Between `<%:` and `%>`. -/
  | encodedExpression
  /-- Between `<%#` and `%>`. -/
  | dataBinding
  /-- The body of a script that runs on the server. -/
  | script
  deriving Repr, DecidableEq

/-- A block of code in a page. -/
structure CodeBlock where
  kind : BlockKind
  code : Text
  /-- Position of the first character of the code in the page. -/
  anchor : Position
  deriving Repr, DecidableEq

/-- What a page holds besides client markup. -/
inductive PageItem where
  /-- The text of a directive. -/
  | directive (text : Text)
  | block (block : CodeBlock)
  deriving Repr, DecidableEq

/-- The kind of a block by what follows its `<%`, and the length of its marker. -/
def blockKind : Text → BlockKind × Nat
  | '=' :: _ => (.expression, 1)
  | ':' :: _ => (.encodedExpression, 1)
  | '#' :: _ => (.dataBinding, 1)
  | _ => (.statement, 0)

/-- The code block of an inline construct that ends at the next `%>`, and the length of
the construct. -/
def inlineBlock? (cursor : Cursor) : Option (CodeBlock × Nat) :=
  let (kind, marker) := blockKind (cursor.rest.drop 2)
  let inner := cursor.skip (2 + marker)
  (Text.splitBefore? "%>".toList inner.rest).map fun (code, _) =>
    (⟨kind, code, inner.position⟩, 2 + marker + code.length + 2)

/-- The item of a script tag, if the script runs on the server, and how far to go on: to
the end of the tag, or to the end of the script. -/
def scriptItem? (cursor : Cursor) : Option (Option PageItem × Nat) := do
  let (tag, _) ← Text.splitBefore? ['>'] cursor.rest
  let body := cursor.skip (tag.length + 1)
  if isServerScript tag && tag.getLast? != some '/' then
    let (code, _) ← Text.splitWhere? (Text.startsIgnoringCase "</script".toList) body.rest
    return (some (.block ⟨.script, code, body.position⟩), tag.length + 1 + code.length)
  else
    return (none, tag.length + 1)

/-- The item at the cursor, if there is one, and the number of characters to go on; none
if the construct at the cursor is not terminated. -/
def itemAt? (cursor : Cursor) : Option (Option PageItem × Nat) :=
  match cursor.rest with
  | '<' :: '%' :: '-' :: '-' :: _ =>
      (Text.splitBefore? "--%>".toList cursor.rest).map fun (comment, _) =>
        (none, comment.length + 4)
  | '<' :: '%' :: '@' :: inner =>
      (Text.splitBefore? "%>".toList inner).map fun (text, _) =>
        (some (.directive text), 3 + text.length + 2)
  | '<' :: '%' :: _ =>
      (inlineBlock? cursor).map fun (block, length) => (some (.block block), length)
  | rest =>
      if Text.startsIgnoringCase "<script".toList rest then scriptItem? cursor
      else some (none, 1)

/-- The items from the cursor to the end of the page. -/
def itemsFrom (cursor : Cursor) : List PageItem :=
  match _ : cursor.rest with
  | [] => []
  | _ :: _ =>
      match itemAt? cursor with
      | none => []
      | some (item?, length) => item?.toList ++ itemsFrom (cursor.skip (max 1 length))
termination_by cursor.rest.length
decreasing_by
  simp only [Cursor.skip, List.length_drop, *, List.length_cons]
  omega

/-- A page, by what matters for its code. -/
structure Page where
  /-- The language that the page names first, else C#. -/
  language : Language
  /-- Namespaces that directives bring into scope. -/
  imports : List Text
  blocks : List CodeBlock
  deriving Repr, DecidableEq

namespace PageItem

/-- The text of a directive. -/
def directive? : PageItem → Option Text
  | .directive text => some text
  | .block _ => none

/-- The code block of an item. -/
def block? : PageItem → Option CodeBlock
  | .directive _ => none
  | .block code => some code

end PageItem

/-- The language that a directive names; one that imports a namespace names none. -/
def directiveLanguage? (directive : Text) : Option Language :=
  match importedNamespace? directive with
  | some _ => none
  | none => (languageName? directive).bind Language.ofName?

/-- The page that some items make up. -/
def Page.ofItems (items : List PageItem) : Page :=
  let directives := items.filterMap PageItem.directive?
  ⟨(directives.findSome? directiveLanguage?).getD .csharp,
    directives.filterMap importedNamespace?,
    items.filterMap PageItem.block?⟩

/-- The page with the given content. -/
def Page.ofText (content : Text) : Page :=
  .ofItems (itemsFrom (.ofBlock .start content))

end LocalizationScan.Markup
