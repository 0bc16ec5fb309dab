import LocalizationScan.Resource.Location
import LocalizationScan.Xml.Token

namespace LocalizationScan

/-!
# Resource containers

A resource container is an XML document.  Its string entries are the `data`
elements with a `name` that carry neither a `type` nor a `mimetype`; the value
is the text of the last `value` element inside.
-/

/-- Why a resource file cannot be loaded. -/
inductive ResourceError where
  /-- The file could not be read, for the given reason. -/
  | unreadable (path reason : Text)
  /-- The content is malformed at some byte. -/
  | malformed (path : Text) (error : Xml.ReadError)
  deriving Repr, DecidableEq

/-- The wording of a resource error. -/
def ResourceError.message : ResourceError → Text
  | .unreadable path reason => "failed to read ".toList ++ path ++ ": ".toList ++ reason
  | .malformed path error =>
      "malformed resource file ".toList ++ path ++ " at byte ".toList ++
        Text.ofNat error.place ++ ": ".toList ++ error.fault.message

/-- How far the reading of a container has come. -/
structure ContainerState where
  /-- The open `data` element, with its key if it is a string entry. -/
  data? : Option (Option Text)
  /-- A `value` element of the open `data` element is open. -/
  inValue : Bool
  /-- The value so far. -/
  value : Text
  deriving Repr, DecidableEq

namespace ContainerState

/-- Nothing is open. -/
def initial : ContainerState := ⟨none, false, []⟩

end ContainerState

/-- The key of a `data` element by its attributes, none if it is no string entry.  The
attributes are looked at in order, so the first fault among them is reported. -/
def entryKey
    (name? : Option Text)
    (isString : Bool) :
    List Xml.Attribute → Option Xml.AttributeError → Except Xml.Fault (Option Text)
  | [], none => .ok (if isString then name? else none)
  | [], some error => .error (.badAttribute error)
  | current :: attributes, error =>
      if current.name = "name".toList then
        match Xml.unescape current.rawValue with
        | .ok name => entryKey (some name) isString attributes error
        | .error fault => .error (.badReference fault)
      else if current.name ∈ ["type".toList, "mimetype".toList] then
        entryKey name? false attributes error
      else
        entryKey name? isString attributes error

namespace ContainerState

/-- The state after a start tag. -/
def openTag (state : ContainerState) (tag : Text) : Except Xml.Fault ContainerState :=
  if Xml.tagName tag = "data".toList then
    let (attributes, error) := Xml.attributes tag
    (entryKey none true attributes error).map fun key? =>
      { state with data? := some key?, value := [] }
  else if Xml.tagName tag = "value".toList && state.data?.isSome then
    .ok { state with inValue := true, value := [] }
  else
    .ok state

/-- The state after an end tag, and the key and value of the entry that it completes. -/
def closeTag (state : ContainerState) (name : Text) : ContainerState × Option (Text × Text) :=
  if name = "value".toList then
    ({ state with inValue := false }, none)
  else if name = "data".toList then
    (⟨none, false, state.value⟩, state.data?.join.map fun key => (key, state.value))
  else
    (state, none)

/-- The state with more text of the open value. -/
def addText (state : ContainerState) (text : Text) : ContainerState :=
  if state.inValue then { state with value := state.value ++ text } else state

/-- The state after a token, and the key and value of the entry that it completes. -/
def next (state : ContainerState) :
    Xml.TokenKind → Except Xml.Fault (ContainerState × Option (Text × Text))
  | .startTag tag => (state.openTag tag).map fun state => (state, none)
  | .endTag name => .ok (state.closeTag name)
  | .text raw =>
      if state.inValue then
        match Xml.unescape raw with
        | .ok text => .ok (state.addText text, none)
        | .error fault => .error (.badReference fault)
      else
        .ok (state, none)
  | .cdata content => .ok (state.addText content, none)
  | .other => .ok (state, none)

end ContainerState

/-- The keys and values among tokens, unless a token or the reading behind them is faulty. -/
def keyedTexts :
    ContainerState → List Xml.Token → Option Xml.ReadError →
      Except Xml.ReadError (List (Text × Text))
  | _, [], none => .ok []
  | _, [], some error => .error error
  | state, token :: tokens, error =>
      match state.next token.kind with
      | .error fault => .error ⟨token.stop, fault⟩
      | .ok (state, completed) =>
          (keyedTexts state tokens error).map fun later => completed.toList ++ later

/-- The keys and values of the string entries of a container, in document order. -/
def containerTexts (content : Text) : Except Xml.ReadError (List (Text × Text)) :=
  let (tokens, error) := Xml.tokens content
  keyedTexts .initial tokens error

/-- The entries of a container with the given content. -/
def Origin.entries (origin : Origin) (content : Text) : Except ResourceError (List Entry) :=
  match containerTexts content with
  | .ok texts => .ok (texts.map fun (key, value) => ⟨key, value, origin⟩)
  | .error error => .error (.malformed origin.path error)

end LocalizationScan
