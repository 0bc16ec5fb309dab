import LocalizationScan.Proofs.Resource.Reading

namespace LocalizationScan

/-!
# Written containers

A resource container as a tree, the document that it is written as, and the keys
and values that stand in it.  Reading the document gives the keys and values
back: what an element leaves behind does not depend on what follows it.
-/

/-- A node of a container that is no `data` element and holds none. -/
inductive Container.Node where
  | between (piece : Xml.Piece)
  | element
      (tag : Xml.Tag)
      (noData : tag.name.text ≠ "data".toList)
      (children : List Container.Node)

/-- What can stand in a `data` element. -/
inductive Container.Part where
  | between (piece : Xml.Piece)
  | leaf (tag : Xml.Tag) (noData : tag.name.text ≠ "data".toList) (pieces : List Xml.Piece)

/-- A `data` element. -/
structure Container.DataElement where
  fields : List Xml.Field
  distinct : (fields.map fun field => field.name.text).Nodup
  parts : List Container.Part

/-- What can stand in the root of a container. -/
inductive Container.Child where
  | data (element : Container.DataElement)
  | other (node : Container.Node)

/-- A resource container. -/
structure Container where
  tag : Xml.Tag
  noData : tag.name.text ≠ "data".toList
  children : List Container.Child

namespace Container

section Rendering

mutual

/-- A node as it is written. -/
def Node.render : Node → Text
  | .between piece => piece.render
  | .element tag _ children => tag.render ++ renderNodes children ++ tag.renderEnd

def renderNodes : List Node → Text
  | [] => []
  | node :: nodes => node.render ++ renderNodes nodes

end

def Part.render : Part → Text
  | .between piece => piece.render
  | .leaf tag _ pieces => tag.render ++ pieces.flatMap Xml.Piece.render ++ tag.renderEnd

def dataName : Xml.Name :=
  ⟨"data".toList, by decide, by decide⟩

def DataElement.tag (element : DataElement) : Xml.Tag :=
  ⟨dataName, element.fields⟩

def DataElement.render (element : DataElement) : Text :=
  element.tag.render ++ element.parts.flatMap Part.render ++ element.tag.renderEnd

def Child.render : Child → Text
  | .data element => element.render
  | .other node => node.render

/-- The document that a container is written as. -/
def render (container : Container) : Text :=
  container.tag.render ++ container.children.flatMap Child.render ++ container.tag.renderEnd

end Rendering

section Meaning

/-- Whether an attribute says that an entry is no string. -/
def isTyped (field : Xml.Field) : Bool :=
  field.name.text = "type".toList || field.name.text = "mimetype".toList

def isKey (field : Xml.Field) : Bool :=
  field.name.text = "name".toList

/-- The key of a `data` element, if it is a string entry. -/
def DataElement.key? (element : DataElement) : Option Text :=
  if element.fields.any isTyped then none
  else (element.fields.find? isKey).map Xml.Field.value

/-- The text of a `value` element. -/
def Part.value? : Part → Option Text
  | .between _ => none
  | .leaf tag _ pieces =>
      if tag.name.text = "value".toList then some (pieces.flatMap Xml.Piece.content) else none

/-- The text of the last `value` element of a `data` element; empty if there is none. -/
def DataElement.value (element : DataElement) : Text :=
  (element.parts.filterMap Part.value?).getLast?.getD []

/-- The key and the value that a child of the root stands for. -/
def Child.text? : Child → Option (Text × Text)
  | .data element => element.key?.map fun key => (key, element.value)
  | .other _ => none

/-- The keys and values of the string entries of a container, in document order. -/
def texts (container : Container) : List (Text × Text) :=
  container.children.filterMap Child.text?

end Meaning

end Container

namespace Container

open ContainerState

variable {total : Nat} {opened : List Text} {key? : Option Text} {value rest : Text}
  {found : List (Text × Text)}

/-- Reading between `data` elements; the value is a leftover. -/
def outside (value : Text) : ContainerState :=
  ⟨none, false, value⟩

/-- Reading in a `data` element, between the elements in it. -/
def inData (key? : Option Text) (value : Text) : ContainerState :=
  ⟨some key?, false, value⟩

section Other

mutual

/-- What stands outside of `data` elements says nothing. -/
theorem Node.reads
    {opened : List Text}
    {rest : Text}
    (node : Node)
    (behind : (outside value).Reads total opened rest found) :
    (outside value).Reads total opened (node.render ++ rest) found := by
  match node with
  | .between piece => exact Reads.piece behind
  | .element tag noData children =>
      rw [Node.render, List.append_assoc, List.append_assoc]
      have behindChildren :
          (outside value).Reads total (tag.name.text :: opened) (tag.renderEnd ++ rest) found :=
        Reads.endTag behind (closeTag_eq_self noData rfl)
      exact Reads.tag (reads_renderNodes children behindChildren)
        (openTag_eq_self noData fun _ => rfl)

theorem reads_renderNodes
    {opened : List Text}
    {rest : Text}
    (nodes : List Node)
    (behind : (outside value).Reads total opened rest found) :
    (outside value).Reads total opened (renderNodes nodes ++ rest) found := by
  match nodes with
  | [] => exact behind
  | node :: nodes =>
      rw [renderNodes, List.append_assoc]
      exact node.reads (reads_renderNodes nodes behind)

end

end Other

section Data

/-- An element in a `data` element leaves its text behind if it is a `value` element. -/
theorem Part.reads
    (part : Part)
    (behind : (inData key? (part.value?.getD value)).Reads total opened rest found) :
    (inData key? value).Reads total opened (part.render ++ rest) found := by
  cases part with
  | between piece => exact Reads.piece behind
  | leaf tag noData pieces =>
      rw [Part.render, List.append_assoc, List.append_assoc]
      by_cases isValue : tag.name.text = "value".toList
      · rw [Part.value?, if_pos isValue] at behind
        have opens :
            (inData key? value).openTag tag.inner = .ok ⟨some key?, true, []⟩ := by
          rw [openTag, tag.tagName_inner, if_neg noData, isValue]
          rfl
        have closes :
            (⟨some key?, true, pieces.flatMap Xml.Piece.content⟩ : ContainerState).closeTag
                tag.name.text =
              (inData key? (pieces.flatMap Xml.Piece.content), none) := by
          rw [closeTag, if_pos isValue]
          rfl
        have behindPieces :
            (ContainerState.addText ⟨some key?, true, []⟩
                (pieces.flatMap Xml.Piece.content)).Reads total (tag.name.text :: opened)
              (tag.renderEnd ++ rest) found :=
          Reads.endTag behind closes
        exact Reads.tag (Reads.pieces behindPieces) opens
      · rw [Part.value?, if_neg isValue] at behind
        have behindPieces :
            ((inData key? value).addText (pieces.flatMap Xml.Piece.content)).Reads total
              (tag.name.text :: opened) (tag.renderEnd ++ rest) found :=
          Reads.endTag behind (closeTag_eq_self noData rfl)
        exact Reads.tag (Reads.pieces behindPieces)
          (openTag_eq_self noData fun same => absurd same isValue)

theorem reads_parts
    (parts : List Part)
    (behind :
      (inData key? ((parts.filterMap Part.value?).getLast?.getD value)).Reads total opened rest
        found) :
    (inData key? value).Reads total opened (parts.flatMap Part.render ++ rest) found := by
  induction parts generalizing value with
  | nil => exact behind
  | cons part parts inductionHypothesis =>
      rw [List.flatMap_cons, List.append_assoc]
      refine part.reads (inductionHypothesis ?_)
      cases text : part.value? with
      | none =>
          rw [List.filterMap_cons_none text] at behind
          exact behind
      | some text' =>
          rw [List.filterMap_cons_some text, List.getLast?_cons] at behind
          exact behind

theorem isTyped_iff {field : Xml.Field} :
    isTyped field = true ↔
      field.name.text = "type".toList ∨ field.name.text = "mimetype".toList := by
  rw [isTyped, Bool.or_eq_true, decide_eq_true_iff, decide_eq_true_iff]

section Keys

variable {current : Xml.Attribute} {attributes : List Xml.Attribute}
  {error : Option Xml.AttributeError} {name? : Option Text} {isString : Bool} {name : Text}

theorem entryKey_name
    (isName : current.name = "name".toList)
    (read : Xml.unescape current.rawValue = .ok name) :
    entryKey name? isString (current :: attributes) error =
      entryKey (some name) isString attributes error :=
  (if_pos isName).trans (by rw [read])

theorem entryKey_typed
    (typed : current.name = "type".toList ∨ current.name = "mimetype".toList) :
    entryKey name? isString (current :: attributes) error =
      entryKey name? false attributes error :=
  have noName : current.name ≠ "name".toList := by
    rcases typed with same | same <;> simp [same]
  (if_neg noName).trans (if_pos (by simpa using typed))

theorem entryKey_other
    (noName : current.name ≠ "name".toList)
    (untyped : ¬(current.name = "type".toList ∨ current.name = "mimetype".toList)) :
    entryKey name? isString (current :: attributes) error =
      entryKey name? isString attributes error :=
  (if_neg noName).trans (if_neg (by simpa using untyped))

end Keys

/-- The key among attributes with different names is read off in any order. -/
theorem entryKey_fields
    {fields : List Xml.Field}
    (distinct : (fields.map fun field => field.name.text).Nodup)
    (name? : Option Text)
    (isString : Bool) :
    entryKey name? isString (fields.map Xml.Field.attribute) none =
      .ok
        (if isString && !fields.any isTyped then
          ((fields.find? isKey).map Xml.Field.value).or name?
        else none) := by
  induction fields generalizing name? isString with
  | nil => cases isString <;> rfl
  | cons field fields inductionHypothesis =>
      rw [List.map_cons, List.nodup_cons] at distinct
      obtain ⟨fresh, distinctLater⟩ := distinct
      have later := inductionHypothesis distinctLater
      have sameName : field.attribute.name = field.name.text := field.name_attribute
      rw [List.map_cons]
      by_cases isName : field.name.text = "name".toList
      · have keyed : isKey field = true := decide_eq_true isName
        have untyped : isTyped field = false := by
          simp [isTyped, isName]
        have single : fields.find? isKey = none := by
          refine List.find?_eq_none.mpr fun other member isOther => fresh ?_
          rw [isName, ← of_decide_eq_true isOther]
          exact List.mem_map_of_mem member
        have value : Xml.unescape field.attribute.rawValue = .ok field.value :=
          Xml.unescape_escape field.value
        rw [entryKey_name (sameName.trans isName) value, later]
        simp [keyed, untyped, single]
      · have unkeyed : isKey field = false := decide_eq_false isName
        rw [List.find?_cons_of_neg (by simp [unkeyed]), List.any_cons]
        by_cases typed : field.name.text = "type".toList ∨ field.name.text = "mimetype".toList
        · rw [entryKey_typed (by rwa [sameName]), later, isTyped_iff.mpr typed]
          simp
        · have untyped : isTyped field = false := by rwa [← isTyped_iff, Bool.not_eq_true] at typed
          rw [entryKey_other (by rwa [sameName]) (by rwa [sameName]), later, untyped,
            Bool.false_or]

theorem DataElement.openTag_inner (element : DataElement) (value : Text) :
    (outside value).openTag element.tag.inner = .ok (inData element.key? []) := by
  have isData : element.tag.name.text = "data".toList := rfl
  have fields : element.tag.fields = element.fields := rfl
  rw [openTag, Xml.Tag.tagName_inner, if_pos isData,
    Xml.Tag.attributes_inner element.tag element.distinct, fields]
  dsimp only
  rw [entryKey_fields element.distinct, key?]
  cases element.fields.any isTyped <;> simp [inData, outside, Except.map]

theorem Child.reads
    (child : Child)
    (behind : ∀ value, (outside value).Reads total opened rest found)
    (value : Text) :
    (outside value).Reads total opened (child.render ++ rest) (child.text?.toList ++ found) := by
  cases child with
  | other node => exact node.reads (behind value)
  | data element =>
      change (outside value).Reads total opened (element.render ++ rest) _
      rw [DataElement.render, List.append_assoc, List.append_assoc]
      have closes :
          (inData element.key? element.value).closeTag element.tag.name.text =
            (outside element.value, (Child.data element).text?) := by
        have isData : element.tag.name.text = "data".toList := rfl
        rw [closeTag, if_neg (by rw [isData]; decide), if_pos isData]
        rfl
      exact Reads.tag (reads_parts element.parts (Reads.endTag (behind element.value) closes))
        (element.openTag_inner value)

theorem reads_children
    (children : List Child)
    (behind : ∀ value, (outside value).Reads total opened rest found)
    (value : Text) :
    (outside value).Reads total opened (children.flatMap Child.render ++ rest)
      (children.filterMap Child.text? ++ found) := by
  induction children generalizing value with
  | nil => exact behind value
  | cons child children inductionHypothesis =>
      have here := child.reads inductionHypothesis value
      rw [List.flatMap_cons, List.append_assoc]
      cases text : child.text? with
      | none =>
          rw [List.filterMap_cons_none text]
          rw [text] at here
          exact here
      | some text' =>
          rw [List.filterMap_cons_some text]
          rw [text] at here
          exact here

theorem containerTexts_render (container : Container) :
    containerTexts container.render = .ok container.texts := by
  have behind (total : Nat) (value : Text) :
      (outside value).Reads total [container.tag.name.text] (container.tag.renderEnd ++ [])
        ([] ++ []) :=
    Reads.endTag (reads_nil total [] (outside value)) (closeTag_eq_self container.noData rfl)
  have read (total : Nat) :
      (outside []).Reads total [] container.render container.texts := by
    have children := reads_children container.children (behind total) []
    have whole := Reads.tag children (openTag_eq_self container.noData fun _ => rfl)
    rwa [List.append_nil, List.append_nil, List.append_nil, ← List.append_assoc] at whole
  have noMark : Text.after? ['\uFEFF'] container.render = none := rfl
  rw [containerTexts, Xml.tokens, noMark]
  exact read _

end Data

end Container

/-- A written container is read as the entries that stand in it. -/
theorem Origin.entries_render (origin : Origin) (container : Container) :
    origin.entries container.render =
      .ok (container.texts.map fun (key, value) => ⟨key, value, origin⟩) := by
  rw [entries, container.containerTexts_render]

open Container in
/-- Of two `value` elements the last one counts, and an element with a type is no entry. -/
example :
    let name : Xml.Name := ⟨"name".toList, by decide, by decide⟩
    let type : Xml.Name := ⟨"type".toList, by decide, by decide⟩
    let value : Xml.Tag := ⟨⟨"value".toList, by decide, by decide⟩, []⟩
    let root : Xml.Tag := ⟨⟨"root".toList, by decide, by decide⟩, []⟩
    let string : DataElement :=
      ⟨[⟨name, "K".toList⟩], by decide,
        [.leaf value (by decide) [.text "a".toList],
          .leaf value (by decide) [.cdata "<b>".toList (by decide +kernel), .text "&".toList]]⟩
    let typed : DataElement :=
      ⟨[⟨type, "T".toList⟩, ⟨name, "L".toList⟩], by decide, []⟩
    (⟨root, by decide, [.data string, .data typed]⟩ : Container).texts =
      [("K".toList, "<b>&".toList)] :=
  rfl

end LocalizationScan
