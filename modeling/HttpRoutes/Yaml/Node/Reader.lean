import HttpRoutes.Yaml.Node.Basic
import HttpRoutes.Yaml.Token.Lexer

/-!
# Reading the nodes of YAML texts

A text with exactly one document has one root node, which may be left out.

Reading a node either takes a token or hands over to a reader that takes one, so
a multiple of the number of tokens bounds how deep readers call each other.
-/

namespace HttpRoutes.Yaml

/-! ## Properties -/

/-- Tokens that remain to be read, and what the names in them stand for. -/
structure Source where
  tokens : List Token
  /-- The number of each anchor name. -/
  anchors : List (String × Nat)
  /-- The beginnings of tags that handles stand for. -/
  handles : List (String × Tag)

/-- What may be written in front of a node's content. -/
structure Properties where
  anchor : Option Nat
  tag : Option Tag

namespace Source

/-- The number for the next anchor. -/
def nextAnchor (source : Source) : Nat := source.anchors.length

def withAnchor (name : String) (source : Source) : Source :=
  { source with
    anchors := (name, source.nextAnchor) ::
      source.anchors.filter fun entry => entry.1 != name }

/-- The full tag that a handle and a suffix stand for. -/
def tag? (handle : String) (suffix : Tag) (source : Source) : Option Tag :=
  if handle.isEmpty then some suffix
  else (source.handles.lookup handle).map (· ++ suffix)

/-- Read an anchor and a tag, in either order. -/
def readProperties (source : Source) : Option (Properties × Source) :=
  match source.tokens with
  | .anchor name :: .tag handle suffix :: tokens
  | .tag handle suffix :: .anchor name :: tokens => do
    let tag ← source.tag? handle suffix
    pure (⟨some source.nextAnchor, some tag⟩,
      { source.withAnchor name with tokens := tokens })
  | .anchor name :: tokens =>
    some (⟨some source.nextAnchor, none⟩,
      { source.withAnchor name with tokens := tokens })
  | .tag handle suffix :: tokens => do
    let tag ← source.tag? handle suffix
    pure (⟨none, some tag⟩, { source with tokens := tokens })
  | _ => some (⟨none, none⟩, source)

end Source

/-- The scalar with this text. -/
def Properties.scalar (isPlain : Bool) (text : String) (properties : Properties) :
    Node :=
  .scalar properties.anchor properties.tag isPlain text

/-- The node where nothing follows the properties. -/
def Properties.emptyScalar? (properties : Properties) : Option Node :=
  if properties.anchor.isSome || properties.tag.isSome then
    some (.scalar properties.anchor properties.tag true "")
  else
    none

/-! ## Collections -/

/-- Where a node of some collection may be left out: in front of these tokens. -/
structure Place where
  inBlock : Bool
  /-- Whether a sequence may stand here without being indented. -/
  indentless : Bool
  ends : List Token

namespace Place

def blockItem : Place := ⟨true, false, [.blockEntry, .blockEnd]⟩

def indentlessItem : Place := ⟨true, false, [.blockEntry, .key, .value, .blockEnd]⟩

def blockMember : Place := ⟨true, true, [.key, .value, .blockEnd]⟩

def flowItem : Place := ⟨false, false, []⟩

def flowKey : Place := ⟨false, false, [.value, .flowEntry, .flowMappingEnd]⟩

def flowValue : Place := ⟨false, false, [.flowEntry, .flowMappingEnd]⟩

def pairValue : Place := ⟨false, false, [.flowEntry, .flowSequenceEnd]⟩

def content : Place := ⟨true, false, []⟩

end Place

mutual

/-- Read a node at a place where it may be left out. -/
def readPlace (place : Place) : Nat → Source → Option (Node × Source)
  | 0, _ => none
  | fuel + 1, source =>
    if source.tokens.head?.any place.ends.contains then some (.empty, source)
    else readNode place.inBlock place.indentless fuel source

def readNode (inBlock indentless : Bool) : Nat → Source → Option (Node × Source)
  | 0, _ => none
  | fuel + 1, source =>
    match source.tokens with
    | .alias name :: tokens => do
      let target ← source.anchors.lookup name
      pure (.alias target, { source with tokens := tokens })
    | _ => do
      let (properties, source) ← source.readProperties
      match source.tokens, inBlock, indentless with
      | .blockEntry :: _, _, true => do
        let (items, source) ← readIndentlessItems fuel source
        pure (.sequence properties.anchor items, source)
      | .scalar isPlain text :: tokens, _, _ =>
        some (properties.scalar isPlain text, { source with tokens := tokens })
      | .flowSequenceStart :: tokens, _, _ => do
        let (items, source) ← readFlowItems fuel { source with tokens := tokens }
        pure (.sequence properties.anchor items, source)
      | .flowMappingStart :: tokens, _, _ => do
        let (members, source) ← readFlowMembers fuel { source with tokens := tokens }
        pure (.mapping properties.anchor members, source)
      | .blockSequenceStart :: tokens, true, _ => do
        let (items, source) ← readBlockItems fuel { source with tokens := tokens }
        pure (.sequence properties.anchor items, source)
      | .blockMappingStart :: tokens, true, _ => do
        let (members, source) ← readBlockMembers fuel { source with tokens := tokens }
        pure (.mapping properties.anchor members, source)
      | _, _, _ => do
        let node ← properties.emptyScalar?
        pure (node, source)

def readBlockItems : Nat → Source → Option (List Node × Source)
  | 0, _ => none
  | fuel + 1, source =>
    match source.tokens with
    | .blockEntry :: tokens => do
      let (item, source) ← readPlace .blockItem fuel { source with tokens := tokens }
      let (items, source) ← readBlockItems fuel source
      pure (item :: items, source)
    | .blockEnd :: tokens => some ([], { source with tokens := tokens })
    | _ => none

def readIndentlessItems : Nat → Source → Option (List Node × Source)
  | 0, _ => none
  | fuel + 1, source =>
    match source.tokens with
    | .blockEntry :: tokens => do
      let (item, source) ←
        readPlace .indentlessItem fuel { source with tokens := tokens }
      let (items, source) ← readIndentlessItems fuel source
      pure (item :: items, source)
    | _ => some ([], source)

def readBlockMembers : Nat → Source → Option (List Node × Source)
  | 0, _ => none
  | fuel + 1, source =>
    match source.tokens with
    | .key :: tokens => do
      let (key, source) ← readPlace .blockMember fuel { source with tokens := tokens }
      let (value, source) ← readValue .blockMember fuel source
      let (members, source) ← readBlockMembers fuel source
      pure (key :: value :: members, source)
    | .blockEnd :: tokens => some ([], { source with tokens := tokens })
    | _ => none

/-- Read the value of an entry whose key has been read, if there is one. -/
def readValue (place : Place) : Nat → Source → Option (Node × Source)
  | 0, _ => none
  | fuel + 1, source =>
    match source.tokens with
    | .value :: tokens => readPlace place fuel { source with tokens := tokens }
    | _ => some (.empty, source)

/-- Read the items of a flow sequence.  An item with a key is a mapping that has
this entry only. -/
def readFlowItems : Nat → Source → Option (List Node × Source)
  | 0, _ => none
  | fuel + 1, source =>
    match source.tokens with
    | .flowSequenceEnd :: tokens => some ([], { source with tokens := tokens })
    | tokens => do
      let (item, source) ←
        match tokens with
        | .key :: tokens => readFlowPair fuel { source with tokens := tokens }
        | _ => readPlace .flowItem fuel source
      match source.tokens with
      | .flowEntry :: tokens => do
        let (items, source) ← readFlowItems fuel { source with tokens := tokens }
        pure (item :: items, source)
      | .flowSequenceEnd :: tokens =>
        some ([item], { source with tokens := tokens })
      | _ => none

/-- Read the entry of a flow sequence from behind its key indicator on.  Where
the key is left out, the token in its place is passed over. -/
def readFlowPair : Nat → Source → Option (Node × Source)
  | 0, _ => none
  | fuel + 1, source => do
    let (key, source) ←
      match source.tokens with
      | .value :: tokens
      | .flowEntry :: tokens
      | .flowSequenceEnd :: tokens =>
        some (.empty, { source with tokens := tokens })
      | _ => readPlace .flowItem fuel source
    let (value, source) ← readValue .pairValue fuel source
    pure (.mapping none [key, value], source)

def readFlowMembers : Nat → Source → Option (List Node × Source)
  | 0, _ => none
  | fuel + 1, source =>
    match source.tokens with
    | .flowMappingEnd :: tokens => some ([], { source with tokens := tokens })
    | tokens => do
      let (key, value, source) ←
        match tokens with
        | .key :: tokens => do
          let (key, source) ←
            readPlace .flowKey fuel { source with tokens := tokens }
          let (value, source) ← readValue .flowValue fuel source
          pure (key, value, source)
        | _ => do
          let (key, source) ← readPlace .flowItem fuel source
          pure (key, .empty, source)
      match source.tokens with
      | .flowEntry :: tokens => do
        let (members, source) ← readFlowMembers fuel { source with tokens := tokens }
        pure (key :: value :: members, source)
      | .flowMappingEnd :: tokens =>
        some ([key, value], { source with tokens := tokens })
      | _ => none

end

/-! ## Documents -/

def defaultHandles : List (String × Tag) :=
  [("!", tagBytes ['!']), ("!!", tagBytes "tag:yaml.org,2002:".toList)]

/-- Read the directives in front of a document: at most one for the version,
which has to be 1.1 or 1.2, and one for each handle. -/
def readDirectives (hasVersion : Bool) (handles : List (String × Tag)) :
    List Token → Option (List (String × Tag) × List Token)
  | .versionDirective major minor :: tokens =>
    if hasVersion || major != 1 || (minor != 1 && minor != 2) then none
    else readDirectives true handles tokens
  | .tagDirective handle start :: tokens =>
    if (handles.lookup handle).isSome then none
    else readDirectives hasVersion ((handle, start) :: handles) tokens
  | tokens => some (handles, tokens)

/-- Whether a token stands in front of a document's content, or after it. -/
def Token.isOutsideContent : Token → Bool
  | .versionDirective .. => true
  | .tagDirective .. => true
  | .documentStart => true
  | .documentEnd => true
  | _ => false

/-- Read a document's content after its start has been marked. -/
def readContent (handles : List (String × Tag)) (tokens : List Token) :
    Option (Node × List Token) :=
  if tokens.head?.all Token.isOutsideContent then some (.empty, tokens)
  else do
    let (node, source) ←
      readPlace .content (4 * tokens.length + 4) ⟨tokens, [], handles⟩
    pure (node, source.tokens)

/-- Read a document.  Without directives its start need not be marked. -/
def readDocument (tokens : List Token) : Option (Node × List Token) := do
  let (handles, remaining) ← readDirectives false [] tokens
  match remaining with
  | .documentStart :: remaining =>
    readContent (handles ++ defaultHandles) remaining
  | [] => if tokens.isEmpty then some (.empty, []) else none
  | token :: _ =>
    if token.isOutsideContent || remaining.length < tokens.length then none
    else readContent defaultHandles tokens

namespace Node

/-- The root node of a text with exactly one document. -/
def ofTokens? (tokens : List Token) : Option Node := do
  let (node, tokens) ← readDocument tokens
  if tokens.all (· = .documentEnd) then some node else none

def ofText? (text : String) : Option Node := do
  let tokens ← tokens? text
  ofTokens? tokens

end Node
end HttpRoutes.Yaml
