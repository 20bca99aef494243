import HttpRoutes.Yaml.Block
import HttpRoutes.Yaml.Token.Scan
import HttpRoutes.Yaml.Token.Tag

/-!
# Reading the tokens of YAML texts

A character, now and then with the one behind it, tells which token begins at a
place.  Reading a token takes at least one character, so the length of the text
bounds how many there are to read.
-/

namespace HttpRoutes.Yaml
namespace Scan

/-! ## Indicators -/

/-- Read a token of `width` characters that cannot be part of a key. -/
def readMarker (width : Nat) (token : Token) (scan : Scan) : Option Scan := do
  let scan ← (scan.closeBlocks 0).dropCandidate
  pure (({ scan with keyAllowed := false }.push token).skip width)

def openFlow (token : Token) (scan : Scan) : Option Scan := do
  let scan ← scan.addCandidate
  pure (({ scan with
    candidates := none :: scan.candidates
    keyAllowed := true }.push token).skip 1)

def closeFlow (token : Token) (scan : Scan) : Option Scan := do
  let scan ← scan.dropCandidate
  let candidates :=
    if scan.inFlow then scan.candidates.drop 1 else scan.candidates
  pure (({ scan with
    candidates := candidates
    keyAllowed := false }.push token).skip 1)

def readFlowEntry (scan : Scan) : Option Scan := do
  let scan ← scan.dropCandidate
  pure (({ scan with keyAllowed := true }.push .flowEntry).skip 1)

/-- Open a block for an indicator, which has to stand where a key may begin. -/
def openBlockFor (token : Token) (scan : Scan) : Option Scan :=
  if scan.inFlow then some scan
  else if scan.keyAllowed then
    some (scan.openBlock scan.position.column scan.tokens.size token)
  else none

def readBlockEntry (scan : Scan) : Option Scan := do
  let scan ← scan.openBlockFor .blockSequenceStart
  let scan ← scan.dropCandidate
  pure (({ scan with keyAllowed := true }.push .blockEntry).skip 1)

def readKey (scan : Scan) : Option Scan := do
  let scan ← scan.openBlockFor .blockMappingStart
  let scan ← scan.dropCandidate
  pure (({ scan with keyAllowed := !scan.inFlow }.push .key).skip 1)

/-- Read the indicator of a value.  The current candidate turns out to be the
key; without one the key has been marked, or is empty. -/
def readValue (scan : Scan) : Option Scan := do
  let scan ←
    match scan.candidates with
    | some candidate :: others =>
      let scan := scan.insert candidate.token .key
      let scan := scan.openBlock candidate.position.column candidate.token
        .blockMappingStart
      some { scan with candidates := none :: others, keyAllowed := false }
    | _ => do
      let scan ← scan.openBlockFor .blockMappingStart
      some { scan with keyAllowed := !scan.inFlow }
  pure ((scan.push .value).skip 1)

/-! ## Anchors, tags and directives -/

def readTag (scan : Scan) : Option Scan := do
  let scan ← scan.addCandidate
  let (handle, suffix, cs) ← readTagParts scan.remaining
  if startsWithSpace cs || (scan.inFlow && cs.head? = some ',') then
    pure (({ scan with keyAllowed := false }.push (.tag handle suffix)).moveTo cs)
  else
    none

/-- Whether an anchor or alias may end in front of these characters. -/
def endsAnchor (cs : List Char) : Bool :=
  startsWithSpace cs || (cs.head?.any fun c => "?:,]\x7d%@\x60".toList.contains c)

/-- Read an anchor or an alias from its indicator on. -/
def readAnchor (token : String → Token) (scan : Scan) : Option Scan := do
  let scan ← scan.addCandidate
  let cs := scan.remaining.drop 1
  let name := cs.takeWhile isWordChar
  if name.isEmpty || !endsAnchor (cs.dropWhile isWordChar) then
    none
  else
    pure (({ scan with keyAllowed := false }.push
      (token (String.ofList name))).skip (name.length + 1))

/-- Read a directive, which takes up its line. -/
def readDirective (scan : Scan) : Option Scan := do
  let scan ← (scan.closeBlocks 0).dropCandidate
  let (token, cs) ← readDirectiveToken (scan.remaining.drop 1)
  let scan := { scan with keyAllowed := false }.push token |>.moveTo cs
  let (position, cs) ← readHeaderEnd scan.position scan.remaining
  pure { scan with position := position, remaining := cs }

/-! ## Scalars -/

def addScalar (isPlain : Bool) (read : ReadScalar) (scan : Scan) : Scan :=
  { scan with
    tokens := scan.tokens.push (.scalar isPlain read.text)
    position := read.position
    remaining := read.remaining }

def readBlockScalar (literal : Bool) (scan : Scan) : Option Scan := do
  let scan ← scan.dropCandidate
  let read ← readBlock literal scan.minIndent
    (scan.position.pastAll (scan.remaining.take 1)) (scan.remaining.drop 1)
  pure ({ scan with keyAllowed := true }.addScalar false read)

def readQuotedScalar (single : Bool) (scan : Scan) : Option Scan := do
  let scan ← scan.addCandidate
  let pos := scan.position.pastAll (scan.remaining.take 1)
  let cs := scan.remaining.drop 1
  let read ←
    if single then readSingleQuoted pos .start cs
    else readDoubleQuoted none pos .start cs
  pure ({ scan with keyAllowed := false }.addScalar false read)

def readPlainScalar (scan : Scan) : Option Scan := do
  let scan ← scan.addCandidate
  let read ← readPlain scan.inFlow scan.minIndent .start scan.position .start
    scan.remaining
  pure ({ scan with keyAllowed := read.broken }.addScalar true read)

/-- Whether a plain scalar can begin with `c` in front of `cs`. -/
def startsPlain (inFlow : Bool) (c : Char) (cs : List Char) : Bool :=
  if c = '-' then !(cs.head?.any isBlank)
  else if c = '?' || c = ':' then !inFlow && !startsWithSpace cs
  else
    !(isBlank c || isBreak c || isFlowIndicator c ||
      "#&*!|>'\"%@\x60".toList.contains c)

/-- Read the token that begins at the current place. -/
def readToken (scan : Scan) : Option Scan :=
  match scan.remaining with
  | [] => none
  | c :: cs =>
    let inFlow := scan.inFlow
    let atLineStart := scan.position.column = 0
    if atLineStart && c = '%' then scan.readDirective
    else if atLineStart && startsWithMarker (c :: cs) then
      scan.readMarker 3 (if c = '-' then .documentStart else .documentEnd)
    else if c = '[' then scan.openFlow .flowSequenceStart
    else if c = '{' then scan.openFlow .flowMappingStart
    else if c = ']' then scan.closeFlow .flowSequenceEnd
    else if c = '}' then scan.closeFlow .flowMappingEnd
    else if c = ',' then scan.readFlowEntry
    else if c = '-' && startsWithSpace cs then scan.readBlockEntry
    else if c = '?' && (inFlow || startsWithSpace cs) then scan.readKey
    else if c = ':' && (inFlow || startsWithSpace cs) then scan.readValue
    else if c = '*' then scan.readAnchor .alias
    else if c = '&' then scan.readAnchor .anchor
    else if c = '!' then scan.readTag
    else if c = '|' && !inFlow then scan.readBlockScalar true
    else if c = '>' && !inFlow then scan.readBlockScalar false
    else if c = '\'' then scan.readQuotedScalar true
    else if c = '"' then scan.readQuotedScalar false
    else if startsPlain inFlow c cs then scan.readPlainScalar
    else none

/-- Read tokens up to the end of the text.  `fuel` bounds their number. -/
def readTokens : Nat → Scan → Option (List Token)
  | 0, _ => none
  | fuel + 1, scan => do
    let scan ← scan.skipSpace.dropExpired
    let scan := scan.closeBlocks (scan.position.column + 1)
    if scan.remaining.isEmpty then
      let scan ← (scan.closeBlocks 0).dropCandidate
      pure scan.tokens.toList
    else
      let scan ← scan.readToken
      readTokens fuel scan

end Scan

/-- The tokens of a text. -/
def tokens? (text : String) : Option (List Token) :=
  let cs := text.toList
  if cs.all isAllowed then (Scan.start cs).readTokens (cs.length + 1) else none

end HttpRoutes.Yaml
