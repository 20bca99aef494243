import HttpRoutes.Yaml.Chars
import HttpRoutes.Yaml.Token.Basic

/-!
# Places in a YAML text

How far the reading of tokens has come, and what it depends on: which blocks and
flow collections are open, and where a key may have begun.

A key is known as one only from the `:` behind it.  So every place where a key
may begin is kept as a candidate until it is settled; a candidate expires at the
end of its line or after 1024 bytes, which is a fault where the indentation
asks for a key.
-/

namespace HttpRoutes.Yaml

/-- A place where a key may have begun. -/
structure KeyCandidate where
  /-- Whether the indentation asks for a key. -/
  required : Bool
  /-- The number of tokens in front of it. -/
  token : Nat
  position : Position

/-- Whether a candidate can no longer be a key at this position. -/
def KeyCandidate.isExpired (position : Position) (candidate : KeyCandidate) : Bool :=
  candidate.position.line < position.line ||
    candidate.position.index + 1024 < position.index

structure Scan where
  position : Position
  remaining : List Char
  tokens : Array Token
  /-- The columns of the open blocks, innermost first. -/
  indents : List Nat
  /-- A place for a candidate within the blocks and within each open flow
  collection, innermost first. -/
  candidates : List (Option KeyCandidate)
  /-- Whether a key may begin here. -/
  keyAllowed : Bool

namespace Scan

def start (cs : List Char) : Scan := ⟨.start, cs, #[], [], [none], true⟩

def inFlow (scan : Scan) : Bool := 1 < scan.candidates.length

/-- The least column that belongs to the innermost block. -/
def minIndent (scan : Scan) : Nat :=
  match scan.indents with
  | [] => 0
  | column :: _ => column + 1

def push (token : Token) (scan : Scan) : Scan :=
  { scan with tokens := scan.tokens.push token }

/-- Put a token in front of those that came after the first `place`. -/
def insert (place : Nat) (token : Token) (scan : Scan) : Scan :=
  { scan with
    tokens := scan.tokens.extract 0 place ++ #[token] ++
      scan.tokens.extract place scan.tokens.size }

/-- Go `count` characters further on the line. -/
def skip (count : Nat) (scan : Scan) : Scan :=
  { scan with
    position := scan.position.pastAll (scan.remaining.take count)
    remaining := scan.remaining.drop count }

/-- Close the blocks that begin at the column `bound` or beyond. -/
def closeBlocks (bound : Nat) (scan : Scan) : Scan :=
  if scan.inFlow then scan
  else
    let closed := scan.indents.takeWhile (bound ≤ ·)
    { scan with
      indents := scan.indents.dropWhile (bound ≤ ·)
      tokens := scan.tokens ++ Array.replicate closed.length .blockEnd }

/-- Open a block at a column beyond that of the innermost one. -/
def openBlock (column place : Nat) (token : Token) (scan : Scan) : Scan :=
  if scan.inFlow || column < scan.minIndent then scan
  else ({ scan with indents := column :: scan.indents }).insert place token

/-- Give up the current candidate. -/
def dropCandidate (scan : Scan) : Option Scan :=
  match scan.candidates with
  | [] => some scan
  | candidate :: others =>
    if candidate.any KeyCandidate.required then none
    else some { scan with candidates := none :: others }

/-- Keep this place as a candidate if a key may begin here. -/
def addCandidate (scan : Scan) : Option Scan :=
  if scan.keyAllowed then do
    let required := !scan.inFlow && scan.indents.head? = some scan.position.column
    let candidate := ⟨required, scan.tokens.size, scan.position⟩
    let scan ← scan.dropCandidate
    pure { scan with candidates := some candidate :: scan.candidates.drop 1 }
  else
    some scan

/-- Drop the candidates that have expired. -/
def dropExpired (scan : Scan) : Option Scan :=
  let expired := fun (candidate : Option KeyCandidate) =>
    candidate.any (KeyCandidate.isExpired scan.position)
  if scan.candidates.any fun candidate =>
      expired candidate && candidate.any KeyCandidate.required then
    none
  else
    some { scan with
      candidates := scan.candidates.map fun candidate =>
        if expired candidate then none else candidate }

/-- Skip blanks, comments and line breaks in front of a token, and at the start of
a line a byte order mark, which takes up a column.  A tab may not stand where a
key may begin. -/
def skipSpace (scan : Scan) : Scan :=
  let inFlow := scan.inFlow
  let rec go (inComment keyAllowed : Bool) (pos : Position) : List Char → Scan
    | [] => { scan with position := pos, remaining := [], keyAllowed := keyAllowed }
    | '\r' :: '\n' :: cs =>
      go false (keyAllowed || !inFlow) (pos.newLine 2) cs
    | c :: cs =>
      if isBreak c then
        go false (keyAllowed || !inFlow) (pos.newLine c.utf8Size) cs
      else if inComment || c = ' ' || (c = '\t' && (inFlow || !keyAllowed)) ||
          (c = byteOrderMark && pos.column = 0) then
        go inComment keyAllowed (pos.past c) cs
      else if c = '#' then
        go true keyAllowed (pos.past c) cs
      else
        { scan with position := pos, remaining := c :: cs, keyAllowed := keyAllowed }
  go false scan.keyAllowed scan.position scan.remaining
/-- Move to a later place on the same line. -/
def moveTo (cs : List Char) (scan : Scan) : Scan :=
  scan.skip (scan.remaining.length - cs.length)

end Scan
end HttpRoutes.Yaml
