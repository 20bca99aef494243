import HttpRoutes.Template.Basic

/-!
# Reading templates

A template is `/`, or `/` followed by segments separated by `/` and, after a
`:`, a custom verb.  Each reader below takes the characters that remain and
gives back what it read together with the rest.  A reader that stops keeps the
characters from the offending one on, so the offset of a fault is the number of
bytes in front of them.

Two facts travel along: whether a `**` has been read, because no plain element
may be written after it, and which field paths have been bound, because no two
variables may bind the same field.
-/

namespace HttpRoutes

/-- Why a template is malformed. -/
inductive Reason where
  | missingSlash
  | verbWithoutSegment
  | unbalancedBrace
  | reservedCharacter
  | elementAfterRest
  | nestedVariable
  | emptySegment
  | unterminatedVariable
  | nameExpected
  | invalidFieldPath
  | invalidVerb
  | emptyVerb
deriving DecidableEq

def Reason.message : Reason → String
  | .missingSlash => "template must start with `/`"
  | .verbWithoutSegment => "custom verb requires at least one segment"
  | .unbalancedBrace => "unbalanced `\x7d`"
  | .reservedCharacter => "reserved character in literal"
  | .elementAfterRest => "`**` must be the final segment"
  | .nestedVariable => "nested variables are not allowed"
  | .emptySegment => "empty segment"
  | .unterminatedVariable => "unterminated variable"
  | .nameExpected => "field path identifier expected"
  | .invalidFieldPath => "invalid character in field path"
  | .invalidVerb => "invalid character in custom verb"
  | .emptyVerb => "empty custom verb"

/-- A fault found while reading: either the characters `remaining` cannot
continue the template, or a variable binds a field for the second time. -/
inductive Fault where
  | malformed (reason : Reason) (remaining : List Char)
  | duplicate (path : FieldPath)
deriving DecidableEq

/-- Why a text is not a template. -/
inductive ParseError where
  | malformed (template : String) (offset : Nat) (reason : Reason)
  | duplicateVariable (template : String) (path : FieldPath)
deriving DecidableEq

namespace Template

/-- Characters that end a literal or a verb. -/
def isDelimiter (c : Char) : Bool :=
  c = '/' || c = ':' || c = '{' || c = '}' || c = '*'

def isTextChar (c : Char) : Bool := !isDelimiter c

def isNameStart (c : Char) : Bool := c.isAlpha || c = '_'

def isNameChar (c : Char) : Bool := c.isAlphanum || c = '_'

/-- Read one plain element.  `restSeen` tells whether a `**` came earlier. -/
def readElement (restSeen : Bool) (cs : List Char) :
    Except Fault (Element × List Char) :=
  if restSeen then
    .error (.malformed .elementAfterRest cs)
  else
    match cs with
    | '*' :: '*' :: tail => .ok (.rest, tail)
    | '*' :: tail => .ok (.any, tail)
    | '{' :: _ => .error (.malformed .nestedVariable cs)
    | _ =>
      match cs.takeWhile isTextChar with
      | [] => .error (.malformed .emptySegment cs)
      | text => .ok (.literal (String.ofList text), cs.dropWhile isTextChar)

theorem length_dropWhile_le (p : Char → Bool) (cs : List Char) :
    (cs.dropWhile p).length ≤ cs.length :=
  (List.dropWhile_sublist p).length_le

theorem readElement_length_lt {restSeen : Bool} {cs tail : List Char}
    {element : Element} (hread : readElement restSeen cs = .ok (element, tail)) :
    tail.length < cs.length := by
  unfold readElement at hread
  split at hread
  · simp at hread
  · split at hread
    · simp only [Except.ok.injEq, Prod.mk.injEq] at hread
      rw [← hread.2]
      simp only [List.length_cons]
      omega
    · simp only [Except.ok.injEq, Prod.mk.injEq] at hread
      rw [← hread.2]
      simp only [List.length_cons]
      omega
    · simp at hread
    · split at hread
      · simp at hread
      · next htext =>
        simp only [Except.ok.injEq, Prod.mk.injEq] at hread
        have hsplit := List.takeWhile_append_dropWhile (p := isTextChar) (l := cs)
        have hlength := congrArg List.length hsplit
        rw [List.length_append, hread.2] at hlength
        have hpos : 0 < (cs.takeWhile isTextChar).length :=
          List.length_pos_iff.mpr htext
        omega

/-- Read the elements of a variable's pattern and the brace that closes it. -/
def readPattern (restSeen : Bool) (cs : List Char) :
    Except Fault (List Element × List Char) :=
  match _hread : readElement restSeen cs with
  | .error fault => .error fault
  | .ok (_, []) => .error (.malformed .unterminatedVariable [])
  | .ok (element, '}' :: tail) => .ok ([element], tail)
  | .ok (element, '/' :: tail) =>
    match readPattern (element = .rest) tail with
    | .error fault => .error fault
    | .ok (elements, tail) => .ok (element :: elements, tail)
  | .ok (_, tail) => .error (.malformed .reservedCharacter tail)
termination_by cs.length
decreasing_by
  have := readElement_length_lt _hread
  simp at this
  omega

theorem readPattern_length_lt {restSeen : Bool} {cs tail : List Char}
    {elements : List Element}
    (hread : readPattern restSeen cs = .ok (elements, tail)) :
    tail.length < cs.length := by
  fun_induction readPattern restSeen cs generalizing elements tail with
  | case1 => simp at hread
  | case2 => simp at hread
  | case3 _ _ _ _ helement =>
      simp only [Except.ok.injEq, Prod.mk.injEq] at hread
      have := readElement_length_lt helement
      simp [← hread.2] at this ⊢
      omega
  | case4 => simp at hread
  | case5 _ _ _ _ helement _ _ htail ih =>
      simp only [Except.ok.injEq, Prod.mk.injEq] at hread
      have := readElement_length_lt helement
      have := ih htail
      simp_all
      omega
  | case6 => simp at hread

/-- Read one name of a field path. -/
def readName : List Char → Except Fault (String × List Char)
  | [] => .error (.malformed .nameExpected [])
  | c :: cs =>
    if isNameStart c then
      .ok (String.ofList (c :: cs.takeWhile isNameChar), cs.dropWhile isNameChar)
    else
      .error (.malformed .nameExpected (c :: cs))

theorem readName_length_lt {cs tail : List Char} {name : String}
    (hread : readName cs = .ok (name, tail)) : tail.length < cs.length := by
  cases cs with
  | nil => simp [readName] at hread
  | cons c cs =>
      simp only [readName] at hread
      split at hread
      · simp only [Except.ok.injEq, Prod.mk.injEq] at hread
        have := length_dropWhile_le isNameChar cs
        simp only [← hread.2, List.length_cons]
        omega
      · simp at hread

/-- Read names joined by dots, as many as there are. -/
def readNames (cs : List Char) : Except Fault (List String × List Char) :=
  match _hread : readName cs with
  | .error fault => .error fault
  | .ok (name, '.' :: tail) =>
    match readNames tail with
    | .error fault => .error fault
    | .ok (names, tail) => .ok (name :: names, tail)
  | .ok (name, tail) => .ok ([name], tail)
termination_by cs.length
decreasing_by
  have := readName_length_lt _hread
  simp at this
  omega

theorem readNames_length_lt {cs tail : List Char} {names : List String}
    (hread : readNames cs = .ok (names, tail)) : tail.length < cs.length := by
  fun_induction readNames cs generalizing names tail with
  | case1 => simp at hread
  | case2 => simp at hread
  | case3 _ _ _ hname _ _ htail ih =>
      simp only [Except.ok.injEq, Prod.mk.injEq] at hread
      have := readName_length_lt hname
      have := ih htail
      simp_all
      omega
  | case4 _ _ _ _ hname =>
      simp only [Except.ok.injEq, Prod.mk.injEq] at hread
      rw [← hread.2]
      exact readName_length_lt hname

/-- A field path that is bound already cannot be bound again. -/
def bindVariable (bound : List FieldPath) (path : FieldPath)
    (pattern : List Element) (tail : List Char) :
    Except Fault (Variable × List Char) :=
  if path ∈ bound then .error (.duplicate path) else .ok (⟨path, pattern⟩, tail)

theorem eq_of_bindVariable {bound : List FieldPath} {path : FieldPath}
    {pattern : List Element} {rest tail : List Char} {var : Variable}
    (hbind : bindVariable bound path pattern rest = .ok (var, tail)) :
    rest = tail := by
  unfold bindVariable at hbind
  split at hbind
  · simp at hbind
  · simp only [Except.ok.injEq, Prod.mk.injEq] at hbind
    exact hbind.2

/-- Read a variable from the character after its opening brace on.  A variable
without a pattern spans one segment. -/
def readVariable (restSeen : Bool) (bound : List FieldPath) (cs : List Char) :
    Except Fault (Variable × List Char) :=
  match readNames cs with
  | .error fault => .error fault
  | .ok (names, '=' :: tail) =>
    match readPattern restSeen tail with
    | .error fault => .error fault
    | .ok (pattern, tail) => bindVariable bound ⟨names⟩ pattern tail
  | .ok (names, '}' :: tail) => bindVariable bound ⟨names⟩ [.any] tail
  | .ok (_, []) => .error (.malformed .unterminatedVariable [])
  | .ok (_, tail) => .error (.malformed .invalidFieldPath tail)

theorem readVariable_length_lt {restSeen : Bool} {bound : List FieldPath}
    {cs tail : List Char} {var : Variable}
    (hread : readVariable restSeen bound cs = .ok (var, tail)) :
    tail.length < cs.length := by
  unfold readVariable at hread
  split at hread
  · simp at hread
  · next hnames =>
    split at hread
    · simp at hread
    · next hpattern =>
      have := readNames_length_lt hnames
      have := readPattern_length_lt hpattern
      have := eq_of_bindVariable hread
      simp_all
      omega
  · next hnames =>
    have := readNames_length_lt hnames
    have := eq_of_bindVariable hread
    simp_all
    omega
  · simp at hread
  · simp at hread

/-- Read one segment. -/
def readSegment (restSeen : Bool) (bound : List FieldPath) :
    List Char → Except Fault (Segment × List Char)
  | '{' :: cs =>
    match readVariable restSeen bound cs with
    | .error fault => .error fault
    | .ok (var, tail) => .ok (.variable var, tail)
  | cs =>
    match readElement restSeen cs with
    | .error fault => .error fault
    | .ok (element, tail) => .ok (.plain element, tail)

theorem readSegment_length_lt {restSeen : Bool} {bound : List FieldPath}
    {cs tail : List Char} {segment : Segment}
    (hread : readSegment restSeen bound cs = .ok (segment, tail)) :
    tail.length < cs.length := by
  unfold readSegment at hread
  split at hread
  · split at hread
    · simp at hread
    · next hvariable =>
      have := readVariable_length_lt hvariable
      simp_all
      omega
  · split at hread
    · simp at hread
    · next helement =>
      have := readElement_length_lt helement
      simp_all

/-- The field paths bound once `segment` has been read as well. -/
def addBound (bound : List FieldPath) (segment : Segment) : List FieldPath :=
  match segment.var? with
  | none => bound
  | some var => var.path :: bound

/-- Read segments up to the verb or the end of the text. -/
def readSegments (restSeen : Bool) (bound : List FieldPath) (cs : List Char) :
    Except Fault (List Segment × List Char) :=
  match _hread : readSegment restSeen bound cs with
  | .error fault => .error fault
  | .ok (segment, '/' :: tail) =>
    match readSegments (restSeen || segment.elements.contains .rest)
        (addBound bound segment) tail with
    | .error fault => .error fault
    | .ok (segments, tail) => .ok (segment :: segments, tail)
  | .ok (segment, []) => .ok ([segment], [])
  | .ok (segment, ':' :: tail) => .ok ([segment], ':' :: tail)
  | .ok (_, '}' :: tail) => .error (.malformed .unbalancedBrace ('}' :: tail))
  | .ok (_, tail) => .error (.malformed .reservedCharacter tail)
termination_by cs.length
decreasing_by
  have := readSegment_length_lt _hread
  simp at this
  omega

/-- Read a verb, which takes up all that remains. -/
def readVerb (cs : List Char) : Except Fault String :=
  match cs.dropWhile isTextChar with
  | c :: tail => .error (.malformed .invalidVerb (c :: tail))
  | [] =>
    if cs = [] then .error (.malformed .emptyVerb []) else .ok (String.ofList cs)

def readTemplate : List Char → Except Fault Template
  | ['/'] => .ok ⟨[], none⟩
  | '/' :: ':' :: tail => .error (.malformed .verbWithoutSegment (':' :: tail))
  | '/' :: cs =>
    match readSegments false [] cs with
    | .error fault => .error fault
    | .ok (segments, ':' :: tail) =>
      match readVerb tail with
      | .error fault => .error fault
      | .ok verb => .ok ⟨segments, some verb⟩
    | .ok (segments, _) => .ok ⟨segments, none⟩
  | cs => .error (.malformed .missingSlash cs)

/-- The number of bytes a text takes up in UTF-8. -/
def byteLength : List Char → Nat
  | [] => 0
  | c :: cs => c.utf8Size + byteLength cs

/-- Read a template. -/
def parse (text : String) : Except ParseError Template :=
  match readTemplate text.toList with
  | .ok template => .ok template
  | .error (.malformed reason remaining) =>
    .error (.malformed text (byteLength text.toList - byteLength remaining) reason)
  | .error (.duplicate path) => .error (.duplicateVariable text path)

end Template
end HttpRoutes
