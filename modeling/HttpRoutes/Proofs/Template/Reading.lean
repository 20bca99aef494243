import HttpRoutes.Proofs.Template.Spelling

/-!
# Every spelled text is read

Each reader takes a spelled text off the front and leaves what follows, provided
that what follows cannot continue the text: a name ends where no character of a
name follows, an element where the text ends or a separator follows.  A reader
of several pieces has two equations, one for the last piece and one for a piece
with more behind it, and the lists of pieces are read by induction with them.

Since the readers accept spelled texts only, a text is a template exactly if it
is spelled.
-/

namespace HttpRoutes.Template

/-- What can follow an element: the end of the text, or a character that no
element holds. -/
def EndsElement (tail : List Char) : Prop :=
  ∀ c ∈ tail.head?, c = '/' ∨ c = ':' ∨ c = '}'

@[simp] theorem endsElement_nil : EndsElement [] := by simp [EndsElement]

@[simp] theorem endsElement_cons {c : Char} {cs : List Char} :
    EndsElement (c :: cs) ↔ c = '/' ∨ c = ':' ∨ c = '}' := by
  simp [EndsElement]

theorem EndsElement.not_isTextChar {tail : List Char} (hends : EndsElement tail) :
    ∀ c ∈ tail.head?, isTextChar c = false := by
  intro c hc
  rcases hends c hc with rfl | rfl | rfl <;> decide

theorem takeWhile_append_eq_left {p : Char → Bool} {front tail : List Char}
    (hfront : ∀ c ∈ front, p c = true) (htail : ∀ c ∈ tail.head?, p c = false) :
    (front ++ tail).takeWhile p = front := by
  rw [List.takeWhile_append_of_pos hfront]
  cases tail with
  | nil => simp
  | cons c cs => simp [htail c (by simp)]

theorem dropWhile_append_eq_right {p : Char → Bool} {front tail : List Char}
    (hfront : ∀ c ∈ front, p c = true) (htail : ∀ c ∈ tail.head?, p c = false) :
    (front ++ tail).dropWhile p = tail := by
  rw [List.dropWhile_append_of_pos hfront]
  cases tail with
  | nil => rfl
  | cons c cs => simp [htail c (by simp)]

/-! ## Elements and patterns -/

theorem readElement_chars {element : Element} (helement : IsElement element)
    {tail : List Char} (hends : EndsElement tail) :
    readElement false (element.chars ++ tail) = .ok (element, tail) := by
  cases element with
  | literal text =>
      obtain ⟨hne, hchars⟩ : IsText text := helement
      have htake := takeWhile_append_eq_left hchars hends.not_isTextChar
      have hdrop := dropWhile_append_eq_right hchars hends.not_isTextChar
      obtain ⟨c, cs, htext⟩ := List.exists_cons_of_ne_nil hne
      have hc : isTextChar c = true := hchars c (by simp [htext])
      have hstar : c ≠ '*' := by
        rintro rfl
        exact absurd hc (by decide)
      have hbrace : c ≠ '{' := by
        rintro rfl
        exact absurd hc (by decide)
      have hof : String.ofList (c :: cs) = text := by
        rw [← htext, String.ofList_toList]
      rw [htext] at htake hdrop
      rw [List.cons_append] at htake hdrop
      simp [readElement, Element.chars, htext, hstar, hbrace, htake, hdrop, hof]
  | any =>
      cases tail with
      | nil => rfl
      | cons c cs =>
          -- With one more star this would be a `**`.
          have hstar : c ≠ '*' := by
            rintro rfl
            simp at hends
          simp [readElement, Element.chars, hstar]
  | rest => simp [readElement, Element.chars]

theorem readPattern_eq_last {restSeen : Bool} {cs tail : List Char}
    {element : Element}
    (helement : readElement restSeen cs = .ok (element, '}' :: tail)) :
    readPattern restSeen cs = .ok ([element], tail) := by
  rw [readPattern]
  split <;> simp_all

theorem readPattern_eq_cons {restSeen : Bool} {cs tail left : List Char}
    {element : Element} {elements : List Element}
    (helement : readElement restSeen cs = .ok (element, '/' :: tail))
    (htail : readPattern (element = .rest) tail = .ok (elements, left)) :
    readPattern restSeen cs = .ok (element :: elements, left) := by
  rw [readPattern]
  split <;> simp_all

theorem IsPattern.tail {element other : Element} {others : List Element}
    (hpattern : IsPattern (element :: other :: others)) :
    element ≠ .rest ∧ IsPattern (other :: others) := by
  have hlast := hpattern.restLast
  rw [List.dropLast_cons_of_ne_nil (by simp), List.mem_cons, not_or] at hlast
  refine ⟨Ne.symm hlast.1, by simp, ?_, hlast.2⟩
  intro later hlater
  exact hpattern.elements later (List.mem_cons_of_mem _ hlater)

theorem readPattern_chars {pattern : List Element}
    (hpattern : IsPattern pattern) (tail : List Char) :
    readPattern false
        (joinWith '/' (pattern.map Element.chars) ++ '}' :: tail) =
      .ok (pattern, tail) := by
  induction pattern with
  | nil => exact absurd rfl hpattern.nonempty
  | cons element pattern ih =>
      have helement := hpattern.elements element (by simp)
      cases pattern with
      | nil =>
          apply readPattern_eq_last
          exact readElement_chars helement (by simp)
      | cons other others =>
          obtain ⟨hnotRest, hothers⟩ := hpattern.tail
          rw [List.map_cons, joinWith_cons (by simp), List.append_assoc,
            List.cons_append]
          apply readPattern_eq_cons (readElement_chars helement (by simp))
          rw [decide_eq_false hnotRest]
          exact ih hothers

/-! ## Field paths and variables -/

theorem readName_chars {name : String} (hname : IsName name)
    {tail : List Char} (htail : ∀ c ∈ tail.head?, isNameChar c = false) :
    readName (name.toList ++ tail) = .ok (name, tail) := by
  obtain ⟨c, cs, htext, hstart, hrest⟩ := hname
  have htake := takeWhile_append_eq_left hrest htail
  have hdrop := dropWhile_append_eq_right hrest htail
  have hof : String.ofList (c :: cs) = name := by
    rw [← htext, String.ofList_toList]
  simp [htext, readName, hstart, htake, hdrop, hof]

theorem readNames_eq_last {cs tail : List Char} {name : String}
    (hname : readName cs = .ok (name, tail)) (htail : tail.head? ≠ some '.') :
    readNames cs = .ok ([name], tail) := by
  rw [readNames]
  split <;> grind

theorem readNames_eq_cons {cs tail left : List Char} {name : String}
    {names : List String} (hname : readName cs = .ok (name, '.' :: tail))
    (htail : readNames tail = .ok (names, left)) :
    readNames cs = .ok (name :: names, left) := by
  rw [readNames]
  split <;> simp_all

theorem readNames_chars {path : FieldPath} (hpath : IsFieldPath path)
    {c : Char} (hc : c = '=' ∨ c = '}') (tail : List Char) :
    readNames (path.chars ++ c :: tail) = .ok (path.components, c :: tail) := by
  have hend : isNameChar c = false := by
    rcases hc with rfl | rfl <;> decide
  have hdot : c ≠ '.' := by
    rcases hc with rfl | rfl <;> decide
  obtain ⟨names⟩ := path
  induction names with
  | nil => exact absurd rfl hpath.nonempty
  | cons name names ih =>
      have hname := hpath.names name (by simp)
      cases names with
      | nil =>
          apply readNames_eq_last
          · exact readName_chars hname (by simpa using hend)
          · simpa using hdot
      | cons other others =>
          have hothers : IsFieldPath ⟨other :: others⟩ :=
            ⟨by simp, fun later hlater =>
              hpath.names later (List.mem_cons_of_mem _ hlater)⟩
          rw [FieldPath.chars, List.map_cons, joinWith_cons (by simp),
            List.append_assoc, List.cons_append]
          exact readNames_eq_cons
            (readName_chars hname (by simp [isNameChar])) (ih hothers)

theorem readVariable_short {path : FieldPath} (hpath : IsFieldPath path)
    (restSeen : Bool) (bound : List FieldPath) (tail : List Char) :
    readVariable restSeen bound (path.chars ++ '}' :: tail) =
      bindVariable bound path [.any] tail := by
  have hnames := readNames_chars hpath (.inr rfl) tail
  simp [readVariable, hnames]

theorem readVariable_long {path : FieldPath} {pattern : List Element}
    (hpath : IsFieldPath path) (hpattern : IsPattern pattern)
    (bound : List FieldPath) (tail : List Char) :
    readVariable false bound
        (path.chars ++
          '=' :: joinWith '/' (pattern.map Element.chars) ++ '}' :: tail) =
      bindVariable bound path pattern tail := by
  rw [List.append_assoc, List.cons_append]
  simp [readVariable, readNames_chars hpath, readPattern_chars hpattern]

theorem bindVariable_of_fresh {bound : List FieldPath} {path : FieldPath}
    (hfresh : path ∉ bound) (pattern : List Element) (tail : List Char) :
    bindVariable bound path pattern tail = .ok (⟨path, pattern⟩, tail) :=
  bindVariable_eq_ok_iff.mpr ⟨hfresh, rfl, rfl⟩

/-! ## Segments and templates -/

/-- Where an element can be read, no variable starts. -/
theorem readSegment_eq_plain {restSeen : Bool} {cs tail : List Char}
    {element : Element}
    (helement : readElement restSeen cs = .ok (element, tail))
    (bound : List FieldPath) :
    readSegment restSeen bound cs = .ok (.plain element, tail) := by
  unfold readSegment
  split
  · simp only [readElement] at helement
    split at helement <;> simp at helement
  · simp [helement]

theorem SpellsSegment.readSegment_eq {restSeen : Bool} {segment : Segment}
    {text : List Char} (hspelled : SpellsSegment restSeen segment text)
    {bound : List FieldPath} (hfresh : Fresh bound segment)
    {tail : List Char} (hends : EndsElement tail) :
    readSegment restSeen bound (text ++ tail) = .ok (segment, tail) := by
  cases hspelled with
  | plain hfirst helement =>
      subst hfirst
      exact readSegment_eq_plain (readElement_chars helement hends) bound
  | short hpath =>
      have hvar := readVariable_short hpath restSeen bound tail
      rw [bindVariable_of_fresh (hfresh _ rfl)] at hvar
      simp [readSegment, hvar]
  | long hfirst hpath hpattern =>
      subst hfirst
      have hvar := readVariable_long hpath hpattern bound tail
      rw [bindVariable_of_fresh (hfresh _ rfl)] at hvar
      simp only [List.append_assoc, List.cons_append] at hvar
      simp [readSegment, hvar]

theorem readSegments_eq_last {restSeen : Bool} {bound : List FieldPath}
    {cs tail : List Char} {segment : Segment}
    (hsegment : readSegment restSeen bound cs = .ok (segment, tail))
    (hstop : tail = [] ∨ ∃ verb, tail = ':' :: verb) :
    readSegments restSeen bound cs = .ok ([segment], tail) := by
  rcases hstop with rfl | ⟨verb, rfl⟩
  · rw [readSegments]
    split <;> simp_all
  · rw [readSegments]
    split <;> simp_all

theorem readSegments_eq_cons {restSeen : Bool} {bound : List FieldPath}
    {cs tail left : List Char} {segment : Segment} {segments : List Segment}
    (hsegment : readSegment restSeen bound cs = .ok (segment, '/' :: tail))
    (htail : readSegments (restSeen || segment.elements.contains .rest)
      (addBound bound segment) tail = .ok (segments, left)) :
    readSegments restSeen bound cs = .ok (segment :: segments, left) := by
  rw [readSegments]
  split <;> simp_all

theorem SpellsSegments.readSegments_eq {restSeen : Bool}
    {bound : List FieldPath} {segments : List Segment} {text : List Char}
    (hspelled : SpellsSegments restSeen bound segments text)
    {tail : List Char} (hstop : tail = [] ∨ ∃ verb, tail = ':' :: verb) :
    readSegments restSeen bound (text ++ tail) = .ok (segments, tail) := by
  induction hspelled with
  | last hsegment hfresh =>
      have hends : EndsElement tail := by
        rcases hstop with rfl | ⟨verb, rfl⟩ <;> simp
      exact readSegments_eq_last (hsegment.readSegment_eq hfresh hends) hstop
  | cons hsegment hfresh _ ih =>
      rw [List.append_assoc, List.cons_append]
      exact readSegments_eq_cons
        (hsegment.readSegment_eq hfresh (by simp)) ih

/-- A spelled segment is not empty, and no verb starts in its place. -/
theorem SpellsSegment.exists_cons {restSeen : Bool} {segment : Segment}
    {text : List Char} (hspelled : SpellsSegment restSeen segment text) :
    ∃ c cs, text = c :: cs ∧ c ≠ ':' := by
  cases hspelled with
  | @plain element _ helement =>
      cases element with
      | literal name =>
          obtain ⟨hne, hchars⟩ : IsText name := helement
          obtain ⟨c, cs, htext⟩ := List.exists_cons_of_ne_nil hne
          refine ⟨c, cs, htext, ?_⟩
          rintro rfl
          exact absurd (hchars ':' (by simp [htext])) (by decide)
      | any => exact ⟨_, _, rfl, by decide⟩
      | rest => exact ⟨_, _, rfl, by decide⟩
  | short => exact ⟨_, _, rfl, by decide⟩
  | long => exact ⟨_, _, rfl, by decide⟩

theorem SpellsSegments.exists_cons {restSeen : Bool} {bound : List FieldPath}
    {segments : List Segment} {text : List Char}
    (hspelled : SpellsSegments restSeen bound segments text) :
    ∃ c cs, text = c :: cs ∧ c ≠ ':' := by
  cases hspelled with
  | last hsegment => exact hsegment.exists_cons
  | cons hsegment =>
      obtain ⟨c, cs, rfl, hc⟩ := hsegment.exists_cons
      exact ⟨c, _, rfl, hc⟩

theorem readVerb_toList {verb : String} (hverb : IsText verb) :
    readVerb verb.toList = .ok verb := by
  have hdrop : verb.toList.dropWhile isTextChar = [] := by
    rw [List.dropWhile_eq_nil_iff]
    exact hverb.2
  simp [readVerb, hdrop, hverb.1]

theorem Spells.readTemplate_eq {template : Template} {cs : List Char}
    (hspelled : Spells template cs) : readTemplate cs = .ok template := by
  cases hspelled with
  | root => rfl
  | plain hsegments =>
      have hread := hsegments.readSegments_eq (.inl rfl)
      obtain ⟨c, cs, rfl, hc⟩ := hsegments.exists_cons
      rw [List.append_nil] at hread
      simp [readTemplate, hc, hread]
  | @verb _ _ verb hsegments hverb =>
      have hread := hsegments.readSegments_eq (.inr ⟨verb.toList, rfl⟩)
      obtain ⟨c, cs, rfl, hc⟩ := hsegments.exists_cons
      simp only [List.cons_append] at hread
      simp [readTemplate, hc, hread, readVerb_toList hverb]

/-- A text is read exactly if it is spelled, and then as what it spells. -/
theorem parse_eq_ok_iff {text : String} {template : Template} :
    parse text = .ok template ↔ Spells template text.toList := by
  constructor
  · exact parse_spells
  · intro hspelled
    rw [parse, hspelled.readTemplate_eq]

end HttpRoutes.Template
