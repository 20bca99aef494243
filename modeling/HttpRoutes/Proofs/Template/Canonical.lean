import HttpRoutes.Proofs.Template.Reading
import HttpRoutes.Proofs.Template.WellFormed

/-!
# The canonical text of a template

Writing a template that has been read gives the text that was read, with the
pattern left out of every variable that is spelled with one `*`.
`shortenVariables` makes this change on the characters alone, without reading
the template.  It may do so because in a spelled text an opening brace stands
only in front of a variable: no literal and no pattern can be taken for the
start of one.

The canonical text is spelled as well, so it is read as the same template, and
templates are told apart by their canonical texts.
-/

namespace HttpRoutes.Template

/-- What the dotted form of a field path is made of. -/
def isPathChar (c : Char) : Bool := isNameChar c || c = '.'

/-- Leave the pattern out of every variable that is spelled with one `*`. -/
def shortenVariables : List Char → List Char
  | [] => []
  | c :: cs =>
    if c = '{' then
      match _hrest : cs.dropWhile isPathChar with
      | '=' :: '*' :: '}' :: tail =>
        '{' :: cs.takeWhile isPathChar ++ '}' :: shortenVariables tail
      | _ => '{' :: shortenVariables cs
    else
      c :: shortenVariables cs
termination_by cs => cs.length
decreasing_by
  · have hlength := length_dropWhile_le isPathChar cs
    rw [_hrest] at hlength
    simp only [List.length_cons] at hlength ⊢
    omega
  · simp
  · simp

/-- Some variable is spelled with one `*` as its pattern. -/
def SpellsOut (text : List Char) : Prop :=
  ∃ before path after, IsFieldPath path ∧
    text = before ++ '{' :: path.chars ++ '=' :: '*' :: '}' :: after

/-- The canonical text of a text. -/
def canonical (text : String) : Except ParseError String :=
  (parse text).map Template.text

/-! ## Shortening a text -/

theorem shortenVariables_cons {c : Char} (hc : c ≠ '{') (cs : List Char) :
    shortenVariables (c :: cs) = c :: shortenVariables cs := by
  rw [shortenVariables, if_neg hc]

theorem shortenVariables_append {front : List Char} (hfront : '{' ∉ front)
    (tail : List Char) :
    shortenVariables (front ++ tail) = front ++ shortenVariables tail := by
  induction front with
  | nil => rfl
  | cons c front ih =>
      rw [List.mem_cons, not_or] at hfront
      rw [List.cons_append, shortenVariables_cons (Ne.symm hfront.1),
        ih hfront.2, List.cons_append]

theorem shortenVariables_star {path : List Char}
    (hpath : ∀ c ∈ path, isPathChar c = true) (tail : List Char) :
    shortenVariables ('{' :: path ++ '=' :: '*' :: '}' :: tail) =
      '{' :: path ++ '}' :: shortenVariables tail := by
  have hequals : ∀ c ∈ ('=' :: '*' :: '}' :: tail).head?,
      isPathChar c = false := by
    simp [isPathChar, isNameChar]
  have htake := takeWhile_append_eq_left hpath hequals
  have hdrop := dropWhile_append_eq_right hpath hequals
  rw [List.cons_append, shortenVariables, if_pos rfl]
  split <;> simp_all

theorem shortenVariables_brace {path left : List Char}
    (hpath : ∀ c ∈ path, isPathChar c = true)
    (hleft : ∀ c ∈ left.head?, isPathChar c = false)
    (hstar : ∀ tail, left ≠ '=' :: '*' :: '}' :: tail) :
    shortenVariables ('{' :: path ++ left) =
      '{' :: shortenVariables (path ++ left) := by
  have hdrop := dropWhile_append_eq_right hpath hleft
  rw [List.cons_append, shortenVariables, if_pos rfl]
  split
  next tail hrest => exact absurd (hdrop.symm.trans hrest) (hstar tail)
  next => rfl

theorem length_shortenVariables_le (cs : List Char) :
    (shortenVariables cs).length ≤ cs.length := by
  fun_induction shortenVariables cs with
  | case1 => simp
  | case2 cs tail hrest ih =>
      have hsplit := List.takeWhile_append_dropWhile (p := isPathChar) (l := cs)
      have hlength := congrArg List.length hsplit
      rw [hrest] at hlength
      simp only [List.length_append, List.length_cons] at hlength ⊢
      omega
  | case3 cs _ ih => simpa using ih
  | case4 c cs _ ih => simpa using ih

/-- A text in which a variable is spelled out gets shorter. -/
theorem length_shortenVariables_lt {before path after : List Char}
    (hpath : ∀ c ∈ path, isPathChar c = true) :
    (shortenVariables
        (before ++ '{' :: path ++ '=' :: '*' :: '}' :: after)).length <
      (before ++ '{' :: path ++ '=' :: '*' :: '}' :: after).length := by
  generalize htext : before ++ '{' :: path ++ '=' :: '*' :: '}' :: after = cs
  fun_induction shortenVariables cs generalizing before with
  | case1 => simp at htext
  | case2 cs tail hrest ih =>
      have hle := length_shortenVariables_le tail
      have hsplit := List.takeWhile_append_dropWhile (p := isPathChar) (l := cs)
      have hlength := congrArg List.length hsplit
      rw [hrest] at hlength
      simp only [List.length_append, List.length_cons] at hlength ⊢
      omega
  | case3 cs hrest ih =>
      cases before with
      | nil =>
          -- The scan stands at the variable, so it would have been shortened.
          have hcs : path ++ '=' :: '*' :: '}' :: after = cs := by
            simpa using htext
          have hdrop : cs.dropWhile isPathChar = '=' :: '*' :: '}' :: after := by
            rw [← hcs]
            apply dropWhile_append_eq_right hpath
            simp [isPathChar, isNameChar]
          exact absurd hdrop (hrest after)
      | cons c before =>
          simp only [List.cons_append, List.cons.injEq] at htext
          have hlt := ih htext.2
          simpa using hlt
  | case4 c cs hc ih =>
      cases before with
      | nil => simp [Ne.symm hc] at htext
      | cons d before =>
          simp only [List.cons_append, List.cons.injEq] at htext
          have hlt := ih htext.2
          simpa using hlt

theorem mem_joinWith {separator c : Char} {pieces : List (List Char)}
    (hmem : c ∈ joinWith separator pieces) :
    c = separator ∨ ∃ piece ∈ pieces, c ∈ piece := by
  induction pieces with
  | nil => simp [joinWith] at hmem
  | cons piece pieces ih =>
      cases pieces with
      | nil => exact .inr ⟨piece, by simp, hmem⟩
      | cons other others =>
          rw [joinWith_cons (by simp), List.mem_append, List.mem_cons] at hmem
          rcases hmem with hpiece | hseparator | hlater
          · exact .inr ⟨piece, by simp, hpiece⟩
          · exact .inl hseparator
          · rcases ih hlater with hseparator | ⟨later, hmem, hc⟩
            · exact .inl hseparator
            · exact .inr ⟨later, List.mem_cons_of_mem _ hmem, hc⟩

theorem IsName.isNameChar {name : String} (hname : IsName name) :
    ∀ c ∈ name.toList, isNameChar c = true := by
  obtain ⟨first, cs, htext, hstart, hrest⟩ := hname
  intro c hc
  rw [htext, List.mem_cons] at hc
  rcases hc with rfl | hlater
  · have halpha : c.isAlpha = true ∨ c = '_' := by
      simpa [isNameStart] using hstart
    simp only [Template.isNameChar, Char.isAlphanum, Bool.or_eq_true,
      decide_eq_true_eq]
    rcases halpha with halpha | hunderscore
    · exact .inl (.inl halpha)
    · exact .inr hunderscore
  · exact hrest c hlater

theorem IsFieldPath.isPathChar {path : FieldPath} (hpath : IsFieldPath path) :
    ∀ c ∈ path.chars, isPathChar c = true := by
  intro c hc
  rcases mem_joinWith hc with hdot | ⟨piece, hpiece, hc⟩
  · simp [Template.isPathChar, hdot]
  · obtain ⟨name, hname, rfl⟩ := List.mem_map.mp hpiece
    have hchar := (hpath.names name hname).isNameChar c hc
    simp [Template.isPathChar, hchar]

theorem SpellsOut.shortenVariables_ne {text : List Char}
    (hout : SpellsOut text) : shortenVariables text ≠ text := by
  obtain ⟨before, path, after, hpath, htext⟩ := hout
  have hlt : (shortenVariables text).length < text.length := by
    rw [htext]
    exact length_shortenVariables_lt hpath.isPathChar
  intro heq
  rw [heq] at hlt
  exact lt_irrefl _ hlt

/-! ## Spelling the canonical text -/

theorem IsElement.brace_not_mem {element : Element}
    (helement : IsElement element) : '{' ∉ element.chars := by
  cases element with
  | literal text => exact IsText.not_mem helement (by decide)
  | any => simp [Element.chars]
  | rest => simp [Element.chars]

theorem IsPattern.brace_not_mem {pattern : List Element}
    (hpattern : IsPattern pattern) :
    '{' ∉ joinWith '/' (pattern.map Element.chars) := by
  intro hmem
  rcases mem_joinWith hmem with hslash | ⟨piece, hpiece, hc⟩
  · exact absurd hslash (by decide)
  · obtain ⟨element, helement, rfl⟩ := List.mem_map.mp hpiece
    exact (hpattern.elements element helement).brace_not_mem hc

theorem IsFieldPath.brace_not_mem {path : FieldPath}
    (hpath : IsFieldPath path) : '{' ∉ path.chars := by
  intro hmem
  have hchar := hpath.isPathChar _ hmem
  exact absurd hchar (by decide)

theorem isPattern_any : IsPattern [.any] :=
  ⟨by simp, by simp [IsElement], by simp⟩

/-- A pattern that is written as one `*` is one `*`. -/
theorem IsPattern.eq_any {pattern : List Element} (hpattern : IsPattern pattern)
    {tail left : List Char}
    (hstar : joinWith '/' (pattern.map Element.chars) ++ '}' :: tail =
      '*' :: '}' :: left) : pattern = [.any] := by
  have hread := readPattern_chars hpattern tail
  have hreadAny := readPattern_chars isPattern_any left
  rw [hstar] at hread
  have hsame := hread.symm.trans hreadAny
  simp only [Except.ok.injEq, Prod.mk.injEq] at hsame
  exact hsame.1

/-- The text of a variable is left as it is, except for one `*` as its
pattern. -/
theorem SpellsSegment.shortenVariables_append {restSeen : Bool}
    {segment : Segment} {text : List Char}
    (hspelled : SpellsSegment restSeen segment text) (tail : List Char) :
    shortenVariables (text ++ tail) =
      segment.chars ++ shortenVariables tail := by
  cases hspelled with
  | plain _ helement =>
      exact Template.shortenVariables_append helement.brace_not_mem tail
  | @short path hpath =>
      have hbrace : shortenVariables ('{' :: path.chars ++ '}' :: tail) =
          '{' :: shortenVariables (path.chars ++ '}' :: tail) :=
        shortenVariables_brace hpath.isPathChar
          (by simp [isPathChar, isNameChar]) (by simp)
      have hrest : shortenVariables (path.chars ++ '}' :: tail) =
          path.chars ++ '}' :: shortenVariables tail := by
        rw [Template.shortenVariables_append hpath.brace_not_mem,
          shortenVariables_cons (by decide)]
      rw [List.append_assoc, List.singleton_append, hbrace, hrest]
      simp [Segment.chars, Variable.chars]
  | @long path pattern _ hpath hpattern =>
      by_cases hany : pattern = [.any]
      · subst hany
        have hstar := shortenVariables_star hpath.isPathChar tail
        simpa [Segment.chars, Variable.chars, joinWith, Element.chars] using hstar
      · -- No other pattern is written as one star, so the brace is passed over.
        have hbrace : shortenVariables ('{' :: path.chars ++
              '=' :: (joinWith '/' (pattern.map Element.chars) ++ '}' :: tail)) =
            '{' :: shortenVariables (path.chars ++
              '=' :: (joinWith '/' (pattern.map Element.chars) ++
                '}' :: tail)) := by
          apply shortenVariables_brace hpath.isPathChar
          · simp [isPathChar, isNameChar]
          · intro left hstar
            simp only [List.cons.injEq, true_and] at hstar
            exact hany (hpattern.eq_any hstar)
        have hrest : shortenVariables (path.chars ++
              '=' :: (joinWith '/' (pattern.map Element.chars) ++ '}' :: tail)) =
            path.chars ++ '=' :: (joinWith '/' (pattern.map Element.chars) ++
              '}' :: shortenVariables tail) := by
          rw [Template.shortenVariables_append hpath.brace_not_mem,
            shortenVariables_cons (by decide),
            Template.shortenVariables_append hpattern.brace_not_mem,
            shortenVariables_cons (by decide)]
        simp only [List.append_assoc, List.cons_append, List.nil_append] at hbrace ⊢
        rw [hbrace, hrest]
        simp [Segment.chars, Variable.chars, hany]

theorem SpellsSegments.map_chars_ne_nil {restSeen : Bool}
    {bound : List FieldPath} {segments : List Segment} {text : List Char}
    (hspelled : SpellsSegments restSeen bound segments text) :
    segments.map Segment.chars ≠ [] := by
  cases hspelled <;> simp

theorem SpellsSegments.shortenVariables_append {restSeen : Bool}
    {bound : List FieldPath} {segments : List Segment} {text : List Char}
    (hspelled : SpellsSegments restSeen bound segments text)
    (tail : List Char) :
    shortenVariables (text ++ tail) =
      joinWith '/' (segments.map Segment.chars) ++ shortenVariables tail := by
  induction hspelled with
  | last hsegment => exact hsegment.shortenVariables_append tail
  | cons hsegment _ hlater ih =>
      have hpieces := hlater.map_chars_ne_nil
      rw [List.map_cons, joinWith_cons hpieces, List.append_assoc,
        hsegment.shortenVariables_append, List.cons_append,
        shortenVariables_cons (by decide), ih]
      simp

theorem flatMap_slash_eq_joinWith {pieces : List (List Char)}
    (hpieces : pieces ≠ []) :
    (pieces.flatMap fun piece => '/' :: piece) =
      '/' :: joinWith '/' pieces := by
  induction pieces with
  | nil => contradiction
  | cons piece pieces ih =>
      cases pieces with
      | nil => simp [joinWith]
      | cons other others =>
          have hjoin : joinWith '/' (piece :: other :: others) =
              piece ++ '/' :: joinWith '/' (other :: others) :=
            joinWith_cons (by simp)
          rw [List.flatMap_cons, ih (by simp), hjoin]
          rfl

theorem chars_of_segments {segments : List Segment}
    (hsegments : segments.map Segment.chars ≠ []) :
    (Template.mk segments none).chars =
        '/' :: joinWith '/' (segments.map Segment.chars) ∧
      ∀ verb, (Template.mk segments (some verb)).chars =
        '/' :: joinWith '/' (segments.map Segment.chars) ++
          ':' :: verb.toList := by
  have hflat := flatMap_slash_eq_joinWith hsegments
  rw [List.flatMap_map] at hflat
  cases segments with
  | nil => simp at hsegments
  | cons segment segments =>
      rw [← hflat]
      exact ⟨rfl, fun verb => rfl⟩

/-- The canonical text is the text with every variable shortened. -/
theorem Spells.chars_eq {template : Template} {text : List Char}
    (hspelled : Spells template text) :
    template.chars = shortenVariables text := by
  cases hspelled with
  | root => simp [chars, shortenVariables]
  | plain hsegments =>
      have hshort := hsegments.shortenVariables_append []
      have hchars := (chars_of_segments hsegments.map_chars_ne_nil).1
      rw [List.append_nil] at hshort
      rw [hchars, shortenVariables_cons (by decide), hshort]
      simp [shortenVariables]
  | @verb _ _ verb hsegments hverb =>
      have hshort := hsegments.shortenVariables_append (':' :: verb.toList)
      have hchars := (chars_of_segments hsegments.map_chars_ne_nil).2 verb
      have hrest : shortenVariables (':' :: verb.toList) = ':' :: verb.toList := by
        have hbrace : '{' ∉ verb.toList := hverb.not_mem (by decide)
        have happend := Template.shortenVariables_append hbrace []
        rw [shortenVariables_cons (by decide)]
        simpa [shortenVariables] using happend
      rw [hchars, List.cons_append, List.cons_append,
        shortenVariables_cons (by decide), hshort, hrest]

theorem SpellsSegment.canonical {restSeen : Bool} {segment : Segment}
    {text : List Char} (hspelled : SpellsSegment restSeen segment text) :
    SpellsSegment restSeen segment segment.chars := by
  cases hspelled with
  | plain hfirst helement => exact .plain hfirst helement
  | short hpath => exact .short hpath
  | @long path pattern hfirst hpath hpattern =>
      by_cases hany : pattern = [.any]
      · subst hany
        exact .short hpath
      · have hlong := SpellsSegment.long hfirst hpath hpattern
        rw [Segment.chars, Variable.chars, if_neg hany]
        exact hlong

theorem SpellsSegments.canonical {restSeen : Bool} {bound : List FieldPath}
    {segments : List Segment} {text : List Char}
    (hspelled : SpellsSegments restSeen bound segments text) :
    SpellsSegments restSeen bound segments
      (joinWith '/' (segments.map Segment.chars)) := by
  induction hspelled with
  | last hsegment hfresh => exact .last hsegment.canonical hfresh
  | cons hsegment hfresh hlater ih =>
      rw [List.map_cons, joinWith_cons hlater.map_chars_ne_nil]
      exact .cons hsegment.canonical hfresh ih

theorem Spells.canonical {template : Template} {text : List Char}
    (hspelled : Spells template text) : Spells template template.chars := by
  cases hspelled with
  | root => exact .root
  | plain hsegments =>
      rw [(chars_of_segments hsegments.map_chars_ne_nil).1]
      exact .plain hsegments.canonical
  | verb hsegments hverb =>
      rw [(chars_of_segments hsegments.map_chars_ne_nil).2]
      exact .verb hsegments.canonical hverb

/-! ## Variables that are spelled out -/

theorem SpellsSegment.eq_chars_or_spellsOut {restSeen : Bool}
    {segment : Segment} {text : List Char}
    (hspelled : SpellsSegment restSeen segment text) :
    text = segment.chars ∨ SpellsOut text := by
  cases hspelled with
  | plain => exact .inl rfl
  | short => exact .inl rfl
  | @long path pattern _ hpath hpattern =>
      by_cases hany : pattern = [.any]
      · subst hany
        have htext : '{' :: path.chars ++
            '=' :: joinWith '/' ([Element.any].map Element.chars) ++ ['}'] =
              [] ++ '{' :: path.chars ++ '=' :: '*' :: '}' :: [] := by
          simp [joinWith, Element.chars]
        exact .inr ⟨[], path, [], hpath, htext⟩
      · rw [Segment.chars, Variable.chars, if_neg hany]
        exact .inl rfl

theorem SpellsOut.append {text : List Char} (hout : SpellsOut text)
    (before after : List Char) : SpellsOut (before ++ text ++ after) := by
  obtain ⟨front, path, tail, hpath, rfl⟩ := hout
  refine ⟨before ++ front, path, tail ++ after, hpath, ?_⟩
  simp

theorem SpellsSegments.eq_chars_or_spellsOut {restSeen : Bool}
    {bound : List FieldPath} {segments : List Segment} {text : List Char}
    (hspelled : SpellsSegments restSeen bound segments text) :
    text = joinWith '/' (segments.map Segment.chars) ∨ SpellsOut text := by
  induction hspelled with
  | last hsegment => exact hsegment.eq_chars_or_spellsOut
  | @cons _ _ segment segments text others hsegment _ hlater ih =>
      rcases hsegment.eq_chars_or_spellsOut with htext | hout
      · rcases ih with hothers | hout
        · left
          rw [List.map_cons, joinWith_cons hlater.map_chars_ne_nil, ← htext,
            ← hothers]
        · have happend := hout.append (text ++ ['/']) []
          right
          simpa using happend
      · have happend := hout.append [] ('/' :: others)
        right
        simpa using happend

theorem Spells.eq_chars_or_spellsOut {template : Template} {text : List Char}
    (hspelled : Spells template text) :
    text = template.chars ∨ SpellsOut text := by
  cases hspelled with
  | root => exact .inl rfl
  | plain hsegments =>
      rw [(chars_of_segments hsegments.map_chars_ne_nil).1]
      rcases hsegments.eq_chars_or_spellsOut with htext | hout
      · exact .inl (congrArg _ htext)
      · have happend := hout.append ['/'] []
        right
        simpa using happend
  | @verb _ text verb hsegments _ =>
      rw [(chars_of_segments hsegments.map_chars_ne_nil).2]
      rcases hsegments.eq_chars_or_spellsOut with htext | hout
      · left
        rw [← htext]
      · have happend := hout.append ['/'] (':' :: verb.toList)
        right
        simpa using happend

theorem parse_text_eq_ok {text : String} {template : Template}
    (hparse : parse text = .ok template) :
    parse template.text = .ok template := by
  rw [parse_eq_ok_iff, Template.text, String.toList_ofList]
  exact (parse_spells hparse).canonical

/-- Templates that are read from texts are told apart by their canonical
texts. -/
theorem text_injective_of_parse {text text' : String}
    {template template' : Template} (hparse : parse text = .ok template)
    (hparse' : parse text' = .ok template')
    (heq : template.text = template'.text) : template = template' := by
  have hread := parse_text_eq_ok hparse
  have hread' := parse_text_eq_ok hparse'
  rw [heq] at hread
  exact Except.ok.inj (hread.symm.trans hread')

theorem text_eq_iff_not_spellsOut {text : String} {template : Template}
    (hparse : parse text = .ok template) :
    template.text = text ↔ ¬ SpellsOut text.toList := by
  have hspelled := parse_spells hparse
  have hchars := hspelled.chars_eq
  constructor
  · intro htext hout
    have hlist : template.text.toList = template.chars :=
      String.toList_ofList
    rw [htext, hchars] at hlist
    exact hout.shortenVariables_ne hlist.symm
  · intro hnone
    rcases hspelled.eq_chars_or_spellsOut with htext | hout
    · rw [Template.text, ← htext, String.ofList_toList]
    · contradiction

/-- What is read from a text is read again from its canonical text, which is the
text with its variables shortened.  So the canonical text is the text itself
exactly if no variable is spelled out, it is its own canonical text, and equal
canonical texts stand for equal templates. -/
theorem parse_text_round_trip {text : String} {template : Template}
    (hparse : parse text = .ok template) :
    parse template.text = .ok template ∧
      template.text = String.ofList (shortenVariables text.toList) ∧
      (template.text = text ↔ ¬ SpellsOut text.toList) ∧
      (∀ text' template', parse text' = .ok template' →
        (template.text = template'.text ↔ template = template')) ∧
      canonical text = .ok template.text ∧
      canonical template.text = .ok template.text := by
  have hread := parse_text_eq_ok hparse
  have hchars := (parse_spells hparse).chars_eq
  refine ⟨hread, ?_, text_eq_iff_not_spellsOut hparse, ?_, ?_, ?_⟩
  · rw [Template.text, hchars]
  · intro text' template' hparse'
    constructor
    · exact text_injective_of_parse hparse hparse'
    · exact congrArg Template.text
  · rw [canonical, hparse]
    rfl
  · rw [canonical, hread]
    rfl

theorem parse_text_round_trip_with_star :
    parse "/v1/é=%/{a.b=*}/{c=x/**}:go" = .ok
        ⟨[.plain (.literal "v1"), .plain (.literal "é=%"),
          .variable ⟨⟨["a", "b"]⟩, [.any]⟩,
          .variable ⟨⟨["c"]⟩, [.literal "x", .rest]⟩], some "go"⟩ ∧
      parse "/v1/é=%/{a.b}/{c=x/**}:go" =
        parse "/v1/é=%/{a.b=*}/{c=x/**}:go" ∧
      canonical "/v1/é=%/{a.b=*}/{c=x/**}:go" =
        .ok "/v1/é=%/{a.b}/{c=x/**}:go" ∧
      SpellsOut "/v1/é=%/{a.b=*}/{c=x/**}:go".toList := by
  have hparse : parse "/v1/é=%/{a.b=*}/{c=x/**}:go" = .ok
      ⟨[.plain (.literal "v1"), .plain (.literal "é=%"),
        .variable ⟨⟨["a", "b"]⟩, [.any]⟩,
        .variable ⟨⟨["c"]⟩, [.literal "x", .rest]⟩], some "go"⟩ := by
    decide +kernel
  obtain ⟨hread, _, hsame, _, hcanonical, _⟩ := parse_text_round_trip hparse
  have htext : Template.text
      ⟨[.plain (.literal "v1"), .plain (.literal "é=%"),
        .variable ⟨⟨["a", "b"]⟩, [.any]⟩,
        .variable ⟨⟨["c"]⟩, [.literal "x", .rest]⟩], some "go"⟩ =
          "/v1/é=%/{a.b}/{c=x/**}:go" := by
    decide +kernel
  rw [htext] at hread hsame hcanonical
  have hout : SpellsOut "/v1/é=%/{a.b=*}/{c=x/**}:go".toList := by
    by_contra hnot
    exact absurd (hsame.mpr hnot) (by decide)
  exact ⟨hparse, hread.trans hparse.symm, hcanonical, hout⟩

end HttpRoutes.Template
