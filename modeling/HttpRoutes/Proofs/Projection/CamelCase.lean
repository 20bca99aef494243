import HttpRoutes.Projection.CamelCase
import HttpRoutes.Proofs.Request.Path
import HttpRoutes.Proofs.Template.Parts
import Mathlib.Data.List.Duplicate

/-!
# Camel case changes field paths only

Writing the field names of a text in camel case scans its characters and never
looks at the template.  It gives the text of the same template with every name
of its field paths replaced, because in a text of the grammar an opening brace
stands in front of a field path and nowhere else.

A name in camel case is a name again, so the new text is written by the grammar
as well, except that two field paths may have become one.  A name in camel case
stays as it is, so the second time nothing changes.
-/

namespace HttpRoutes

open Template

/-- The field path with every name in camel case. -/
def FieldPath.camel (path : FieldPath) : FieldPath :=
  ⟨path.components.map fun name =>
    String.ofList (Projection.camelName name.toList)⟩

def Segment.camel : Segment → Segment
  | .plain element => .plain element
  | .variable var => .variable ⟨var.path.camel, var.pattern⟩

/-- The template with every name of its field paths in camel case. -/
def Template.camel (template : Template) : Template :=
  ⟨template.segments.map Segment.camel, template.verb⟩

def Template.Spelling.camel : Spelling → Spelling
  | .plain element => .plain element
  | .short path => .short path.camel
  | .long path pattern => .long path.camel pattern

/-- What becomes of a part of a text: in a field path, each piece between dots is
written in camel case. -/
def Template.Part.camel : Part → Part
  | .mark c => .mark c
  | .field path =>
    .field (joinWith '.' ((Text.splitOn '.' path).map Projection.camelName))
  | .word text => .word text

/-! ## Names -/

namespace Projection

/-- Only lower-case letters change, and they become upper-case ones. -/
theorem toUpper_eq_or_isUpper (c : Char) :
    c.toUpper = c ∨ c.toUpper.isUpper = true := by
  unfold Char.toUpper
  split
  next hlower =>
    right
    have hfirst : 'a'.val.toNat = 97 := rfl
    have hlast : 'z'.val.toNat = 122 := rfl
    have hfirstUpper : 'A'.val.toNat = 65 := rfl
    have hlastUpper : 'Z'.val.toNat = 90 := rfl
    have hshift : ('A'.val - 'a'.val).toNat = 2 ^ 32 - 32 := rfl
    unfold Char.isUpper
    simp only [UInt32.le_iff_toNat_le, ge_iff_le, UInt32.toNat_add,
      decide_eq_true_eq] at hlower ⊢
    omega
  next => exact .inl rfl

theorem toUpper_ne_underscore {c : Char} (hc : c ≠ '_') : c.toUpper ≠ '_' := by
  rcases toUpper_eq_or_isUpper c with hsame | hupper
  · rw [hsame]
    exact hc
  · intro heq
    rw [heq] at hupper
    exact absurd hupper (by decide)

theorem isNameChar_toUpper {c : Char} (hc : isNameChar c = true) :
    isNameChar c.toUpper = true := by
  rcases toUpper_eq_or_isUpper c with hsame | hupper
  · rw [hsame]
    exact hc
  · have halpha : c.toUpper.isAlpha = true := by
      unfold Char.isAlpha
      rw [hupper, Bool.true_or]
    simp [isNameChar, Char.isAlphanum, halpha]

theorem underscore_not_mem_capitalize (next : Bool) (cs : List Char) :
    '_' ∉ capitalize next cs := by
  induction cs generalizing next with
  | nil => simp [capitalize]
  | cons c cs ih =>
      rw [capitalize]
      split
      next => exact ih true
      next hc =>
        rw [List.mem_cons, not_or]
        refine ⟨?_, ih false⟩
        cases next with
        | true => exact (toUpper_ne_underscore hc).symm
        | false => exact Ne.symm hc

theorem capitalize_of_underscore_not_mem {cs : List Char} (hcs : '_' ∉ cs) :
    capitalize false cs = cs := by
  induction cs with
  | nil => rfl
  | cons c cs ih =>
      rw [List.mem_cons, not_or] at hcs
      rw [capitalize, if_neg (Ne.symm hcs.1), ih hcs.2]
      rfl

theorem isNameChar_of_mem_capitalize {next : Bool} {cs : List Char}
    (hcs : ∀ c ∈ cs, isNameChar c = true) :
    ∀ c ∈ capitalize next cs, isNameChar c = true := by
  induction cs generalizing next with
  | nil => simp [capitalize]
  | cons c cs ih =>
      obtain ⟨hc, hlater⟩ := List.forall_mem_cons.mp hcs
      rw [capitalize]
      split
      next => exact ih hlater
      next =>
        refine List.forall_mem_cons.mpr ⟨?_, ih hlater⟩
        cases next with
        | true => exact isNameChar_toUpper hc
        | false => exact hc

theorem camelName_camelName (name : List Char) :
    camelName (camelName name) = camelName name := by
  have hleading : ∀ c ∈ name.takeWhile (· = '_'), decide (c = '_') = true :=
    fun c hc => List.mem_takeWhile_imp (p := fun c => decide (c = '_')) hc
  have hnone := underscore_not_mem_capitalize false (name.dropWhile (· = '_'))
  have hfirst : ∀ c ∈ (capitalize false (name.dropWhile (· = '_'))).head?,
      decide (c = '_') = false := by
    intro c hc
    rw [decide_eq_false_iff_not]
    rintro rfl
    exact hnone (List.mem_of_mem_head? hc)
  have htake := takeWhile_append_eq_left hleading hfirst
  have hdrop := dropWhile_append_eq_right hleading hfirst
  change (camelName name).takeWhile (· = '_') ++
    capitalize false ((camelName name).dropWhile (· = '_')) = camelName name
  rw [camelName, htake, hdrop, capitalize_of_underscore_not_mem hnone]

theorem isName_camelName {name : String} (hname : IsName name) :
    IsName (String.ofList (camelName name.toList)) := by
  have hchars : ∀ c ∈ camelName name.toList, isNameChar c = true := by
    intro c hc
    rcases List.mem_append.mp hc with hleading | hrest
    · exact hname.isNameChar c ((List.takeWhile_sublist _).subset hleading)
    · exact isNameChar_of_mem_capitalize (fun d hd => hname.isNameChar d
        ((List.dropWhile_sublist _).subset hd)) c hrest
  obtain ⟨first, others, htext, hstart, _⟩ := hname
  have hfirst : ∃ cs, camelName name.toList = first :: cs := by
    by_cases hunderscore : first = '_'
    · simp [camelName, htext, hunderscore]
    · simp [camelName, htext, hunderscore, capitalize]
  obtain ⟨cs, hcamel⟩ := hfirst
  refine ⟨first, cs, by rw [String.toList_ofList, hcamel], hstart, ?_⟩
  exact fun d hd => hchars d (by simp [hcamel, hd])

end Projection

/-! ## Field paths and segments -/

theorem FieldPath.camel_camel (path : FieldPath) :
    path.camel.camel = path.camel := by
  rw [FieldPath.camel, FieldPath.camel, FieldPath.mk.injEq, List.map_map]
  apply List.map_congr_left
  intro name _
  rw [Function.comp_apply, String.toList_ofList, Projection.camelName_camelName]

theorem Template.IsFieldPath.camel {path : FieldPath}
    (hpath : IsFieldPath path) : IsFieldPath path.camel := by
  constructor
  · simpa [FieldPath.camel] using hpath.nonempty
  · rw [FieldPath.camel, List.forall_mem_map]
    exact fun name hname => Projection.isName_camelName (hpath.names name hname)

theorem FieldPath.chars_cons (first : String) {rest : List String}
    (hrest : rest ≠ []) :
    (FieldPath.mk (first :: rest)).chars =
      first.toList ++ '.' :: (FieldPath.mk rest).chars := by
  rw [FieldPath.chars, FieldPath.chars, List.map_cons,
    joinWith_cons (by simpa using hrest)]

theorem FieldPath.camel_chars (path : FieldPath) :
    path.camel.chars = joinWith '.'
      (path.components.map fun name => Projection.camelName name.toList) := by
  simp [FieldPath.chars, FieldPath.camel, Function.comp_def]

namespace Template.Spelling

theorem camel_camel (spelling : Spelling) :
    spelling.camel.camel = spelling.camel := by
  cases spelling <;> simp [camel, FieldPath.camel_camel]

theorem segment_camel (spelling : Spelling) :
    spelling.camel.segment = spelling.segment.camel := by
  cases spelling <;> rfl

theorem written_camel (spelling : Spelling) :
    spelling.camel.written = spelling.written := by
  cases spelling <;> rfl

theorem Valid.camel {spelling : Spelling} (hvalid : spelling.Valid) :
    spelling.camel.Valid := by
  cases spelling with
  | plain element => exact hvalid
  | short path => exact IsFieldPath.camel hvalid
  | long path pattern => exact ⟨hvalid.1.camel, hvalid.2⟩

theorem forall_valid_camel {spellings : List Spelling}
    (hvalid : ∀ spelling ∈ spellings, spelling.Valid) :
    ∀ spelling ∈ spellings.map camel, spelling.Valid := by
  rw [List.forall_mem_map]
  exact fun spelling hmem => (hvalid spelling hmem).camel

theorem map_segment_camel (spellings : List Spelling) :
    (spellings.map camel).map segment = (spellings.map segment).map Segment.camel := by
  simp [Function.comp_def, segment_camel]

theorem flatMap_written_camel (spellings : List Spelling) :
    (spellings.map camel).flatMap written = spellings.flatMap written := by
  simp [List.flatMap_map, written_camel]

end Template.Spelling

namespace Projection

/-! ## The scan over a text -/

theorem camelChars_append {front : List Char} (hfront : '{' ∉ front)
    (tail : List Char) :
    camelChars none (front ++ tail) = front ++ camelChars none tail := by
  induction front with
  | nil => rfl
  | cons c front ih =>
      rw [List.mem_cons, not_or] at hfront
      rw [List.cons_append, camelChars, if_neg (Ne.symm hfront.1), ih hfront.2,
        List.cons_append]

/-- The characters of a name are collected. -/
theorem camelChars_name {name : List Char}
    (hname : ∀ c ∈ name, isNameChar c = true) (read tail : List Char) :
    camelChars (some read) (name ++ tail) = camelChars (some (read ++ name)) tail := by
  induction name generalizing read with
  | nil => simp
  | cons c name ih =>
      obtain ⟨hc, hlater⟩ := List.forall_mem_cons.mp hname
      have hequals : c ≠ '=' := by
        rintro rfl
        exact absurd hc (by decide)
      have hbrace : c ≠ '}' := by
        rintro rfl
        exact absurd hc (by decide)
      have hdot : c ≠ '.' := by
        rintro rfl
        exact absurd hc (by decide)
      rw [List.cons_append, camelChars]
      simp [hequals, hbrace, hdot, ih hlater]

theorem camelChars_end {c : Char} (hc : c = '=' ∨ c = '}')
    (name tail : List Char) :
    camelChars (some name) (c :: tail) =
      camelName name ++ c :: camelChars none tail := by
  rw [camelChars]
  simp [hc]

theorem camelChars_dot (name tail : List Char) :
    camelChars (some name) ('.' :: tail) =
      camelName name ++ '.' :: camelChars (some []) tail := by
  simp [camelChars]

theorem camelChars_fieldPath {path : FieldPath} (hpath : IsFieldPath path)
    {c : Char} (hc : c = '=' ∨ c = '}') (tail : List Char) :
    camelChars (some []) (path.chars ++ c :: tail) =
      path.camel.chars ++ c :: camelChars none tail := by
  obtain ⟨names⟩ := path
  induction names with
  | nil => exact absurd rfl hpath.nonempty
  | cons name names ih =>
      have hname := (hpath.names name (by simp)).isNameChar
      cases names with
      | nil =>
          have hend := camelChars_end hc name.toList tail
          simpa [FieldPath.chars, FieldPath.camel, joinWith,
            camelChars_name hname] using hend
      | cons other others =>
          have hothers : IsFieldPath ⟨other :: others⟩ :=
            ⟨by simp, fun later hlater =>
              hpath.names later (List.mem_cons_of_mem _ hlater)⟩
          have hcamel : (FieldPath.mk (name :: other :: others)).camel.chars =
              camelName name.toList ++
                '.' :: (FieldPath.mk (other :: others)).camel.chars := by
            rw [FieldPath.camel, List.map_cons, FieldPath.chars_cons _ (by simp),
              String.toList_ofList]
            rfl
          rw [FieldPath.chars_cons _ (by simp), List.append_assoc, List.cons_append,
            camelChars_name hname, List.nil_append, camelChars_dot, ih hothers,
            hcamel, List.append_assoc, List.cons_append]

theorem camelChars_spelling {spelling : Spelling} (hvalid : spelling.Valid)
    (tail : List Char) :
    camelChars none (spelling.chars ++ tail) =
      spelling.camel.chars ++ camelChars none tail := by
  have hopen (cs : List Char) :
      camelChars none ('{' :: cs) = '{' :: camelChars (some []) cs := by
    simp [camelChars]
  cases spelling with
  | plain element => exact camelChars_append hvalid.brace_not_mem tail
  | short path =>
      have hpath := camelChars_fieldPath hvalid (.inr rfl) tail
      simp [Spelling.chars, Spelling.camel, hopen, hpath]
  | long path pattern =>
      obtain ⟨hpath, hne, helements⟩ := hvalid
      have hbrace : '{' ∉ joinWith '/' (pattern.map Element.chars) ++ ['}'] := by
        rw [List.mem_append, not_or]
        refine ⟨?_, by simp⟩
        intro hmem
        rcases mem_joinWith hmem with hslash | ⟨piece, hpiece, hc⟩
        · exact absurd hslash (by decide)
        · obtain ⟨element, helement, rfl⟩ := List.mem_map.mp hpiece
          exact (helements element helement).brace_not_mem hc
      have hpattern := camelChars_append hbrace tail
      rw [List.append_assoc, List.singleton_append] at hpattern
      have hfield := camelChars_fieldPath hpath (.inl rfl)
        (joinWith '/' (pattern.map Element.chars) ++ '}' :: tail)
      simp [Spelling.chars, Spelling.camel, hopen, hfield, hpattern]

theorem camelChars_spellings {spellings : List Spelling}
    (hvalid : ∀ spelling ∈ spellings, spelling.Valid) (tail : List Char) :
    camelChars none (joinWith '/' (spellings.map Spelling.chars) ++ tail) =
      joinWith '/' ((spellings.map Spelling.camel).map Spelling.chars) ++
        camelChars none tail := by
  induction spellings with
  | nil => rfl
  | cons spelling spellings ih =>
      obtain ⟨hfirst, hlater⟩ := List.forall_mem_cons.mp hvalid
      cases spellings with
      | nil => exact camelChars_spelling hfirst tail
      | cons other others =>
          have hslash (cs : List Char) :
              camelChars none ('/' :: cs) = '/' :: camelChars none cs := by
            simp [camelChars]
          have hothers (f : Spelling → List Char) :
              joinWith '/' ((spelling :: other :: others).map f) =
                f spelling ++ '/' :: joinWith '/' ((other :: others).map f) :=
            joinWith_cons (by simp)
          rw [List.map_map] at ih ⊢
          rw [hothers, hothers, List.append_assoc, List.cons_append,
            camelChars_spelling hfirst, hslash, ih hlater, List.append_assoc,
            List.cons_append]
          rfl

theorem camelChars_verbChars {verb : Option String}
    (hverb : ∀ name, verb = some name → IsText name) :
    camelChars none (verbChars verb) = verbChars verb := by
  have hbrace : '{' ∉ verbChars verb := by
    cases verb with
    | none => simp [verbChars]
    | some name =>
        have hname : '{' ∉ name.toList := (hverb name rfl).not_mem (by decide)
        simp [verbChars, hname]
  have happend := camelChars_append hbrace []
  simpa [camelChars] using happend

/-- The scan writes every segment in camel case and leaves the rest of the text. -/
theorem camelChars_text {spellings : List Spelling} {verb : Option String}
    (hvalid : ∀ spelling ∈ spellings, spelling.Valid)
    (hverb : ∀ name, verb = some name → IsText name) :
    camelChars none
        ('/' :: joinWith '/' (spellings.map Spelling.chars) ++ verbChars verb) =
      '/' :: joinWith '/' ((spellings.map Spelling.camel).map Spelling.chars) ++
        verbChars verb := by
  have hspellings := camelChars_spellings hvalid (verbChars verb)
  rw [camelChars_verbChars hverb] at hspellings
  rw [List.cons_append, camelChars, if_neg (by decide), hspellings,
    List.cons_append]

/-! ## Parts -/

theorem camel_part_fieldPath {path : FieldPath} (hpath : IsFieldPath path) :
    (Part.field path.chars).camel = .field path.camel.chars := by
  have hpieces : ∀ piece ∈ path.components.map String.toList, '.' ∉ piece := by
    rw [List.forall_mem_map]
    exact fun name hname => (hpath.names name hname).dot_not_mem
  have hsplit : Text.splitOn '.' path.chars = path.components.map String.toList := by
    rw [Text.splitOn_eq_list_splitOn, FieldPath.chars, joinWith_eq_intercalate,
      List.splitOn_intercalate '.' hpieces (by simpa using hpath.nonempty)]
  rw [Part.camel, hsplit, List.map_map, FieldPath.camel_chars]
  rfl

theorem map_camel_elementParts (element : Element) :
    (elementParts element).map Part.camel = elementParts element := by
  cases element <;> rfl

theorem map_camel_joinParts (pieces : List (List Part)) :
    (joinParts pieces).map Part.camel =
      joinParts (pieces.map (List.map Part.camel)) := by
  induction pieces with
  | nil => rfl
  | cons piece pieces ih =>
      cases pieces with
      | nil => rfl
      | cons other others =>
          have hothers (first : List Part) (rest : List (List Part)) :
              joinParts (first :: other :: rest) =
                first ++ .mark '/' :: joinParts (other :: rest) :=
            joinParts_cons (by simp)
          rw [hothers, List.map_append, List.map_cons, ih]
          rfl

theorem map_camel_parts {spelling : Spelling} (hvalid : spelling.Valid) :
    spelling.parts.map Part.camel = spelling.camel.parts := by
  cases spelling with
  | plain element => exact map_camel_elementParts element
  | short path =>
      have hfield := camel_part_fieldPath hvalid
      rw [Spelling.parts, List.map_cons, List.map_cons, hfield]
      rfl
  | long path pattern =>
      have hfield := camel_part_fieldPath hvalid.1
      have hpattern : (joinParts (pattern.map elementParts)).map Part.camel =
          joinParts (pattern.map elementParts) := by
        rw [map_camel_joinParts, List.map_map]
        congr 2
        funext element
        exact map_camel_elementParts element
      simp only [Spelling.parts, Spelling.camel, List.cons_append, List.nil_append,
        List.map_cons, List.map_append, List.map_nil, hfield, hpattern]
      rfl

theorem map_camel_templateParts {spellings : List Spelling}
    (hvalid : ∀ spelling ∈ spellings, spelling.Valid) (verb : Option String) :
    (templateParts spellings verb).map Part.camel =
      templateParts (spellings.map Spelling.camel) verb := by
  have hpieces : (spellings.map Spelling.parts).map (List.map Part.camel) =
      (spellings.map Spelling.camel).map Spelling.parts := by
    rw [List.map_map, List.map_map]
    exact List.map_congr_left fun spelling hmem =>
      map_camel_parts (hvalid spelling hmem)
  rw [templateParts, templateParts, List.map_cons, List.map_append,
    map_camel_joinParts, hpieces]
  cases verb <;> rfl

theorem isDivided_camel {text : String} {template : Template} {parts : List Part}
    (hdivided : IsDivided text template parts) :
    IsDivided (String.ofList (camelChars none text.toList)) template.camel
      (parts.map Part.camel) := by
  obtain ⟨spellings, hvalid, hverb, hsegments, rfl, htext⟩ := hdivided
  refine ⟨spellings.map Spelling.camel, Spelling.forall_valid_camel hvalid, hverb,
    ?_, map_camel_templateParts hvalid template.verb, ?_⟩
  · rw [Template.camel, hsegments, Spelling.map_segment_camel]
  · rw [map_camel_templateParts hvalid, partsChars_templateParts,
      String.toList_ofList, htext, partsChars_templateParts,
      camelChars_text hvalid hverb]

/-! ## Reading the new text -/

theorem camelChars_camelChars {text : String} {template : Template}
    (hparse : parse text = .ok template) :
    camelChars none (camelChars none text.toList) = camelChars none text.toList := by
  obtain ⟨parts, spellings, hvalid, hverb, _, rfl, htext⟩ := exists_isDivided hparse
  have hcamel := Spelling.forall_valid_camel hvalid
  have hagain : (spellings.map Spelling.camel).map Spelling.camel =
      spellings.map Spelling.camel := by
    rw [List.map_map]
    exact List.map_congr_left fun spelling _ => spelling.camel_camel
  rw [htext, partsChars_templateParts, camelChars_text hvalid hverb,
    camelChars_text hcamel hverb, hagain]

theorem isWritten_camel {text : String} {template : Template}
    (hwritten : IsWritten text template)
    (hdistinct : (template.camel.vars.map Variable.path).Nodup) :
    IsWritten (String.ofList (camelChars none text.toList)) template.camel := by
  rcases hwritten with ⟨rfl, rfl⟩ |
    ⟨spellings, hne, hvalid, hverb, _, hlast, hsegments, htext⟩
  · exact .inl ⟨by decide, rfl⟩
  · refine .inr ⟨spellings.map Spelling.camel, by simpa using hne,
      Spelling.forall_valid_camel hvalid, hverb, hdistinct, ?_, ?_, ?_⟩
    · rw [Spelling.flatMap_written_camel]
      exact hlast
    · rw [Template.camel, hsegments, Spelling.map_segment_camel]
    · rw [String.toList_ofList, htext, camelChars_text hvalid hverb]
      rfl

/-- Where a field path occurs twice, there is a first segment that repeats one. -/
theorem exists_repeating_spelling {spellings : List Spelling}
    (hrepeated : ¬ (spellings.filterMap Spelling.path?).Nodup) :
    ∃ front last back path, spellings = front ++ last :: back ∧
      (front.filterMap Spelling.path?).Nodup ∧ last.path? = some path ∧
      path ∈ front.filterMap Spelling.path? := by
  induction spellings using List.reverseRecOn with
  | nil => simp at hrepeated
  | append_singleton spellings last ih =>
      by_cases hnodup : (spellings.filterMap Spelling.path?).Nodup
      · rw [List.filterMap_append, List.nodup_append] at hrepeated
        cases hpath : last.path? with
        | none => simp [hpath, hnodup] at hrepeated
        | some path =>
            have hmem : path ∈ spellings.filterMap Spelling.path? := by
              by_contra hnot
              apply hrepeated
              refine ⟨hnodup, by simp [hpath], ?_⟩
              intro other hother later hlater heq
              have hsame : later = path := by simpa [hpath] using hlater
              exact hnot (hsame ▸ heq ▸ hother)
            exact ⟨spellings, last, [], path, rfl, hnodup, hpath, hmem⟩
      · obtain ⟨front, first, back, path, rfl, hfront, hpath, hmem⟩ := ih hnodup
        exact ⟨front, first, back ++ [last], path, by simp, hfront, hpath, hmem⟩

theorem exists_joinWith_append (separator : Char) (pieces others : List (List Char)) :
    ∃ more, joinWith separator (pieces ++ others) =
      joinWith separator pieces ++ more := by
  induction pieces with
  | nil => exact ⟨_, rfl⟩
  | cons piece pieces ih =>
      obtain ⟨more, hmore⟩ := ih
      cases pieces with
      | nil =>
          cases others with
          | nil => exact ⟨[], by simp⟩
          | cons other others =>
              exact ⟨separator :: joinWith separator (other :: others),
                joinWith_cons (by simp)⟩
      | cons next pieces =>
          have hfirst (rest : List (List Char)) (hrest : rest ≠ []) :
              joinWith separator (piece :: rest) =
                piece ++ separator :: joinWith separator rest :=
            joinWith_cons hrest
          refine ⟨more, ?_⟩
          rw [List.cons_append, hfirst _ (by simp), hmore, hfirst _ (by simp),
            List.append_assoc, List.cons_append]

/-- A text in which a segment repeats a field path is refused for that path. -/
theorem parse_eq_duplicate_of_repeating {text : String} {tail : List Char}
    {front back : List Spelling} {last : Spelling} {path : FieldPath}
    (hvalid : ∀ spelling ∈ front ++ last :: back, spelling.Valid)
    (hlast : .rest ∉ ((front ++ last :: back).flatMap Spelling.written).dropLast)
    (hfront : (front.filterMap Spelling.path?).Nodup)
    (hpath : last.path? = some path)
    (hmem : path ∈ front.filterMap Spelling.path?)
    (htext : text.toList =
      '/' :: joinWith '/' ((front ++ last :: back).map Spelling.chars) ++ tail) :
    parse text = .error (.duplicateVariable text path) := by
  have hsplit : front ++ last :: back = (front ++ [last]) ++ back := by simp
  rw [hsplit] at hvalid hlast htext
  rw [List.flatMap_append] at hlast
  have hrest : RestFinal false ((front ++ [last]).flatMap Spelling.written ++
      back.flatMap Spelling.written) := ⟨nofun, hlast⟩
  have hrebinds : Rebinds false [] path front last :=
    rebinds_iff.mpr ⟨fun spelling hspelling =>
      hvalid spelling (List.mem_append_left _ hspelling),
      (restFinal_append_iff.mp hrest).1.2, hfront, hpath, hmem⟩
  obtain ⟨more, hmore⟩ := exists_joinWith_append '/'
    ((front ++ [last]).map Spelling.chars) (back.map Spelling.chars)
  have hread : readTemplate text.toList = .error (.duplicate path) := by
    apply readTemplate_eq_duplicate_iff.mpr
    refine ⟨front, last, more ++ tail, hrebinds, ?_⟩
    rw [htext, List.map_append, hmore, List.cons_append, List.cons_append,
      List.append_assoc]
  rw [parse, hread]

theorem parse_camel_eq_duplicate {text : String} {template : Template}
    (hwritten : IsWritten text template)
    (hrepeated : ¬ (template.camel.vars.map Variable.path).Nodup) :
    ∃ path, List.Duplicate path (template.camel.vars.map Variable.path) ∧
      parse (String.ofList (camelChars none text.toList)) =
        .error (.duplicateVariable (String.ofList (camelChars none text.toList))
          path) := by
  rcases hwritten with ⟨rfl, rfl⟩ |
    ⟨spellings, _, hvalid, hverb, _, hlast, hsegments, htext⟩
  · exact absurd List.nodup_nil hrepeated
  · have hpaths : template.camel.vars.map Variable.path =
        (spellings.map Spelling.camel).filterMap Spelling.path? := by
      rw [vars, Template.camel, hsegments, ← Spelling.map_segment_camel,
        map_path_filterMap_var?]
    rw [hpaths] at hrepeated ⊢
    have hcamel := Spelling.forall_valid_camel hvalid
    have hwritten := camelChars_text hvalid hverb
    rw [← htext] at hwritten
    rw [← Spelling.flatMap_written_camel] at hlast
    generalize spellings.map Spelling.camel = camels at hcamel hwritten hlast hrepeated
    obtain ⟨front, last, back, path, rfl, hfront, hpath, hmem⟩ :=
      exists_repeating_spelling hrepeated
    refine ⟨path, ?_, parse_eq_duplicate_of_repeating hcamel hlast hfront hpath
      hmem (String.toList_ofList.trans hwritten)⟩
    rw [List.duplicate_iff_two_le_count, List.filterMap_append,
      List.filterMap_cons_some hpath, List.count_append, List.count_cons_self]
    have hpos := List.count_pos_iff.mpr hmem
    omega

/-- A text that is no template is refused as it is.  The text of a template
becomes the text of the same template with the names of its field paths in camel
case: every part of it stays but the field paths.  As long as those differ the new
text is read as that template and stays as it is in camel case, and otherwise it is
refused for a field path that occurs twice. -/
theorem camelCase_renames_fields (text : String) :
    (∀ error, parse text = .error error → camelCase text = .error error) ∧
      ∀ template, parse text = .ok template →
        ∃ result, camelCase text = .ok result ∧
          (∃ parts, IsDivided text template parts) ∧
          (∀ parts, IsDivided text template parts →
            IsDivided result template.camel (parts.map Part.camel)) ∧
          ((template.camel.vars.map Variable.path).Nodup →
            parse result = .ok template.camel ∧ camelCase result = .ok result) ∧
          (¬ (template.camel.vars.map Variable.path).Nodup →
            ∃ path, List.Duplicate path (template.camel.vars.map Variable.path) ∧
              parse result = .error (.duplicateVariable result path)) := by
  constructor
  · intro error hparse
    rw [camelCase, hparse]
  · intro template hparse
    have hwritten : IsWritten text template :=
      spells_iff_isWritten.mp (parse_eq_ok_iff.mp hparse)
    have hcamel : camelCase text =
        .ok (String.ofList (camelChars none text.toList)) := by
      rw [camelCase, hparse]
    refine ⟨_, hcamel, exists_isDivided hparse, fun parts => isDivided_camel, ?_,
      parse_camel_eq_duplicate hwritten⟩
    intro hdistinct
    have hagain : parse (String.ofList (camelChars none text.toList)) =
        .ok template.camel :=
      parse_eq_ok_iff.mpr (spells_iff_isWritten.mpr
        (isWritten_camel hwritten hdistinct))
    refine ⟨hagain, ?_⟩
    rw [camelCase, hagain, String.toList_ofList, camelChars_camelChars hparse]

theorem camelCase_renames_fields_with_underscores :
    camelCase "/v1/{_shelf_id.book__id_=a_b/**}:go_x" =
        .ok "/v1/{_shelfId.bookId=a_b/**}:go_x" ∧
      camelCase "/v1/{_shelfId.bookId=a_b/**}:go_x" =
        .ok "/v1/{_shelfId.bookId=a_b/**}:go_x" ∧
      camelCase "/{a_b}/{aB}" = .ok "/{aB}/{aB}" ∧
      ∃ path, parse "/{aB}/{aB}" = .error (.duplicateVariable "/{aB}/{aB}" path) := by
  have hparse : parse "/v1/{_shelf_id.book__id_=a_b/**}:go_x" = .ok
      ⟨[.plain (.literal "v1"), .variable ⟨⟨["_shelf_id", "book__id_"]⟩,
        [.literal "a_b", .rest]⟩], some "go_x"⟩ := by
    decide +kernel
  have hcollide : parse "/{a_b}/{aB}" = .ok
      ⟨[.variable ⟨⟨["a_b"]⟩, [.any]⟩, .variable ⟨⟨["aB"]⟩, [.any]⟩], none⟩ := by
    decide +kernel
  have hcamel : camelCase "/v1/{_shelf_id.book__id_=a_b/**}:go_x" =
      .ok "/v1/{_shelfId.bookId=a_b/**}:go_x" := by
    decide +kernel
  have hcamel' : camelCase "/{a_b}/{aB}" = .ok "/{aB}/{aB}" := by
    decide +kernel
  obtain ⟨result, hresult, _, _, hdistinct, _⟩ :=
    (camelCase_renames_fields "/v1/{_shelf_id.book__id_=a_b/**}:go_x").2 _ hparse
  obtain ⟨result', hresult', _, _, _, hrepeated⟩ :=
    (camelCase_renames_fields "/{a_b}/{aB}").2 _ hcollide
  obtain rfl : "/v1/{_shelfId.bookId=a_b/**}:go_x" = result :=
    Except.ok.inj (hcamel.symm.trans hresult)
  obtain rfl : "/{aB}/{aB}" = result' :=
    Except.ok.inj (hcamel'.symm.trans hresult')
  obtain ⟨path, _, hpath⟩ := hrepeated (by decide +kernel)
  exact ⟨hcamel, (hdistinct (by decide +kernel)).2, hcamel', path, hpath⟩

end Projection
end HttpRoutes
