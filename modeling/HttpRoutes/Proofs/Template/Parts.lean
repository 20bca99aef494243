import HttpRoutes.Proofs.Template.Canonical
import HttpRoutes.Proofs.Template.Grammar
import Mathlib.Data.List.Chain

/-!
# The parts of a template text

The text of a template divides into delimiters, the field paths of its variables
and words, which are its literals and its verb.  Neither a field path nor a word
holds a delimiter, except that a word may hold `=`, and between any two of them
there is one.  Right behind an opening brace stands a field path and never a
word.
-/

namespace HttpRoutes.Template

inductive Part where
  | mark (c : Char)
  | field (path : List Char)
  | word (text : List Char)
deriving DecidableEq

namespace Part

def chars : Part → List Char
  | mark c => [c]
  | field path => path
  | word text => text

def marks : List Char := ['/', ':', '{', '}', '*', '=']

def Valid : Part → Prop
  | mark c => c ∈ marks
  | field path => ∀ c ∈ path, isPathChar c = true
  | word text => ∀ c ∈ text, isTextChar c = true

/-- Whether the second part may stand right behind the first. -/
def Precedes : Part → Part → Prop
  | mark c, word _ => c ≠ '{'
  | mark _, _ => True
  | _, mark _ => True
  | _, _ => False

end Part

def partsChars (parts : List Part) : List Char := parts.flatMap Part.chars

def elementParts : Element → List Part
  | .literal text => [.word text.toList]
  | .any => [.mark '*']
  | .rest => [.mark '*', .mark '*']

def joinParts : List (List Part) → List Part
  | [] => []
  | [piece] => piece
  | piece :: pieces => piece ++ .mark '/' :: joinParts pieces

def Spelling.parts : Spelling → List Part
  | .plain element => elementParts element
  | .short path => [.mark '{', .field path.chars, .mark '}']
  | .long path pattern =>
    [.mark '{', .field path.chars] ++
      .mark '=' :: (joinParts (pattern.map elementParts) ++ [.mark '}'])

def verbParts : Option String → List Part
  | none => []
  | some verb => [.mark ':', .word verb.toList]

def templateParts (spellings : List Spelling) (verb : Option String) : List Part :=
  .mark '/' :: (joinParts (spellings.map Spelling.parts) ++ verbParts verb)

/-- The text is written for the template and divides into these parts. -/
def IsDivided (text : String) (template : Template) (parts : List Part) : Prop :=
  ∃ spellings : List Spelling, (∀ spelling ∈ spellings, spelling.Valid) ∧
    (∀ verb, template.verb = some verb → IsText verb) ∧
    template.segments = spellings.map Spelling.segment ∧
    parts = templateParts spellings template.verb ∧
    text.toList = partsChars parts

structure WellDivided (parts : List Part) : Prop where
  valid : ∀ part ∈ parts, part.Valid
  separated : parts.IsChain Part.Precedes

/-! ## Texts -/

@[simp] theorem partsChars_nil : partsChars [] = [] := rfl

@[simp] theorem partsChars_cons (part : Part) (parts : List Part) :
    partsChars (part :: parts) = part.chars ++ partsChars parts := rfl

@[simp] theorem partsChars_append (front back : List Part) :
    partsChars (front ++ back) = partsChars front ++ partsChars back :=
  List.flatMap_append

theorem joinParts_cons {piece : List Part} {pieces : List (List Part)}
    (hpieces : pieces ≠ []) :
    joinParts (piece :: pieces) = piece ++ .mark '/' :: joinParts pieces := by
  cases pieces with
  | nil => contradiction
  | cons other others => rfl

theorem partsChars_joinParts (pieces : List (List Part)) :
    partsChars (joinParts pieces) = joinWith '/' (pieces.map partsChars) := by
  induction pieces with
  | nil => rfl
  | cons piece pieces ih =>
      cases pieces with
      | nil => rfl
      | cons other others =>
          rw [joinParts_cons (by simp), List.map_cons, joinWith_cons (by simp),
            partsChars_append, partsChars_cons, ih]
          rfl

theorem partsChars_elementParts (element : Element) :
    partsChars (elementParts element) = element.chars := by
  cases element <;> simp [elementParts, Part.chars, Element.chars]

theorem Spelling.partsChars_parts (spelling : Spelling) :
    partsChars spelling.parts = spelling.chars := by
  have hpattern (pattern : List Element) :
      partsChars (joinParts (pattern.map elementParts)) =
        joinWith '/' (pattern.map Element.chars) := by
    rw [partsChars_joinParts, List.map_map]
    congr 2
    funext element
    exact partsChars_elementParts element
  cases spelling with
  | plain element => exact partsChars_elementParts element
  | short path => rfl
  | long path pattern => simp [parts, chars, Part.chars, hpattern]

theorem partsChars_templateParts (spellings : List Spelling)
    (verb : Option String) :
    partsChars (templateParts spellings verb) =
      '/' :: joinWith '/' (spellings.map Spelling.chars) ++ verbChars verb := by
  have hpieces : (spellings.map Spelling.parts).map partsChars =
      spellings.map Spelling.chars := by
    rw [List.map_map]
    congr 1
    funext spelling
    exact spelling.partsChars_parts
  rw [templateParts, partsChars_cons, partsChars_append, partsChars_joinParts,
    hpieces]
  cases verb <;> simp [Part.chars, verbParts, verbChars]

theorem exists_isDivided {text : String} {template : Template}
    (hparse : parse text = .ok template) : ∃ parts, IsDivided text template parts := by
  rw [parse_eq_ok_iff, spells_iff_isWritten] at hparse
  rcases hparse with ⟨rfl, rfl⟩ |
    ⟨spellings, _, hvalid, hverb, _, _, hsegments, htext⟩
  · exact ⟨[.mark '/'], [], by simp, by simp, rfl, rfl, rfl⟩
  · refine ⟨templateParts spellings template.verb, spellings, hvalid, hverb,
      hsegments, rfl, ?_⟩
    rw [htext, partsChars_templateParts]

/-- A literal and a variable without a pattern. -/
theorem isDivided_literal_variable (text literal name : String)
    (hliteral : IsText literal) (hname : IsName name)
    (htext : text.toList = '/' :: (literal.toList ++ '/' :: '{' ::
      (name.toList ++ ['}']))) :
    IsDivided text
      ⟨[.plain (.literal literal), .variable ⟨⟨[name]⟩, [.any]⟩], none⟩
      [.mark '/', .word literal.toList, .mark '/', .mark '{',
        .field name.toList, .mark '}'] := by
  refine ⟨[.plain (.literal literal), .short ⟨[name]⟩], ?_, by simp, rfl, rfl,
    by simpa [Part.chars] using htext⟩
  have hpath : IsFieldPath ⟨[name]⟩ := ⟨by simp, by simpa using hname⟩
  simpa [Spelling.Valid, IsElement] using ⟨hliteral, hpath⟩

/-! ## Parts are separated by delimiters -/

theorem Part.Precedes.mark_or_mark {part other : Part} (h : part.Precedes other) :
    (∃ c, part = .mark c) ∨ ∃ c, other = .mark c := by
  cases part with
  | mark c => exact .inl ⟨c, rfl⟩
  | field path =>
      cases other with
      | mark c => exact .inr ⟨c, rfl⟩
      | field => exact h.elim
      | word => exact h.elim
  | word text =>
      cases other with
      | mark c => exact .inr ⟨c, rfl⟩
      | field => exact h.elim
      | word => exact h.elim

theorem wellDivided_nil : WellDivided [] := ⟨by simp, .nil⟩

theorem wellDivided_singleton {part : Part} (hpart : part.Valid) :
    WellDivided [part] :=
  ⟨by simpa using hpart, .singleton part⟩

theorem wellDivided_mark {c : Char} (hc : c ∈ Part.marks) : WellDivided [.mark c] :=
  wellDivided_singleton hc

theorem WellDivided.append_mark {front back : List Part} (hfront : WellDivided front)
    (hback : WellDivided back) {c : Char} (hc : c ∈ Part.marks) (hbrace : c ≠ '{') :
    WellDivided (front ++ .mark c :: back) := by
  constructor
  · rw [List.forall_mem_append, List.forall_mem_cons]
    exact ⟨hfront.valid, hc, hback.valid⟩
  · rw [List.isChain_append, List.isChain_cons]
    refine ⟨hfront.separated, ⟨?_, hback.separated⟩, ?_⟩
    · intro part _
      cases part <;> simp [Part.Precedes, hbrace]
    · intro part _ other hother
      obtain rfl := Option.mem_some.mp hother
      cases part <;> simp [Part.Precedes]

/-- A word is at the front or follows a delimiter, but not an opening brace. -/
theorem WellDivided.mark_before_word {front parts : List Part} {word : List Char}
    (hdivided : WellDivided (front ++ .word word :: parts)) :
    front = [] ∨ ∃ others c, front = others ++ [.mark c] ∧ c ∈ Part.marks ∧
      c ≠ '{' := by
  rcases List.eq_nil_or_concat front with rfl | ⟨others, last, hfront⟩
  · exact .inl rfl
  · rw [List.concat_eq_append] at hfront
    subst hfront
    obtain ⟨hvalid, hseparated⟩ := hdivided
    rw [List.append_assoc] at hseparated
    have hprecedes : last.Precedes (.word word) :=
      (List.isChain_append_cons_cons.mp hseparated).2.1
    cases last with
    | mark c => exact .inr ⟨others, c, rfl, hvalid (.mark c) (by simp), hprecedes⟩
    | field => exact hprecedes.elim
    | word => exact hprecedes.elim

theorem wellDivided_joinParts {pieces : List (List Part)}
    (hpieces : ∀ piece ∈ pieces, WellDivided piece) :
    WellDivided (joinParts pieces) := by
  induction pieces with
  | nil => exact wellDivided_nil
  | cons piece pieces ih =>
      obtain ⟨hpiece, hothers⟩ := List.forall_mem_cons.mp hpieces
      cases pieces with
      | nil => exact hpiece
      | cons other others =>
          rw [joinParts_cons (by simp)]
          exact hpiece.append_mark (ih hothers) (by decide) (by decide)

theorem IsElement.wellDivided {element : Element} (helement : IsElement element) :
    WellDivided (elementParts element) := by
  cases element with
  | literal text => exact wellDivided_singleton helement.2
  | any => exact wellDivided_mark (by decide)
  | rest =>
      exact (wellDivided_mark (by decide)).append_mark wellDivided_nil (by decide)
        (by decide)

theorem Spelling.Valid.wellDivided {spelling : Spelling} (hvalid : spelling.Valid) :
    WellDivided spelling.parts := by
  have hopen {path : FieldPath} (hpath : IsFieldPath path) :
      WellDivided [.mark '{', .field path.chars] := by
    constructor
    · simpa [Part.Valid, Part.marks] using hpath.isPathChar
    · simp [Part.Precedes]
  cases spelling with
  | plain element => exact IsElement.wellDivided hvalid
  | short path =>
      exact (hopen hvalid).append_mark wellDivided_nil (by decide) (by decide)
  | long path pattern =>
      obtain ⟨hpath, _, helements⟩ := hvalid
      have hpattern : WellDivided (joinParts (pattern.map elementParts)) := by
        apply wellDivided_joinParts
        rw [List.forall_mem_map]
        exact fun element hmem => (helements element hmem).wellDivided
      exact (hopen hpath).append_mark
        (hpattern.append_mark wellDivided_nil (by decide) (by decide)) (by decide)
        (by decide)

theorem IsDivided.wellDivided {text : String} {template : Template}
    {parts : List Part} (hdivided : IsDivided text template parts) :
    WellDivided parts := by
  obtain ⟨spellings, hvalid, hverb, _, rfl, _⟩ := hdivided
  have hsegments : WellDivided (joinParts (spellings.map Spelling.parts)) := by
    apply wellDivided_joinParts
    rw [List.forall_mem_map]
    exact fun spelling hmem => (hvalid spelling hmem).wellDivided
  have hall : WellDivided (joinParts (spellings.map Spelling.parts) ++
      verbParts template.verb) := by
    cases hname : template.verb with
    | none =>
        rw [verbParts, List.append_nil]
        exact hsegments
    | some verb =>
        have hword : WellDivided [.word verb.toList] :=
          wellDivided_singleton (hverb verb hname).2
        exact hsegments.append_mark hword (by decide) (by decide)
  exact wellDivided_nil.append_mark hall (by decide) (by decide)

end HttpRoutes.Template
