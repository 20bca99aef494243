import HttpRoutes.Template.Parser
import HttpRoutes.Template.Printer
import Mathlib.Data.List.TakeWhile

/-!
# What the reader of templates accepts

The spelling relations below say which texts denote which template, without
mentioning how a text is read.  A variable has two spellings when its pattern
is one `*`; everything else has one.

Two things depend on what was spelled before: no element may be spelled after
a `**`, and no field path may be bound twice.  A variable that leaves its
pattern out spells no element, so it is the one thing that can follow a `**`.

Every reader is then shown to accept only spelled texts, in the order in which
the readers are built on each other.
-/

namespace HttpRoutes.Template

/-- What a literal or a verb can be. -/
def IsText (text : String) : Prop :=
  text.toList ≠ [] ∧ ∀ c ∈ text.toList, isTextChar c = true

def IsName (name : String) : Prop :=
  ∃ c cs, name.toList = c :: cs ∧ isNameStart c = true ∧
    ∀ d ∈ cs, isNameChar d = true

def IsElement : Element → Prop
  | .literal text => IsText text
  | .any => True
  | .rest => True

structure IsFieldPath (path : FieldPath) : Prop where
  nonempty : path.components ≠ []
  names : ∀ name ∈ path.components, IsName name

structure IsPattern (pattern : List Element) : Prop where
  nonempty : pattern ≠ []
  elements : ∀ element ∈ pattern, IsElement element
  restLast : .rest ∉ pattern.dropLast

/-- How one segment is spelled, where `restSeen` tells whether a `**` has been
spelled before. -/
inductive SpellsSegment (restSeen : Bool) : Segment → List Char → Prop where
  | plain {element : Element} (hfirst : restSeen = false)
      (helement : IsElement element) :
      SpellsSegment restSeen (.plain element) element.chars
  | short {path : FieldPath} (hpath : IsFieldPath path) :
      SpellsSegment restSeen (.variable ⟨path, [.any]⟩)
        ('{' :: path.chars ++ ['}'])
  | long {path : FieldPath} {pattern : List Element}
      (hfirst : restSeen = false) (hpath : IsFieldPath path)
      (hpattern : IsPattern pattern) :
      SpellsSegment restSeen (.variable ⟨path, pattern⟩)
        ('{' :: path.chars ++
          '=' :: joinWith '/' (pattern.map Element.chars) ++ ['}'])

/-- The segment binds no field path of `bound`. -/
def Fresh (bound : List FieldPath) (segment : Segment) : Prop :=
  ∀ var, segment.var? = some var → var.path ∉ bound

inductive SpellsSegments :
    Bool → List FieldPath → List Segment → List Char → Prop where
  | last {restSeen : Bool} {bound : List FieldPath} {segment : Segment}
      {text : List Char} (hsegment : SpellsSegment restSeen segment text)
      (hfresh : Fresh bound segment) :
      SpellsSegments restSeen bound [segment] text
  | cons {restSeen : Bool} {bound : List FieldPath} {segment : Segment}
      {segments : List Segment} {text others : List Char}
      (hsegment : SpellsSegment restSeen segment text)
      (hfresh : Fresh bound segment)
      (hsegments : SpellsSegments (restSeen || segment.elements.contains .rest)
        (addBound bound segment) segments others) :
      SpellsSegments restSeen bound (segment :: segments) (text ++ '/' :: others)

/-- The texts that denote a template. -/
inductive Spells : Template → List Char → Prop where
  | root : Spells ⟨[], none⟩ ['/']
  | plain {segments : List Segment} {text : List Char}
      (hsegments : SpellsSegments false [] segments text) :
      Spells ⟨segments, none⟩ ('/' :: text)
  | verb {segments : List Segment} {text : List Char} {verb : String}
      (hsegments : SpellsSegments false [] segments text)
      (hverb : IsText verb) :
      Spells ⟨segments, some verb⟩ ('/' :: text ++ ':' :: verb.toList)

theorem IsText.not_mem {text : String} (htext : IsText text) {c : Char}
    (hc : isTextChar c = false) : c ∉ text.toList := by
  intro hmem
  rw [htext.2 c hmem] at hc
  contradiction

theorem joinWith_cons {separator : Char} {piece : List Char}
    {pieces : List (List Char)} (hpieces : pieces ≠ []) :
    joinWith separator (piece :: pieces) =
      piece ++ separator :: joinWith separator pieces := by
  cases pieces with
  | nil => contradiction
  | cons other others => rfl

/-! ## Elements and patterns -/

theorem readElement_spells {restSeen : Bool} {cs tail : List Char}
    {element : Element} (hread : readElement restSeen cs = .ok (element, tail)) :
    restSeen = false ∧ IsElement element ∧ cs = element.chars ++ tail := by
  unfold readElement at hread
  split at hread
  · simp at hread
  · next hfirst =>
    refine ⟨by simpa using hfirst, ?_⟩
    split at hread
    · simp only [Except.ok.injEq, Prod.mk.injEq] at hread
      obtain ⟨rfl, rfl⟩ := hread
      exact ⟨trivial, rfl⟩
    · simp only [Except.ok.injEq, Prod.mk.injEq] at hread
      obtain ⟨rfl, rfl⟩ := hread
      exact ⟨trivial, rfl⟩
    · simp at hread
    · split at hread
      · simp at hread
      · next htext =>
        simp only [Except.ok.injEq, Prod.mk.injEq] at hread
        obtain ⟨rfl, rfl⟩ := hread
        refine ⟨⟨by simpa using htext, ?_⟩, ?_⟩
        · intro c hc
          rw [String.toList_ofList] at hc
          exact List.mem_takeWhile_imp hc
        · simp [Element.chars, List.takeWhile_append_dropWhile]

theorem readPattern_spells {restSeen : Bool} {cs tail : List Char}
    {pattern : List Element}
    (hread : readPattern restSeen cs = .ok (pattern, tail)) :
    restSeen = false ∧ IsPattern pattern ∧
      cs = joinWith '/' (pattern.map Element.chars) ++ '}' :: tail := by
  fun_induction readPattern restSeen cs generalizing pattern tail with
  | case1 => simp at hread
  | case2 => simp at hread
  | case3 _ _ element _ helement =>
      simp only [Except.ok.injEq, Prod.mk.injEq] at hread
      obtain ⟨rfl, rfl⟩ := hread
      obtain ⟨hfirst, hvalid, htext⟩ := readElement_spells helement
      refine ⟨hfirst, ⟨by simp, ?_, by simp⟩, htext⟩
      simpa using hvalid
  | case4 => simp at hread
  | case5 _ _ element _ helement elements _ htail ih =>
      simp only [Except.ok.injEq, Prod.mk.injEq] at hread
      obtain ⟨rfl, rfl⟩ := hread
      obtain ⟨hfirst, hvalid, htext⟩ := readElement_spells helement
      obtain ⟨hnotRest, hpattern, hothers⟩ := ih htail
      have hpieces : elements.map Element.chars ≠ [] := by
        simpa using hpattern.nonempty
      refine ⟨hfirst, ⟨by simp, ?_, ?_⟩, ?_⟩
      · simpa using ⟨hvalid, hpattern.elements⟩
      · rw [List.dropLast_cons_of_ne_nil hpattern.nonempty, List.mem_cons]
        rintro (heq | hmem)
        · simp [← heq] at hnotRest
        · exact hpattern.restLast hmem
      · rw [htext, List.map_cons, joinWith_cons hpieces, hothers]
        simp
  | case6 => simp at hread

/-! ## Field paths and variables -/

theorem readName_spells {cs tail : List Char} {name : String}
    (hread : readName cs = .ok (name, tail)) :
    IsName name ∧ cs = name.toList ++ tail := by
  cases cs with
  | nil => simp [readName] at hread
  | cons c cs =>
      simp only [readName] at hread
      split at hread
      · next hstart =>
        simp only [Except.ok.injEq, Prod.mk.injEq] at hread
        obtain ⟨rfl, rfl⟩ := hread
        refine ⟨⟨c, cs.takeWhile isNameChar, by simp, hstart, ?_⟩, ?_⟩
        · exact fun d hd => List.mem_takeWhile_imp hd
        · simp [List.takeWhile_append_dropWhile]
      · simp at hread

theorem readNames_spells {cs tail : List Char} {names : List String}
    (hread : readNames cs = .ok (names, tail)) :
    IsFieldPath ⟨names⟩ ∧ cs = (FieldPath.mk names).chars ++ tail := by
  fun_induction readNames cs generalizing names tail with
  | case1 => simp at hread
  | case2 => simp at hread
  | case3 _ name _ hname names _ htail ih =>
      simp only [Except.ok.injEq, Prod.mk.injEq] at hread
      obtain ⟨rfl, rfl⟩ := hread
      obtain ⟨hvalid, htext⟩ := readName_spells hname
      obtain ⟨hpath, hothers⟩ := ih htail
      have hpieces : names.map String.toList ≠ [] := by
        simpa using hpath.nonempty
      refine ⟨⟨by simp, ?_⟩, ?_⟩
      · simpa using ⟨hvalid, hpath.names⟩
      · rw [htext, hothers, FieldPath.chars, FieldPath.chars, List.map_cons,
          joinWith_cons hpieces]
        simp
  | case4 _ name _ _ hname =>
      simp only [Except.ok.injEq, Prod.mk.injEq] at hread
      obtain ⟨rfl, rfl⟩ := hread
      obtain ⟨hvalid, htext⟩ := readName_spells hname
      exact ⟨⟨by simp, by simpa using hvalid⟩, htext⟩

theorem bindVariable_eq_ok_iff {bound : List FieldPath} {path : FieldPath}
    {pattern : List Element} {rest tail : List Char} {var : Variable} :
    bindVariable bound path pattern rest = .ok (var, tail) ↔
      path ∉ bound ∧ var = ⟨path, pattern⟩ ∧ tail = rest := by
  unfold bindVariable
  split
  · simp_all
  · simp_all [eq_comm]

theorem readVariable_spells {restSeen : Bool} {bound : List FieldPath}
    {cs tail : List Char} {var : Variable}
    (hread : readVariable restSeen bound cs = .ok (var, tail)) :
    var.path ∉ bound ∧ ∃ text, '{' :: cs = text ++ tail ∧
      SpellsSegment restSeen (.variable var) text := by
  unfold readVariable at hread
  split at hread
  · simp at hread
  · next names _ hnames =>
    obtain ⟨hpath, htext⟩ := readNames_spells hnames
    split at hread
    · simp at hread
    · next pattern _ hpattern =>
      obtain ⟨hfirst, hvalid, hothers⟩ := readPattern_spells hpattern
      obtain ⟨hfresh, rfl, rfl⟩ := bindVariable_eq_ok_iff.mp hread
      refine ⟨hfresh, _, ?_, .long hfirst hpath hvalid⟩
      rw [htext, hothers]
      simp
  · next names _ hnames =>
    obtain ⟨hpath, htext⟩ := readNames_spells hnames
    obtain ⟨hfresh, rfl, rfl⟩ := bindVariable_eq_ok_iff.mp hread
    refine ⟨hfresh, _, ?_, .short hpath⟩
    rw [htext]
    simp
  · simp at hread
  · simp at hread

/-! ## Segments and templates -/

theorem readSegment_spells {restSeen : Bool} {bound : List FieldPath}
    {cs tail : List Char} {segment : Segment}
    (hread : readSegment restSeen bound cs = .ok (segment, tail)) :
    Fresh bound segment ∧ ∃ text, cs = text ++ tail ∧
      SpellsSegment restSeen segment text := by
  unfold readSegment at hread
  split at hread
  · split at hread
    · simp at hread
    · next hvariable =>
      simp only [Except.ok.injEq, Prod.mk.injEq] at hread
      obtain ⟨rfl, rfl⟩ := hread
      obtain ⟨hfresh, hspelled⟩ := readVariable_spells hvariable
      refine ⟨?_, hspelled⟩
      intro var hvar
      simp only [Segment.var?_variable, Option.some.injEq] at hvar
      exact hvar ▸ hfresh
  · split at hread
    · simp at hread
    · next helement =>
      simp only [Except.ok.injEq, Prod.mk.injEq] at hread
      obtain ⟨rfl, rfl⟩ := hread
      obtain ⟨hfirst, hvalid, htext⟩ := readElement_spells helement
      exact ⟨by simp [Fresh, Segment.var?], _, htext, .plain hfirst hvalid⟩

/-- Reading segments stops at the end of the text or in front of a verb. -/
theorem readSegments_spells {restSeen : Bool} {bound : List FieldPath}
    {cs tail : List Char} {segments : List Segment}
    (hread : readSegments restSeen bound cs = .ok (segments, tail)) :
    (tail = [] ∨ tail.head? = some ':') ∧ ∃ text, cs = text ++ tail ∧
      SpellsSegments restSeen bound segments text := by
  fun_induction readSegments restSeen bound cs generalizing segments tail with
  | case1 => simp at hread
  | case2 => simp at hread
  | case3 _ _ _ segment _ hsegment segments _ htail ih =>
      simp only [Except.ok.injEq, Prod.mk.injEq] at hread
      obtain ⟨rfl, rfl⟩ := hread
      obtain ⟨hfresh, text, htext, hspelled⟩ := readSegment_spells hsegment
      obtain ⟨hstop, others, hothers, hrest⟩ := ih htail
      refine ⟨hstop, text ++ '/' :: others, ?_, .cons hspelled hfresh hrest⟩
      rw [htext, hothers]
      simp
  | case4 _ _ _ segment hsegment =>
      simp only [Except.ok.injEq, Prod.mk.injEq] at hread
      obtain ⟨rfl, rfl⟩ := hread
      obtain ⟨hfresh, text, htext, hspelled⟩ := readSegment_spells hsegment
      exact ⟨.inl rfl, text, htext, .last hspelled hfresh⟩
  | case5 _ _ _ segment _ hsegment =>
      simp only [Except.ok.injEq, Prod.mk.injEq] at hread
      obtain ⟨rfl, rfl⟩ := hread
      obtain ⟨hfresh, text, htext, hspelled⟩ := readSegment_spells hsegment
      exact ⟨.inr rfl, text, htext, .last hspelled hfresh⟩
  | case6 => simp at hread
  | case7 => simp at hread

theorem readVerb_spells {cs : List Char} {verb : String}
    (hread : readVerb cs = .ok verb) : IsText verb ∧ cs = verb.toList := by
  unfold readVerb at hread
  split at hread
  · simp at hread
  · next hall =>
    split at hread
    · simp at hread
    · next hnonempty =>
      simp only [Except.ok.injEq] at hread
      subst verb
      refine ⟨⟨by simpa using hnonempty, ?_⟩, by simp⟩
      simpa [List.dropWhile_eq_nil_iff] using hall

theorem readTemplate_spells {cs : List Char} {template : Template}
    (hread : readTemplate cs = .ok template) : Spells template cs := by
  unfold readTemplate at hread
  split at hread
  · simp only [Except.ok.injEq] at hread
    subst template
    exact .root
  · simp at hread
  · split at hread
    · simp at hread
    · next hsegments =>
      obtain ⟨_, text, htext, hspelled⟩ := readSegments_spells hsegments
      split at hread
      · simp at hread
      · next hverb =>
        simp only [Except.ok.injEq] at hread
        obtain ⟨hvalid, rfl⟩ := readVerb_spells hverb
        subst template
        rw [htext, ← List.cons_append]
        exact .verb hspelled hvalid
    · next hnoVerb hsegments =>
      simp only [Except.ok.injEq] at hread
      subst template
      obtain ⟨hstop, text, htext, hspelled⟩ := readSegments_spells hsegments
      rcases hstop with hend | hcolon
      · rw [htext, hend, List.append_nil]
        exact .plain hspelled
      · obtain ⟨tail, rfl⟩ := List.head?_eq_some_iff.mp hcolon
        exact absurd rfl (hnoVerb tail)
  · simp at hread

theorem parse_spells {text : String} {template : Template}
    (hparse : parse text = .ok template) : Spells template text.toList := by
  unfold parse at hparse
  split at hparse
  · next hread =>
    simp only [Except.ok.injEq] at hparse
    exact hparse ▸ readTemplate_spells hread
  · simp at hparse
  · simp at hparse

end HttpRoutes.Template
