import HttpRoutes.Proofs.Projection.Language
import HttpRoutes.Proofs.Request.Slashes
import HttpRoutes.Proofs.Router.Capture
import HttpRoutes.Proofs.Router.Conflict

/-!
# A projected expression and the table of one route

The expression of a template speaks of the characters of a path, the router of
its segments.  Both matter only up to the slashes: a path is its segments with a
slash before each, and no segment holds one.

So the expression accepts a path exactly if the template fits the segments and
what the `**` takes is on one line, and the router finds the route exactly if
the template fits what is left of the segments without the verb.  Two things
need care.  The path `/` has no segments, although it reads like one empty
segment.  And the verb stays with the path where the expression is concerned.
-/

namespace HttpRoutes

variable {α : Type}

/-- What a `**` takes of the segments holds no line break. -/
def RestOnOneLine (elements : List Element) (segments : List String) : Prop :=
  ∀ k, elements[k]? = some .rest →
    ∀ segment ∈ segments.drop k, '\n' ∉ segment.toList

/-! ## Expressions and shapes -/

theorem eq_of_append_eq_slashed {front other back tail : List Char}
    (hfront : '/' ∉ front) (hother : '/' ∉ other)
    (hback : ∀ c ∈ back.head?, c = '/') (htail : ∀ c ∈ tail.head?, c = '/')
    (heq : front ++ back = other ++ tail) : front = other ∧ back = tail := by
  have htaken {front back : List Char} (hfront : '/' ∉ front)
      (hback : ∀ c ∈ back.head?, c = '/') :
      (front ++ back).takeWhile (· != '/') = front := by
    apply Template.takeWhile_append_eq_left
    · intro c hmem
      rw [bne_iff_ne]
      intro hc
      exact hfront (hc ▸ hmem)
    · intro c hmem
      simp [hback c hmem]
  have hsame : front = other := by
    rw [← htaken hfront hback, heq, htaken hother htail]
  rw [hsame] at heq
  exact ⟨hsame, List.append_cancel_left heq⟩

theorem Regex.mem_language_literal {cs text : List Char} :
    text ∈ (literal cs).language ↔ text = cs := by
  induction cs generalizing text with
  | nil => exact Language.mem_one text
  | cons c cs ih =>
      rw [literal, mem_language_append]
      simp only [mem_language_exactly, ih, exists_eq_left, List.singleton_append]
      exact eq_comm

theorem mem_language_slash_append {r : Regex} {text : List Char} :
    text ∈ (slash.append r).language ↔
      ∃ piece ∈ r.language, text = '/' :: piece := by
  have hslash : slash = .one (.exactly '/') := rfl
  rw [hslash, Regex.mem_language_append]
  simp only [Regex.mem_language_exactly, exists_eq_left, List.singleton_append,
    eq_comm]

/-- A literal and a `*` each take a slash and one segment that fits. -/
theorem Element.mem_language_regex {element : Element} (hne : element ≠ .rest)
    (hgood : Template.IsElement element) {text : List Char} :
    text ∈ element.regex.language ↔
      ∃ segment : String, text = '/' :: segment.toList ∧
        '/' ∉ segment.toList ∧ Fits [element] [segment] := by
  cases element with
  | literal name =>
      have hslash : '/' ∉ name.toList := hgood.not_mem (by decide)
      rw [regex, mem_language_slash_append]
      simp only [Regex.mem_language_literal, exists_eq_left,
        fits_literal_cons_iff, fits_nil_iff, and_true]
      constructor
      · intro htext
        exact ⟨name, htext, hslash, rfl⟩
      · intro hsegment
        obtain ⟨segment, htext, _, hname⟩ := hsegment
        rw [htext, hname]
  | any =>
      rw [regex, mem_language_slash_append]
      simp only [Regex.mem_language_several_notSlash, fits_any_cons_iff,
        fits_nil_iff, and_true]
      constructor
      · intro hpiece
        obtain ⟨piece, ⟨hnonempty, hslash⟩, htext⟩ := hpiece
        refine ⟨String.ofList piece, ?_, ?_, ?_⟩
        · simpa using htext
        · simpa using hslash
        · simpa using hnonempty
      · intro hsegment
        obtain ⟨segment, htext, hslash, hnonempty⟩ := hsegment
        refine ⟨segment.toList, ⟨?_, hslash⟩, htext⟩
        simpa using hnonempty
  | rest => contradiction

theorem mem_language_regex_rest {text : List Char} :
    text ∈ Element.rest.regex.language ↔
      text = [] ∨ ∃ tail, text = '/' :: tail ∧ '\n' ∉ tail := by
  rw [Element.regex, Regex.mem_language_optional, mem_language_slash_append]
  simp only [Regex.mem_language_many_notNewline, and_comm]

theorem head_of_mem_elementsRegex {elements : List Element} {text : List Char}
    (hgood : ∀ element ∈ elements, Template.IsElement element)
    (hmem : text ∈ (elementsRegex elements).language) :
    ∀ c ∈ text.head?, c = '/' := by
  induction elements generalizing text with
  | nil =>
      have hempty : text = [] := (Language.mem_one text).mp hmem
      simp [hempty]
  | cons element elements ih =>
      obtain ⟨front, hfront, back, hback, htext⟩ :=
        Regex.mem_language_append.mp hmem
      have hlater := ih (fun later hin => hgood later (by simp [hin])) hback
      by_cases hrest : element = .rest
      · rw [hrest] at hfront
        cases mem_language_regex_rest.mp hfront with
        | inl hempty =>
            rw [hempty, List.nil_append] at htext
            exact htext ▸ hlater
        | inr hline =>
            obtain ⟨tail, hfront, _⟩ := hline
            simp [← htext, hfront]
      · obtain ⟨segment, hfront, _⟩ :=
          (element.mem_language_regex hrest (hgood element (by simp))).mp hfront
        simp [← htext, hfront]

theorem fits_cons_cons_iff {element : Element} (hne : element ≠ .rest)
    {shape : List Element} {segment : String} {segments : List String} :
    Fits (element :: shape) (segment :: segments) ↔
      Fits [element] [segment] ∧ Fits shape segments := by
  cases element with
  | literal text => simp
  | any => simp
  | rest => contradiction

theorem not_fits_cons_nil {element : Element} (hne : element ≠ .rest)
    (shape : List Element) : ¬ Fits (element :: shape) [] := by
  intro hfits
  cases hfits with
  | rest => contradiction

theorem restOnOneLine_cons_cons_iff {element : Element} (hne : element ≠ .rest)
    {elements : List Element} {segment : String} {segments : List String} :
    RestOnOneLine (element :: elements) (segment :: segments) ↔
      RestOnOneLine elements segments := by
  constructor
  · intro hline k hrest
    exact hline (k + 1) hrest
  · intro hline k hrest
    cases k with
    | zero => exact absurd (Option.some.inj hrest) hne
    | succ k => exact hline k hrest

theorem restOnOneLine_rest_iff {segments : List String} :
    RestOnOneLine [.rest] segments ↔
      ∀ segment ∈ segments, '\n' ∉ segment.toList := by
  constructor
  · exact fun hline => hline 0 rfl
  · intro hall k hrest segment hmem
    exact hall segment (List.mem_of_mem_drop hmem)

theorem mem_language_elementsRegex_cons {element : Element}
    (hne : element ≠ .rest) {elements : List Element}
    (hgood : ∀ other ∈ element :: elements, Template.IsElement other)
    {segment : String} {segments : List String}
    (hsegment : '/' ∉ segment.toList) :
    slashed (segment :: segments) ∈ (elementsRegex (element :: elements)).language ↔
      Fits [element] [segment] ∧
        slashed segments ∈ (elementsRegex elements).language := by
  have helement : Template.IsElement element := hgood element (by simp)
  have hlater : ∀ other ∈ elements, Template.IsElement other :=
    fun other hin => hgood other (by simp [hin])
  rw [elementsRegex, Regex.mem_language_append]
  constructor
  · intro hmem
    obtain ⟨front, hfront, back, hback, htext⟩ := hmem
    obtain ⟨name, hfront, hname, hfits⟩ :=
      (element.mem_language_regex hne helement).mp hfront
    rw [hfront, slashed_cons, List.cons_append, List.cons.injEq] at htext
    obtain ⟨hsame, htail⟩ := eq_of_append_eq_slashed hname hsegment
      (head_of_mem_elementsRegex hlater hback) (head_slashed segments) htext.2
    rw [← htail, ← String.toList_inj.mp hsame]
    exact ⟨hfits, hback⟩
  · intro hmem
    obtain ⟨hfits, hback⟩ := hmem
    have hfront : '/' :: segment.toList ∈ element.regex.language :=
      (element.mem_language_regex hne helement).mpr
        ⟨segment, rfl, hsegment, hfits⟩
    exact ⟨_, hfront, _, hback, by simp⟩

theorem slashed_mem_elementsRegex_rest_iff {segments : List String} :
    slashed segments ∈ (elementsRegex [.rest]).language ↔
      RestOnOneLine [.rest] segments := by
  have hlanguage : (elementsRegex [.rest]).language =
      Element.rest.regex.language := mul_one _
  rw [hlanguage, mem_language_regex_rest, restOnOneLine_rest_iff,
    ← not_mem_slashed_iff (by decide)]
  cases segments with
  | nil => simp
  | cons segment segments => simp

theorem nil_not_mem_elementsRegex_cons {element : Element}
    (hne : element ≠ .rest) (hgood : Template.IsElement element)
    (elements : List Element) :
    [] ∉ (elementsRegex (element :: elements)).language := by
  intro hmem
  obtain ⟨front, hfront, back, _, htext⟩ := Regex.mem_language_append.mp hmem
  obtain ⟨segment, hslash, _⟩ :=
    (element.mem_language_regex hne hgood).mp hfront
  rw [hslash] at htext
  contradiction

/-- If nothing follows a `**`, the expression of the elements accepts what the
elements fit, as long as the `**` takes no line break. -/
theorem slashed_mem_elementsRegex_iff {elements : List Element}
    (hcut : cutAfterRest elements = elements)
    (hgood : ∀ element ∈ elements, Template.IsElement element)
    {segments : List String}
    (hfree : ∀ segment ∈ segments, '/' ∉ segment.toList) :
    slashed segments ∈ (elementsRegex elements).language ↔
      Fits elements segments ∧ RestOnOneLine elements segments := by
  induction elements generalizing segments with
  | nil =>
      have hline : RestOnOneLine [] segments := by
        intro k hrest
        simp at hrest
      have hlanguage : (elementsRegex []).language = 1 := rfl
      rw [hlanguage, Language.mem_one, fits_nil_iff, and_iff_left hline]
      cases segments with
      | nil => simp
      | cons segment segments => simp
  | cons element elements ih =>
      by_cases hrest : element = .rest
      · -- Nothing follows, so all segments that are left are taken.
        rw [hrest, cutAfterRest_rest, List.cons.injEq] at hcut
        rw [hrest, ← hcut.2, slashed_mem_elementsRegex_rest_iff]
        exact (and_iff_right Fits.rest).symm
      · -- Every other element takes one segment, up to the next slash.
        have hfirst : Template.IsElement element := hgood element (by simp)
        have hlater : cutAfterRest elements = elements := by
          have hnone : Element.rest ∉ [element] := by
            simpa using Ne.symm hrest
          have hcons := cutAfterRest_append hnone elements
          rw [List.singleton_append, hcut] at hcons
          exact (List.cons.inj hcons).2.symm
        cases segments with
        | nil =>
            have hnil := nil_not_mem_elementsRegex_cons hrest hfirst elements
            have hfits := not_fits_cons_nil hrest elements
            simp [hnil, hfits]
        | cons segment segments =>
            have hslash : '/' ∉ segment.toList := hfree segment (by simp)
            have hfits : Fits (element :: elements) (segment :: segments) ↔
                Fits [element] [segment] ∧ Fits elements segments :=
              fits_cons_cons_iff hrest
            have helements : ∀ other ∈ elements, Template.IsElement other :=
              fun other hin => hgood other (List.mem_cons_of_mem _ hin)
            have hothers : ∀ other ∈ segments, '/' ∉ other.toList :=
              fun other hin => hfree other (List.mem_cons_of_mem _ hin)
            have hsame := ih hlater helements hothers
            rw [mem_language_elementsRegex_cons hrest hgood hslash, hsame, hfits,
              restOnOneLine_cons_cons_iff hrest, and_assoc]

/-! ## Templates and paths -/

theorem Template.WellFormed.cutAfterRest_flatten {template : Template}
    (hgood : template.WellFormed) (hlate : template.lateVars = []) :
    cutAfterRest template.flatten = template.flatten := by
  have hflatten := hgood.restLast.flatten
  cases hflatten with
  | inl hnone => exact cutAfterRest_of_not_mem hnone.1
  | inr hrest =>
      obtain ⟨front, hfront, hflat⟩ := hrest
      rw [show lateVariables template.segments = [] from hlate] at hflat
      rw [Template.flatten, hflat, cutAfterRest_append hfront]
      rfl

theorem Template.segments_ne_nil_of_isDynamic {template : Template}
    (hdynamic : template.isDynamic = true) : template.segments ≠ [] := by
  obtain ⟨segment, hmem, _⟩ := List.any_eq_true.mp hdynamic
  exact List.ne_nil_of_mem hmem

/-- One empty segment is fitted like none at all, except by no elements. -/
theorem fits_empty_segment_iff {elements : List Element}
    (hne : elements ≠ [])
    (hgood : ∀ element ∈ elements, Template.IsElement element) :
    Fits elements [""] ↔ Fits elements [] := by
  cases elements with
  | nil => contradiction
  | cons element elements =>
      by_cases hrest : element = .rest
      · rw [hrest, fits_rest_iff, fits_rest_iff]
      · have hnil := not_fits_cons_nil hrest elements
        have hempty : ¬ Fits (element :: elements) [""] := by
          intro hfits
          cases hfits with
          | literal _ =>
              have htext : Template.IsText "" := hgood (.literal "") (by simp)
              exact htext.1 rfl
          | any hsegment _ => exact hsegment rfl
          | rest => contradiction
        simp [hnil, hempty]

theorem fits_requestSegments_iff {elements : List Element}
    (hne : elements ≠ [])
    (hgood : ∀ element ∈ elements, Template.IsElement element)
    {path : String} {cs : List Char} (hpath : path.toList = '/' :: cs)
    (hquery : '?' ∉ path.toList) (hfragment : '#' ∉ path.toList) :
    Fits elements (requestSegments path) ↔
      Fits elements (segmentsAfterSlash cs) := by
  rw [requestSegments_of_slash hpath hquery hfragment]
  cases cs with
  | nil => exact (fits_empty_segment_iff hne hgood).symm
  | cons c cs => rfl

theorem restOnOneLine_requestSegments_iff {elements : List Element}
    {path : String} {cs : List Char} (hpath : path.toList = '/' :: cs)
    (hquery : '?' ∉ path.toList) (hfragment : '#' ∉ path.toList) :
    RestOnOneLine elements (requestSegments path) ↔
      RestOnOneLine elements (segmentsAfterSlash cs) := by
  rw [requestSegments_of_slash hpath hquery hfragment]
  cases cs with
  | nil =>
      have hnone (segments : List String)
          (hblank : ∀ segment ∈ segments, segment = "") :
          RestOnOneLine elements segments := by
        intro k hrest segment hmem
        have hsegment := hblank segment (List.mem_of_mem_drop hmem)
        simp [hsegment]
      have hnil := hnone [] (by simp)
      have hempty := hnone [""] (by simp)
      exact iff_of_true hnil hempty
  | cons c cs => rfl

/-! ## The table of one route -/

/-- The table gives the route to requests with this path. -/
def Matcher.Gives (table : Matcher α) (route : Route α) (path : String) : Prop :=
  ∃ values, table.lookup route.method path = .ok ⟨route, values⟩

namespace Builder

theorem routes_run_singleton {request : Attempt α} {route : Route α}
    (hroute : request.route? = some route) :
    (run [request]).routes = [route] := by
  rw [routes_run, List.filterMap_cons_some hroute]
  rfl

theorem gives_run_singleton_iff {request : Attempt α} {route : Route α}
    (hroute : request.route? = some route)
    (hlate : route.template.lateVars = []) (path : String) :
    (run [request]).build.Gives route path ↔
      ∃ segments, TakesVerb route.verb (requestSegments path) segments ∧
        Fits route.shape segments := by
  have hgood : (run [request]).Consistent := consistent_run [request]
  have hroutes := routes_run_singleton hroute
  have hmem : route ∈ (run [request]).routes := by simp [hroutes]
  constructor
  · intro hgives
    obtain ⟨values, hlookup⟩ := hgives
    obtain ⟨selection, hselect, hsame, _⟩ := hgood.lookup_eq_ok hlookup
    obtain ⟨_, _, htakes, hfits⟩ := RouteList.select?_eq_some hselect
    rw [hsame] at htakes hfits
    exact ⟨selection.segments, htakes, hfits⟩
  · intro htakes
    obtain ⟨segments, htakes, hfits⟩ := htakes
    have hcolon : ∀ verb, route.verb = some verb → ':' ∉ verb.toList :=
      fun verb hverb =>
        ((hgood.wellFormed hmem).verb verb hverb).colon_not_mem
    have hsome := RouteList.select?_ne_none hmem hcolon htakes hfits
    obtain ⟨selection, hselect⟩ := Option.ne_none_iff_exists'.mp hsome
    have hsame : selection.route = route := by
      have hin := (RouteList.select?_eq_some hselect).1
      rw [hroutes] at hin
      exact List.mem_singleton.mp hin
    have hcaptured : ¬ ∃ range, captures selection.segments
        selection.route.bindings = .error range := by
      rw [hgood.exists_misfit_iff hselect, hsame, hlate]
      simp
    cases hcaptures : captures selection.segments selection.route.bindings with
    | error range => exact absurd ⟨range, hcaptures⟩ hcaptured
    | ok values =>
        refine ⟨values, ?_⟩
        rw [hgood.lookup_eq, hselect]
        simp only [hcaptures]
        rw [hsame]

end Builder

section

variable {request : Builder.Attempt α} {route : Route α} {path : String}
  {cs : List Char}

theorem Builder.Attempt.wellFormed_of_route?
    (hroute : request.route? = some route) : route.template.WellFormed :=
  Template.parse_wellFormed (parse_of_route? hroute).2.1

/-- Once written down and read again, the expression accepts a path exactly if
the shape fits its segments, those of `/` being one empty segment. -/
theorem exists_regex_accepts_iff (hroute : request.route? = some route)
    (hdynamic : route.template.isDynamic = true)
    (hlate : route.template.lateVars = []) :
    ∃ expression read, route.template.regex? = some expression ∧
      Regex.ofAnchoredText? expression.anchoredText = some read ∧
      ∀ (text : String) (cs : List Char), text.toList = '/' :: cs →
        (read.accepts text = true ↔
          Fits route.shape (segmentsAfterSlash cs) ∧
            RestOnOneLine route.template.flatten (segmentsAfterSlash cs)) := by
  have hgood := Builder.Attempt.wellFormed_of_route? hroute
  obtain ⟨read, hread, hlanguage⟩ :=
    Regex.ofAnchoredText?_anchoredText (elementsRegex route.template.flatten)
  refine ⟨elementsRegex route.template.flatten, read, ?_, hread, ?_⟩
  · rw [Template.regex?, if_pos hdynamic]
  · intro text cs htext
    have hcut := hgood.cutAfterRest_flatten hlate
    have hshape : route.shape = route.template.flatten := hcut
    rw [Regex.accepts_iff, hlanguage, htext, ← slashed_segmentsAfterSlash cs,
      hshape]
    exact slashed_mem_elementsRegex_iff hcut hgood.elements
      (slash_not_mem_segmentsAfterSlash cs)

theorem gives_without_verb_iff (hroute : request.route? = some route)
    (hdynamic : route.template.isDynamic = true)
    (hlate : route.template.lateVars = []) (hverb : route.verb = none)
    (hpath : path.toList = '/' :: cs) (hquery : '?' ∉ path.toList)
    (hfragment : '#' ∉ path.toList) :
    (Builder.run [request]).build.Gives route path ↔
      Fits route.shape (segmentsAfterSlash cs) := by
  have hgood := Builder.Attempt.wellFormed_of_route? hroute
  have hshape : route.shape = route.template.flatten :=
    hgood.cutAfterRest_flatten hlate
  have hgives := Builder.gives_run_singleton_iff hroute hlate path
  simp only [hverb, TakesVerb, exists_eq_left] at hgives
  rw [hgives, hshape]
  have hsegments := Template.segments_ne_nil_of_isDynamic hdynamic
  exact fits_requestSegments_iff (hgood.flatten_ne_nil hsegments) hgood.elements
    hpath hquery hfragment

theorem gives_with_verb_iff {verb : String}
    (hroute : request.route? = some route)
    (hlate : route.template.lateVars = []) (hverb : route.verb = some verb)
    (hpath : path.toList = '/' :: (cs ++ ':' :: verb.toList))
    (hquery : '?' ∉ path.toList) (hfragment : '#' ∉ path.toList) :
    (Builder.run [request]).build.Gives route path ↔
      Fits route.shape (segmentsAfterSlash cs) := by
  have hgood := Builder.Attempt.wellFormed_of_route? hroute
  have hslash : '/' ∉ verb.toList := (hgood.verb verb hverb).not_mem (by decide)
  have htakes := takesVerb_segmentsAfterSlash hslash cs
  have hsegments := requestSegments_of_slash hpath hquery hfragment
  rw [if_neg (by simp)] at hsegments
  rw [Builder.gives_run_singleton_iff hroute hlate, hverb, hsegments]
  constructor
  · intro hfits
    obtain ⟨segments, htakes', hfits⟩ := hfits
    rw [htakes.unique htakes']
    exact hfits
  · intro hfits
    exact ⟨segmentsAfterSlash cs, htakes, hfits⟩

theorem exists_append_of_gives {verb : String}
    (hroute : request.route? = some route)
    (hlate : route.template.lateVars = []) (hverb : route.verb = some verb)
    (hpath : path.toList = '/' :: cs) (hquery : '?' ∉ path.toList)
    (hfragment : '#' ∉ path.toList)
    (hgives : (Builder.run [request]).build.Gives route path) :
    ∃ front, path = front ++ ":" ++ verb := by
  obtain ⟨stripped, htakes, _⟩ :=
    (Builder.gives_run_singleton_iff hroute hlate path).mp hgives
  rw [hverb, requestSegments_of_slash hpath hquery hfragment] at htakes
  by_cases hempty : cs = []
  · rw [if_pos hempty] at htakes
    obtain ⟨front, head, hsegments, _⟩ := htakes
    simp at hsegments
  · rw [if_neg hempty] at htakes
    obtain ⟨front, hfront⟩ := exists_append_of_takesVerb htakes
    rw [← hpath] at hfront
    have htext := toList_eq_append_colon_iff.mp hfront
    rw [String.ofList_toList] at htext
    exact ⟨String.ofList front, htext⟩

theorem restOnOneLine_of_newline_not_mem (hpath : path.toList = '/' :: cs)
    (hnewline : '\n' ∉ path.toList) (elements : List Element) :
    RestOnOneLine elements (segmentsAfterSlash cs) := by
  rw [hpath, ← slashed_segmentsAfterSlash,
    not_mem_slashed_iff (by decide)] at hnewline
  intro k _ segment hmem
  exact hnewline segment (List.mem_of_mem_drop hmem)

/-- For a dynamic template in which no variable follows a `**`, the projected
expression, as it is written, and the table that holds only its route agree on
every path with a leading slash and without query and fragment, except that the
expression wants what the `**` takes on one line.  A verb is no part of the
expression: the table wants it at the end of the path, and the expression is
asked about what stands before it. -/
theorem regex_accepts_iff_gives (hroute : request.route? = some route)
    (hdynamic : route.template.isDynamic = true)
    (hlate : route.template.lateVars = [])
    (hslash : path.toList.head? = some '/') (hquery : '?' ∉ path.toList)
    (hfragment : '#' ∉ path.toList) :
    ∃ expression read, route.template.regex? = some expression ∧
      Regex.ofAnchoredText? expression.anchoredText = some read ∧
      (route.verb = none →
        (read.accepts path = true ↔
          (Builder.run [request]).build.Gives route path ∧
            RestOnOneLine route.template.flatten (requestSegments path)) ∧
        ('\n' ∉ path.toList →
          (read.accepts path = true ↔
            (Builder.run [request]).build.Gives route path))) ∧
      ∀ verb, route.verb = some verb →
        ((Builder.run [request]).build.Gives route path →
          ∃ front, path = front ++ ":" ++ verb) ∧
        ∀ front, path = front ++ ":" ++ verb →
          (read.accepts front = true ↔
            (Builder.run [request]).build.Gives route path ∧
              RestOnOneLine route.template.flatten (requestSegments front)) ∧
          ('\n' ∉ path.toList →
            (read.accepts front = true ↔
              (Builder.run [request]).build.Gives route path)) := by
  obtain ⟨expression, read, hregex, hread, haccepts⟩ :=
    exists_regex_accepts_iff hroute hdynamic hlate
  obtain ⟨cs, hpath⟩ : ∃ cs, path.toList = '/' :: cs :=
    List.head?_eq_some_iff.mp hslash
  refine ⟨expression, read, hregex, hread, ?_, ?_⟩
  · intro hverb
    rw [haccepts path cs hpath,
      gives_without_verb_iff hroute hdynamic hlate hverb hpath hquery hfragment,
      restOnOneLine_requestSegments_iff hpath hquery hfragment]
    refine ⟨Iff.rfl, ?_⟩
    intro hnewline
    exact and_iff_left (restOnOneLine_of_newline_not_mem hpath hnewline _)
  · intro verb hverb
    refine ⟨exists_append_of_gives hroute hlate hverb hpath hquery hfragment, ?_⟩
    intro front hfront
    obtain ⟨head, hhead⟩ := exists_slash_of_append_colon hfront hslash
    have hwhole : path.toList = '/' :: (head ++ ':' :: verb.toList) := by
      simp [hfront, hhead]
    have hsubset : ∀ c ∈ front.toList, c ∈ path.toList := by
      intro c hmem
      simp [hfront, hmem]
    rw [haccepts front head hhead,
      gives_with_verb_iff hroute hlate hverb hwhole hquery hfragment,
      restOnOneLine_requestSegments_iff hhead
        (fun hmem => hquery (hsubset _ hmem))
        (fun hmem => hfragment (hsubset _ hmem))]
    refine ⟨Iff.rfl, ?_⟩
    intro hnewline
    exact and_iff_left (restOnOneLine_of_newline_not_mem hhead
      (fun hmem => hnewline (hsubset _ hmem)) _)

end

theorem regex_accepts_iff_gives_with_verb :
    ∃ expression read,
      Template.regex? ⟨[.plain (.literal "v1.0"),
        .variable ⟨⟨["a"]⟩, [.rest]⟩], some "go"⟩ = some expression ∧
      Regex.ofAnchoredText? expression.anchoredText = some read ∧
      read.accepts "/v1.0/p/q" = true ∧
      (Builder.run [⟨.reject, "GET", "/v1.0/{a=**}:go", ()⟩]).build.Gives
        ⟨"GET", ⟨[.plain (.literal "v1.0"),
          .variable ⟨⟨["a"]⟩, [.rest]⟩], some "go"⟩, ()⟩ "/v1.0/p/q:go" := by
  have hroute : Builder.Attempt.route?
      ⟨.reject, "GET", "/v1.0/{a=**}:go", ()⟩ =
        some ⟨"GET", ⟨[.plain (.literal "v1.0"),
          .variable ⟨⟨["a"]⟩, [.rest]⟩], some "go"⟩, ()⟩ := by
    decide +kernel
  have hslash : "/v1.0/p/q:go".toList.head? = some '/' := by
    decide +kernel
  obtain ⟨expression, read, hregex, hread, _, hverb⟩ :=
    regex_accepts_iff_gives hroute rfl (by decide) hslash (by decide +kernel)
      (by decide +kernel)
  have hagree := ((hverb "go" rfl).2 "/v1.0/p/q" (by decide +kernel)).2
    (by decide +kernel)
  have hgives : (Builder.run [⟨.reject, "GET", "/v1.0/{a=**}:go",
      ()⟩]).build.Gives ⟨"GET", ⟨[.plain (.literal "v1.0"),
        .variable ⟨⟨["a"]⟩, [.rest]⟩], some "go"⟩, ()⟩ "/v1.0/p/q:go" :=
    ⟨[("a", "p/q")], by decide +kernel⟩
  exact ⟨expression, read, hregex, hread, hagree.mpr hgives, hgives⟩

-- A `**` takes a line break in the table, but not in the expression.
example : (elementsRegex [.literal "v1", .rest]).accepts "/v1/a\nb" = false ∧
    Fits [.literal "v1", .rest] (requestSegments "/v1/a\nb") := by
  decide +kernel

end HttpRoutes
