import HttpRoutes.Proofs.Request.Slashes
import HttpRoutes.Proofs.Router.Order
import HttpRoutes.Proofs.Router.Specificity
import Mathlib.Data.Set.Finite.Basic
import Mathlib.Data.Set.Finite.Range

/-!
# Every route can be requested

A route of a table is never hidden entirely by the routes around it.  For every
route there is a request that gets it, put together from the route's own shape:
a literal stands for itself, a `*` is met by a text that no route spells, and a
`**` takes empty segments.  No literal and no `*` takes an empty segment, so no
shape that fits this request has a smaller rank.

There are empty segments enough for the late variables of the route, so that
capturing does not go out of range.  The request ends in a colon and a verb only
if the route has that verb, so it is tried where the route is bound.

This needs that the route's literals and verb can stand in a path.  A route with a
`?` or a `#` in one of them is taken into the table and no request gets it.
-/

namespace HttpRoutes

variable {α : Type}

/-- Segments that fit a shape, where `fresh` meets each `*` and `**` takes
`count` empty ones. -/
def sampleSegments (fresh : String) (count : Nat) :
    List Element → List String
  | [] => []
  | .literal text :: elements => text :: sampleSegments fresh count elements
  | .any :: elements => fresh :: sampleSegments fresh count elements
  | .rest :: _ => List.replicate count ""

theorem exists_fresh_text (texts : List String) :
    ∃ text, text ∉ texts ∧ text ≠ "" ∧ ∀ c ∈ text.toList, c = 'a' := by
  have hinjective : Function.Injective fun count : Nat =>
      String.ofList (List.replicate (count + 1) 'a') := by
    intro count other heq
    have hlength := congrArg List.length (String.ofList_injective heq)
    simpa using hlength
  obtain ⟨text, ⟨count, htext⟩, hnot⟩ :=
    (Set.infinite_range_of_injective hinjective).exists_notMem_finset
      texts.toFinset
  have hchars : text.toList = List.replicate (count + 1) 'a' := by
    rw [← htext, String.toList_ofList]
  refine ⟨text, by simpa using hnot, ?_, ?_⟩
  · intro hempty
    simp [hempty] at hchars
  · intro c hmem
    rw [hchars] at hmem
    exact List.eq_of_mem_replicate hmem

section Sample

variable {fresh : String} {count : Nat}

theorem forall_mem_sampleSegments {P : String → Prop} (hempty : P "")
    (hfresh : P fresh) {elements : List Element}
    (hliterals : ∀ text, .literal text ∈ elements → P text) :
    ∀ segment ∈ sampleSegments fresh count elements, P segment := by
  induction elements with
  | nil => simp [sampleSegments]
  | cons element elements ih =>
      have hlater := ih fun text hmem =>
        hliterals text (List.mem_cons_of_mem _ hmem)
      cases element with
      | literal text =>
          exact List.forall_mem_cons.mpr ⟨hliterals text (by simp), hlater⟩
      | any => exact List.forall_mem_cons.mpr ⟨hfresh, hlater⟩
      | rest =>
          intro segment hmem
          rw [List.eq_of_mem_replicate hmem]
          exact hempty

theorem fits_sampleSegments (hfresh : fresh ≠ "") (elements : List Element) :
    Fits (cutAfterRest elements) (sampleSegments fresh count elements) := by
  induction elements with
  | nil => exact .nil
  | cons element elements ih =>
      cases element with
      | literal text => exact .literal ih
      | any => exact .any hfresh ih
      | rest => exact .rest

/-- The sampled shape comes first among all shapes that fit its sample. -/
theorem precedes_of_fits_sampleSegments {other : List Element}
    (hother : ∀ text, .literal text ∈ other → text ≠ fresh ∧ text ≠ "")
    (hcount : count ≠ 0) {elements : List Element}
    (hfits : Fits other (sampleSegments fresh count elements)) :
    Precedes (cutAfterRest elements) other := by
  induction elements generalizing other with
  | nil => exact precedes_nil other
  | cons element elements ih =>
      cases element with
      | literal text =>
          cases hfits with
          | literal hfits =>
              have htail := fun text hmem =>
                hother text (List.mem_cons_of_mem _ hmem)
              exact (ih htail hfits).cons _
          | any _ _ => exact precedes_of_rank_lt _ _ (by simp [Element.rank])
          | rest => exact precedes_of_rank_lt _ _ (by simp [Element.rank])
      | any =>
          cases hfits with
          | literal _ => exact absurd rfl (hother fresh (by simp)).1
          | any _ hfits =>
              have htail := fun text hmem =>
                hother text (List.mem_cons_of_mem _ hmem)
              exact (ih htail hfits).cons _
          | rest => exact precedes_of_rank_lt _ _ (by simp [Element.rank])
      | rest =>
          obtain ⟨more, rfl⟩ := Nat.exists_eq_succ_of_ne_zero hcount
          rw [sampleSegments, List.replicate_succ] at hfits
          cases hfits with
          | literal _ => exact absurd rfl (hother "" (by simp)).2
          | any hsegment _ => exact absurd rfl hsegment
          | rest => exact .inl rfl

theorem sampleSegments_ne_nil (hcount : count ≠ 0) {elements : List Element}
    (hne : elements ≠ []) : sampleSegments fresh count elements ≠ [] := by
  cases elements with
  | nil => contradiction
  | cons element elements =>
      cases element with
      | literal text => exact List.cons_ne_nil _ _
      | any => exact List.cons_ne_nil _ _
      | rest => simpa [sampleSegments] using hcount

theorem sampleSegments_ne_empty_segment (hfresh : fresh ≠ "")
    (hcount : 2 ≤ count) {elements : List Element}
    (hempty : ∀ text, .literal text ∈ elements → text ≠ "") :
    sampleSegments fresh count elements ≠ [""] := by
  cases elements with
  | nil => simp [sampleSegments]
  | cons element elements =>
      cases element with
      | literal text => simp [sampleSegments, hempty text (by simp)]
      | any => simp [sampleSegments, hfresh]
      | rest =>
          intro heq
          have hlength := congrArg List.length heq
          simp only [sampleSegments, List.length_replicate,
            List.length_singleton] at hlength
          omega

theorem length_sampleSegments {front after : List Element}
    (hfront : .rest ∉ front) :
    (sampleSegments fresh count (front ++ .rest :: after)).length =
      front.length + count := by
  induction front with
  | nil => simp [sampleSegments]
  | cons element front ih =>
      rw [List.mem_cons, not_or] at hfront
      have hlength := ih hfront.2
      cases element with
      | literal text =>
          simp only [List.cons_append, sampleSegments, List.length_cons, hlength]
          omega
      | any =>
          simp only [List.cons_append, sampleSegments, List.length_cons, hlength]
          omega
      | rest => exact absurd rfl hfront.1

end Sample

theorem mem_of_mem_cutAfterRest {element : Element} {elements : List Element}
    (hmem : element ∈ cutAfterRest elements) : element ∈ elements := by
  induction elements with
  | nil => simp at hmem
  | cons other elements ih =>
      cases other with
      | literal text =>
          exact (List.mem_cons.mp hmem).elim (by simp +contextual)
            fun hlater => List.mem_cons_of_mem _ (ih hlater)
      | any =>
          exact (List.mem_cons.mp hmem).elim (by simp +contextual)
            fun hlater => List.mem_cons_of_mem _ (ih hlater)
      | rest => simpa using Or.inl (List.mem_singleton.mp hmem)

/-! ## Templates and their samples -/

namespace Template

theorem WellFormed.isText_of_literal {template : Template}
    (hgood : template.WellFormed) {text : String}
    (hmem : .literal text ∈ template.flatten) : IsText text :=
  hgood.elements (.literal text) hmem

theorem IsText.ne_empty {text : String} (htext : IsText text) : text ≠ "" := by
  intro hempty
  exact htext.1 (by rw [hempty, String.toList_empty])

theorem IsText.isPathText {text : String} (htext : IsText text)
    (hmarks : '?' ∉ text.toList ∧ '#' ∉ text.toList) : IsPathText text :=
  ⟨htext.not_mem (by decide), hmarks.1, hmarks.2⟩

theorem WellFormed.colon_not_mem_sampleSegments {template : Template}
    (hgood : template.WellFormed) {fresh : String}
    (hchars : ∀ c ∈ fresh.toList, c = 'a') (count : Nat) :
    ∀ segment ∈ sampleSegments fresh count template.flatten,
      ':' ∉ segment.toList := by
  apply forall_mem_sampleSegments
  · simp
  · exact fun hmem => absurd (hchars ':' hmem) (by decide)
  · exact fun text hmem => (hgood.isText_of_literal hmem).colon_not_mem

theorem WellFormed.isPathText_of_mem_sampleSegments {template : Template}
    (hgood : template.WellFormed) {fresh : String}
    (hchars : ∀ c ∈ fresh.toList, c = 'a')
    (hliterals : ∀ text, .literal text ∈ template.flatten →
      '?' ∉ text.toList ∧ '#' ∉ text.toList) (count : Nat) :
    ∀ segment ∈ sampleSegments fresh count template.flatten,
      IsPathText segment := by
  apply forall_mem_sampleSegments
  · constructor <;> simp
  · have hnot (c : Char) (hc : c ≠ 'a') : c ∉ fresh.toList :=
      fun hmem => hc (hchars c hmem)
    exact ⟨hnot _ (by decide), hnot _ (by decide), hnot _ (by decide)⟩
  · intro text hmem
    exact (hgood.isText_of_literal hmem).isPathText (hliterals text hmem)

/-- There is a path that holds the sample of a template and its verb. -/
theorem Spells.exists_path {template : Template} {cs : List Char}
    (hspelled : Spells template cs) {fresh : String} (hfresh : fresh ≠ "")
    (hchars : ∀ c ∈ fresh.toList, c = 'a')
    (hliterals : ∀ text, .literal text ∈ template.flatten →
      '?' ∉ text.toList ∧ '#' ∉ text.toList)
    (hverb : ∀ verb, template.verb = some verb →
      '?' ∉ verb.toList ∧ '#' ∉ verb.toList) :
    ∃ path : String, path.toList.head? = some '/' ∧
      TakesVerb template.verb (requestSegments path)
        (sampleSegments fresh (template.lateVars.length + 2)
          template.flatten) := by
  have hgood : template.WellFormed := hspelled.wellFormed
  apply exists_path_of_segments
  · exact hgood.isPathText_of_mem_sampleSegments hchars hliterals _
  · intro name hname
    have hne := hgood.flatten_ne_nil (hspelled.segments_ne_nil hname)
    exact ⟨(hgood.verb name hname).isPathText (hverb name hname),
      sampleSegments_ne_nil (Nat.succ_ne_zero _) hne⟩
  · intro _
    exact sampleSegments_ne_empty_segment hfresh (Nat.le_add_left 2 _)
      fun text hmem => (hgood.isText_of_literal hmem).ne_empty

/-- With two empty segments more than late variables, the sample holds a segment
for every late variable. -/
theorem WellFormed.length_sampleSegments_of_rest {template : Template}
    (hgood : template.WellFormed) (fresh : String) {k : Nat}
    (hrest : template.flatten[k]? = some .rest) :
    k + 1 + template.lateVars.length <
      (sampleSegments fresh (template.lateVars.length + 2)
        template.flatten).length := by
  rcases hgood.restLast.flatten with ⟨hnone, _⟩ | ⟨front, hfront, hflat⟩
  · exact absurd (List.mem_of_getElem? hrest) hnone
  · have hafter : .rest ∉ List.replicate
        (lateVariables template.segments).length Element.any := by
      simp [List.mem_replicate]
    have hflatten : template.flatten = front ++ .rest ::
        List.replicate (lateVariables template.segments).length .any := hflat
    rw [hflatten, getElem?_eq_rest_iff hfront hafter] at hrest
    rw [hflatten, length_sampleSegments hfront, hrest]
    omega

end Template

/-! ## The request for a route -/

theorem RouteList.select?_of_takesVerb {routes : List (Route α)}
    {method path : String} {verb : Option String} {segments : List String}
    {selection : Selection α}
    (htakes : TakesVerb verb (requestSegments path) segments)
    (hverb : ∀ name, verb = some name → ':' ∉ name.toList)
    (hplain : verb = none → ∀ segment ∈ segments, ':' ∉ segment.toList)
    (hchoose : choose? ⟨method, verb⟩ segments routes = some selection) :
    select? routes method path = some selection := by
  rw [select?, ← requestSegments_eq_pathSegments]
  cases verb with
  | some name =>
      have hcolon : lastColon? (requestSegments path) = some (segments, name) :=
        lastColon?_eq_some_iff.mpr ⟨hverb name rfl, htakes⟩
      rw [hcolon, Option.bind_some]
      exact Option.or_eq_some_iff.mpr (.inl hchoose)
  | none =>
      have hsame : segments = requestSegments path := htakes
      have hcolon : lastColon? (requestSegments path) = none := by
        rw [Option.eq_none_iff_forall_ne_some]
        rintro ⟨stripped, name⟩ hsome
        obtain ⟨_, front, head, hfront, _⟩ := lastColon?_eq_some_iff.mp hsome
        have hlast := hplain rfl (head ++ ":" ++ name) (by simp [hsame, hfront])
        simp at hlast
      rw [hcolon, Option.bind_none, Option.none_or, ← hsame, hchoose]

namespace Builder

section Routes

variable {builder : Builder α} (hgood : builder.Consistent) {route : Route α}
  (hmem : route ∈ builder.routes)

include hgood hmem

theorem Consistent.choose?_sampleSegments
    (hmost : ∀ other ∈ builder.routes, other.method = route.method →
      other.verb = route.verb → other.shape = route.shape →
        other.variableCount ≤ route.variableCount)
    {fresh : String} {count : Nat} (hfresh : fresh ≠ "") (hcount : count ≠ 0)
    (hnew : ∀ other ∈ builder.routes, ∀ text, .literal text ∈ other.shape →
      text ≠ fresh) :
    RouteList.choose? route.slot
        (sampleSegments fresh count route.template.flatten) builder.routes =
      some ⟨route, sampleSegments fresh count route.template.flatten⟩ := by
  have hfitting : route ∈ RouteList.fitting route.slot
      (sampleSegments fresh count route.template.flatten) builder.routes :=
    RouteList.mem_fitting_iff.mpr
      ⟨hmem, rfl, fits_sampleSegments hfresh route.template.flatten⟩
  obtain ⟨⟨selected, segments⟩, hchoose⟩ := Option.ne_none_iff_exists'.mp
    (RouteList.choose?_ne_none hfitting)
  obtain ⟨hselected, hsegments⟩ := RouteList.choose?_eq_some hchoose
  obtain ⟨hother, hslot, hfits⟩ := RouteList.mem_fitting_iff.mp hselected
  have hliterals : ∀ text, .literal text ∈ selected.shape →
      text ≠ fresh ∧ text ≠ "" := by
    intro text hliteral
    have hflat : .literal text ∈ selected.template.flatten :=
      mem_of_mem_cutAfterRest hliteral
    exact ⟨hnew _ hother text hliteral,
      ((hgood.wellFormed hother).isText_of_literal hflat).ne_empty⟩
  have hprecedes : Precedes route.shape selected.shape :=
    precedes_of_fits_sampleSegments hliterals hcount hfits
  have hnot : ¬ selected.Beats route := by
    rcases hprecedes with hshape | hlt
    · have hle := hmost _ hother (congrArg Slot.method hslot)
        (congrArg Slot.verb hslot) hshape.symm
      simp [Route.Beats, hshape, hle]
    · rintro (hlt' | ⟨heq, _⟩)
      · exact lt_asymm hlt hlt'
      · exact hlt.ne heq.symm
  rcases hgood.beats_of_choose? hchoose route hfitting with hsame | hbeats
  · have hroute : selected = route := hsame.symm
    have hsample : segments =
        sampleSegments fresh count route.template.flatten := hsegments
    rw [hchoose, hroute, hsample]
  · exact absurd hbeats hnot

theorem Consistent.exists_match
    (hliterals : ∀ text, .literal text ∈ route.template.flatten →
      '?' ∉ text.toList ∧ '#' ∉ text.toList)
    (hverb : ∀ verb, route.verb = some verb →
      '?' ∉ verb.toList ∧ '#' ∉ verb.toList)
    (hmost : ∀ other ∈ builder.routes, other.method = route.method →
      other.verb = route.verb → other.shape = route.shape →
        other.variableCount ≤ route.variableCount) :
    ∃ path values, path.toList.head? = some '/' ∧
      builder.build.lookup route.method path = .ok ⟨route, values⟩ := by
  obtain ⟨text, hparse⟩ := hgood.parsed route hmem
  have htemplate : route.template.WellFormed := Template.parse_wellFormed hparse
  obtain ⟨fresh, hnew, hfresh, hchars⟩ := exists_fresh_text
    (builder.routes.flatMap fun other => other.shape.map Element.text)
  have hunspelled : ∀ other ∈ builder.routes, ∀ text,
      .literal text ∈ other.shape → text ≠ fresh := by
    rintro other hother text hliteral rfl
    have htext : text = (Element.literal text).text := String.ofList_toList.symm
    exact hnew (List.mem_flatMap.mpr ⟨other, hother,
      List.mem_map.mpr ⟨.literal text, hliteral, htext.symm⟩⟩)
  have hchoose := hgood.choose?_sampleSegments hmem hmost hfresh
    (Nat.succ_ne_zero (route.template.lateVars.length + 1)) hunspelled
  obtain ⟨path, hslash, htakes⟩ := (Template.parse_spells hparse).exists_path
    hfresh hchars hliterals hverb
  have hcolon := htemplate.colon_not_mem_sampleSegments hchars
    (route.template.lateVars.length + 2)
  have hselect := RouteList.select?_of_takesVerb htakes
    (fun name hname => (htemplate.verb name hname).colon_not_mem)
    (fun _ => hcolon) hchoose
  have hfits : ¬ ∃ range, captures (sampleSegments fresh
      (route.template.lateVars.length + 2) route.template.flatten)
        route.bindings = .error range := by
    rw [hgood.exists_misfit_iff hselect]
    rintro ⟨k, hrest, _, hshort⟩
    exact lt_asymm hshort (htemplate.length_sampleSegments_of_rest fresh hrest)
  have hselect' := (hgood.select?_eq route.method path).trans hselect
  obtain ⟨values, hmatch⟩ := hgood.lookup_of_captures hselect' hfits
  exact ⟨path, values, hslash, hmatch⟩

end Routes

/-- After every run of registrations, every route whose texts can stand in a
path is the answer to some request, unless a route for the same method, verb and
shape has more variables. -/
theorem exists_path_of_mem_routes {requests : List (Attempt α)}
    {route : Route α} (hmem : route ∈ (run requests).routes)
    (hliterals : ∀ text, .literal text ∈ route.template.flatten →
      '?' ∉ text.toList ∧ '#' ∉ text.toList)
    (hverb : ∀ verb, route.verb = some verb →
      '?' ∉ verb.toList ∧ '#' ∉ verb.toList)
    (hmost : ∀ other ∈ (run requests).routes, other.method = route.method →
      other.verb = route.verb → other.shape = route.shape →
        other.variableCount ≤ route.variableCount) :
    ∃ path values, path.toList.head? = some '/' ∧
      (run requests).build.lookup route.method path = .ok ⟨route, values⟩ := by
  have hgood : (run requests).Consistent := consistent_run requests
  exact hgood.exists_match hmem hliterals hverb hmost

theorem exists_path_of_mem_routes_with_late_variable :
    ∃ path values, path.toList.head? = some '/' ∧
      (run [⟨.reject, "GET", "/a/*/**:go", 0⟩, ⟨.reject, "GET", "/*/**:go", 1⟩,
          ⟨.reject, "GET", "/a/**", 2⟩, ⟨.reject, "GET", "/a/**:go", 3⟩,
          ⟨.reject, "GET", "/a/**/{x}:go", 4⟩]).build.lookup "GET" path =
        .ok ⟨⟨"GET", ⟨[.plain (.literal "a"), .plain .rest,
          .variable ⟨⟨["x"]⟩, [.any]⟩], some "go"⟩, 4⟩, values⟩ := by
  have hmem : (⟨"GET", ⟨[.plain (.literal "a"), .plain .rest,
      .variable ⟨⟨["x"]⟩, [.any]⟩], some "go"⟩, 4⟩ : Route Nat) ∈
        (run [⟨.reject, "GET", "/a/*/**:go", 0⟩,
          ⟨.reject, "GET", "/*/**:go", 1⟩, ⟨.reject, "GET", "/a/**", 2⟩,
          ⟨.reject, "GET", "/a/**:go", 3⟩,
          ⟨.reject, "GET", "/a/**/{x}:go", 4⟩]).routes := by
    decide +kernel
  apply exists_path_of_mem_routes hmem
  · intro text hliteral
    have htext : text = "a" := by simpa [Template.flatten] using hliteral
    rw [htext]
    decide
  · intro verb hverb
    have hgo : "go" = verb := Option.some.inj hverb
    rw [← hgo]
    decide
  · decide +kernel

end Builder

/-! ## Routes that no request gets -/

theorem Fits.mem_of_literal {shape : List Element} {segments : List String}
    (hfits : Fits shape segments) {text : String}
    (hmem : .literal text ∈ shape) : text ∈ segments := by
  induction hfits with
  | nil => contradiction
  | literal _ ih =>
      rcases List.mem_cons.mp hmem with heq | hlater
      · obtain rfl := Element.literal.inj heq
        exact List.mem_cons_self
      · exact List.mem_cons_of_mem _ (ih hlater)
  | any _ _ ih =>
      rcases List.mem_cons.mp hmem with heq | hlater
      · contradiction
      · exact List.mem_cons_of_mem _ (ih hlater)
  | rest => simp at hmem

/-- Only `*` can stand behind a `**`, so no literal is cut off. -/
theorem Template.WellFormed.literal_mem_shape {template : Template}
    (hgood : template.WellFormed) {text : String}
    (hmem : .literal text ∈ template.flatten) :
    .literal text ∈ template.shape := by
  rcases hgood.restLast.flatten with ⟨hnone, _⟩ | ⟨front, hfront, hflat⟩
  · have hsame : template.shape = template.flatten :=
      cutAfterRest_of_not_mem hnone
    rw [hsame]
    exact hmem
  · have hflatten : template.flatten = front ++ .rest ::
        List.replicate (lateVariables template.segments).length .any := hflat
    rw [hflatten, List.mem_append, List.mem_cons] at hmem
    rw [shape, hflatten, cutAfterRest_append hfront]
    rcases hmem with hbefore | hrest | hbehind
    · exact List.mem_append_left _ hbefore
    · contradiction
    · exact absurd (List.eq_of_mem_replicate hbehind) (by simp)

namespace Builder

/-- Whatever the table holds besides, a route is an answer only if its texts can
stand in a path. -/
theorem Consistent.isPathText_of_lookup {builder : Builder α}
    (hgood : builder.Consistent) {method path : String} {found : Match α}
    (hlookup : builder.build.lookup method path = .ok found) :
    (∀ text, .literal text ∈ found.route.template.flatten → IsPathText text) ∧
      ∀ verb, found.route.verb = some verb → IsPathText verb := by
  obtain ⟨selection, hselect, hroute, _⟩ := hgood.lookup_eq_ok hlookup
  obtain ⟨hmem, _, htakes, hfits⟩ := RouteList.select?_eq_some hselect
  rw [hroute] at hmem htakes hfits
  obtain ⟨hsegments, hverb⟩ := htakes.isPathText
    fun segment hsegment => isPathText_of_mem_requestSegments hsegment
  refine ⟨?_, hverb⟩
  intro text hliteral
  exact hsegments text
    (hfits.mem_of_literal ((hgood.wellFormed hmem).literal_mem_shape hliteral))

/-- A route that an empty table accepts is the answer to some request exactly if
its literals and its verb can stand in a path: a `?` or a `#` in one of them ends the
part of a path that counts. -/
theorem exists_path_iff_isPathText {request : Attempt α}
    (haccepted : Succeeds (empty.outcome request).2) :
    ∃ route, (run [request]).routes = [route] ∧
      ((∃ path values, (run [request]).build.lookup request.method path =
          .ok ⟨route, values⟩) ↔
        (∀ text, .literal text ∈ route.template.flatten → IsPathText text) ∧
          ∀ verb, route.verb = some verb → IsPathText verb) := by
  have hgood : (run [request]).Consistent := consistent_run [request]
  obtain ⟨route, hroute⟩ : ∃ route, request.route? = some route :=
    Option.ne_none_iff_exists'.mp fun hnone =>
      not_succeeds_of_route?_eq_none hnone haccepted
  have hroutes : (run [request]).routes = [route] := by
    rw [routes_run, List.filterMap_cons_some hroute]
    rfl
  have hmethod : route.method = request.method := by
    rw [(Attempt.parse_of_route? hroute).2.2]
  refine ⟨route, hroutes, ?_⟩
  constructor
  · rintro ⟨path, values, hlookup⟩
    exact hgood.isPathText_of_lookup hlookup
  · intro htexts
    obtain ⟨hliterals, hverb⟩ := htexts
    have hmem : route ∈ (run [request]).routes := by simp [hroutes]
    have hmost : ∀ other ∈ (run [request]).routes, other.method = route.method →
        other.verb = route.verb → other.shape = route.shape →
          other.variableCount ≤ route.variableCount := by
      intro other hother _ _ _
      rw [hroutes, List.mem_singleton] at hother
      rw [hother]
    obtain ⟨path, values, _, hlookup⟩ := hgood.exists_match hmem
      (fun text hliteral => ⟨(hliterals text hliteral).query,
        (hliterals text hliteral).fragment⟩)
      (fun verb hsome => ⟨(hverb verb hsome).query, (hverb verb hsome).fragment⟩)
      hmost
    exact ⟨path, values, hmethod ▸ hlookup⟩

theorem exists_path_iff_isPathText_with_verb :
    Succeeds (empty.outcome
        (⟨.reject, "GET", "/a%3F/{x=b/**}/{y}:go", 0⟩ : Attempt Nat)).2 ∧
      ∃ route path values,
        (run [(⟨.reject, "GET", "/a%3F/{x=b/**}/{y}:go", 0⟩ : Attempt Nat)]).routes =
          [route] ∧
        (run [⟨.reject, "GET", "/a%3F/{x=b/**}/{y}:go", 0⟩]).build.lookup "GET"
          path = .ok ⟨route, values⟩ := by
  have haccepted : Succeeds (empty.outcome
      (⟨.reject, "GET", "/a%3F/{x=b/**}/{y}:go", 0⟩ : Attempt Nat)).2 := by
    decide +kernel
  have hroutes :
      (run [(⟨.reject, "GET", "/a%3F/{x=b/**}/{y}:go", 0⟩ : Attempt Nat)]).routes =
        [⟨"GET", ⟨[.plain (.literal "a%3F"),
          .variable ⟨⟨["x"]⟩, [.literal "b", .rest]⟩,
          .variable ⟨⟨["y"]⟩, [.any]⟩], some "go"⟩, 0⟩] := by
    decide +kernel
  obtain ⟨route, hroute, hiff⟩ := exists_path_iff_isPathText haccepted
  obtain rfl := List.singleton_inj.mp (hroutes.symm.trans hroute)
  have htext (text : String) (hslash : '/' ∉ text.toList)
      (hquery : '?' ∉ text.toList) (hfragment : '#' ∉ text.toList) :
      IsPathText text := ⟨hslash, hquery, hfragment⟩
  have hpath := hiff.mpr ⟨?literals, ?verb⟩
  case literals =>
    intro text hliteral
    have hcases : text = "a%3F" ∨ text = "b" := by
      simpa [Template.flatten] using hliteral
    rcases hcases with rfl | rfl
    · exact htext _ (by decide) (by decide) (by decide)
    · exact htext _ (by decide) (by decide) (by decide)
  case verb =>
    intro verb hverb
    obtain rfl : "go" = verb := Option.some.inj hverb
    exact htext _ (by decide) (by decide) (by decide)
  obtain ⟨path, values, hlookup⟩ := hpath
  exact ⟨haccepted, _, path, values, hroutes, hlookup⟩

/-- A table accepts a literal that no request can hold. -/
theorem not_forall_exists_path :
    ¬ ∀ request : Attempt Nat, Succeeds (empty.outcome request).2 →
      ∃ route path values, (run [request]).routes = [route] ∧
        (run [request]).build.lookup request.method path = .ok ⟨route, values⟩ := by
  intro hall
  obtain ⟨route, path, values, hroute, hlookup⟩ :=
    hall ⟨.reject, "GET", "/a?b", 0⟩ (by decide +kernel)
  have hroutes : (run [(⟨.reject, "GET", "/a?b", 0⟩ : Attempt Nat)]).routes =
      [⟨"GET", ⟨[.plain (.literal "a?b")], none⟩, 0⟩] := by
    decide +kernel
  obtain rfl := List.singleton_inj.mp (hroutes.symm.trans hroute)
  have htexts := (consistent_run _).isPathText_of_lookup hlookup
  have htext : IsPathText "a?b" := htexts.1 "a?b" (by simp [Template.flatten])
  exact htext.query (by decide)

end Builder
end HttpRoutes
