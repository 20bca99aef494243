import HttpRoutes.Proofs.Router.Growth
import Mathlib.Data.Set.Lattice
import Mathlib.Order.CompletePartialOrder

/-!
# More specific routes

The router compares shapes element by element and knows nothing about how
specific a route is.  A route is more specific than another if it stands for
fewer requests, that is, if the segments it takes are a proper part of those the
other takes.

Among shapes that fit the same segments the two notions agree where both apply.
Two such shapes can only differ at first where one has a literal or ends and the
other has a wildcard, or where one has `*` and the other `**`.  A shape whose
segments all fit another has the narrower element there: the wider one would let
in segments that the other does not take.
-/

namespace HttpRoutes

variable {α : Type}

/-- The lists of segments that a shape stands for. -/
def language (shape : List Element) : Set (List String) :=
  {segments | Fits shape segments}

def Route.language (route : Route α) : Set (List String) :=
  HttpRoutes.language route.shape

@[simp] theorem mem_language_iff {shape : List Element}
    {segments : List String} :
    segments ∈ language shape ↔ Fits shape segments := Iff.rfl

@[simp] theorem Route.mem_language_iff {route : Route α}
    {segments : List String} :
    segments ∈ route.language ↔ Fits route.shape segments := Iff.rfl

/-- The shape is the same as another one or comes before it in rank. -/
def Precedes (shape other : List Element) : Prop :=
  shape = other ∨ shapeRank shape < shapeRank other

theorem precedes_nil (other : List Element) : Precedes [] other := by
  cases other with
  | nil => exact .inl rfl
  | cons element other => exact .inr (List.nil_lt_cons _ _)

theorem Precedes.cons {shape other : List Element}
    (hprecedes : Precedes shape other) (element : Element) :
    Precedes (element :: shape) (element :: other) := by
  rcases hprecedes with heq | hlt
  · exact .inl (congrArg _ heq)
  · exact .inr (shapeRank_cons_lt_cons_iff.mpr hlt)

theorem precedes_of_rank_lt {element element' : Element}
    (shape other : List Element) (hrank : element.rank < element'.rank) :
    Precedes (element :: shape) (element' :: other) :=
  .inr (shapeRank_cons_lt shape other hrank)

/-! ## Inclusion and rank -/

theorem language_subset_of_cons {element : Element}
    {shape other : List Element} (hrest : element ≠ .rest)
    (hsubset : language (element :: shape) ⊆ language (element :: other)) :
    language shape ⊆ language other := by
  intro segments hfits
  cases element with
  | literal text =>
      have hother : Fits (.literal text :: other) (text :: segments) :=
        hsubset (.literal hfits)
      exact (fits_literal_cons_iff.mp hother).2
  | any =>
      have hother : Fits (.any :: other) ("a" :: segments) :=
        hsubset (.any (by simp) hfits)
      exact (fits_any_cons_iff.mp hother).2
  | rest => contradiction

theorem not_language_any_subset {text : String} {shape other : List Element}
    {segments : List String} (hfits : Fits shape segments) :
    ¬ language (.any :: shape) ⊆ language (.literal text :: other) := by
  intro hsubset
  have hnonempty : text ++ "a" ≠ "" := by simp
  have hother : Fits (.literal text :: other) ((text ++ "a") :: segments) :=
    hsubset (.any hnonempty hfits)
  have hsame : text = text ++ "a" := (fits_literal_cons_iff.mp hother).1
  have hlength := congrArg String.length hsame
  simp at hlength

theorem eq_rest_of_language_subset {other : List Element}
    (hsubset : language [.rest] ⊆ language other) : other = [.rest] := by
  have hnone : Fits other [] := hsubset .rest
  have hone : Fits other ["a"] := hsubset .rest
  cases hnone with
  | nil => simp at hone
  | rest => rfl

/-- Of two shapes that fit the same segments, one whose segments all fit the
other comes first. -/
theorem Fits.precedes {shape other : List Element} {segments : List String}
    (hfits : Fits shape segments) (hfits' : Fits other segments)
    (hsubset : language shape ⊆ language other) : Precedes shape other := by
  -- The shapes agree up to the element that decides, so both are followed along
  -- the segments that they share.
  induction hfits generalizing other with
  | nil => exact precedes_nil other
  | @literal text shape segments hfits ih =>
      cases hfits' with
      | literal hfits' =>
          have htail := language_subset_of_cons (by simp) hsubset
          exact (ih hfits' htail).cons _
      | any _ _ => exact precedes_of_rank_lt _ _ (by simp [Element.rank])
      | rest => exact precedes_of_rank_lt _ _ (by simp [Element.rank])
  | @any segment shape segments _ hfits ih =>
      cases hfits' with
      | literal _ => exact absurd hsubset (not_language_any_subset hfits)
      | any _ hfits' =>
          have htail := language_subset_of_cons (by simp) hsubset
          exact (ih hfits' htail).cons _
      | rest => exact precedes_of_rank_lt _ _ (by simp [Element.rank])
  | rest => exact .inl (eq_rest_of_language_subset hsubset).symm

/-! ## The selected route -/

theorem RouteList.choose?_of_select? {routes : List (Route α)}
    {method path : String} {selection : Selection α}
    (hselect : select? routes method path = some selection) :
    choose? selection.route.slot selection.segments routes =
      some selection := by
  rw [select?, Option.or_eq_some_iff] at hselect
  rcases hselect with hverb | ⟨_, hplain⟩
  · obtain ⟨⟨stripped, verb⟩, _, hchoose⟩ := Option.bind_eq_some_iff.mp hverb
    obtain ⟨hmem, hsegments⟩ := choose?_eq_some hchoose
    rw [(mem_fitting_iff.mp hmem).2.1, hsegments]
    exact hchoose
  · obtain ⟨hmem, hsegments⟩ := choose?_eq_some hplain
    rw [(mem_fitting_iff.mp hmem).2.1, hsegments]
    exact hplain

theorem RouteList.not_beats_of_select? {routes : List (Route α)}
    {method path : String} {selection : Selection α}
    (hselect : select? routes method path = some selection)
    {route : Route α} (hmem : route ∈ routes)
    (hslot : route.slot = selection.route.slot)
    (hfits : Fits route.shape selection.segments) :
    ¬ route.Beats selection.route := by
  have hchoose := choose?_of_select? hselect
  obtain ⟨best, hbest, hselection⟩ := Option.map_eq_some_iff.mp hchoose
  have hroute : best = selection.route := congrArg Selection.route hselection
  rw [← hroute]
  apply (best?_eq_some hbest).2
  exact mem_fitting_iff.mpr ⟨hmem, hslot, hfits⟩

namespace Builder

/-- After every run of registrations, the route that a request gets is as
specific as any: no route for the same method and verb that takes the same
segments stands for a proper part of its requests. -/
theorem not_language_ssubset_of_select? {requests : List (Attempt α)}
    {method path : String} {selection : Selection α}
    (hselect : (run requests).build.select? method path = some selection) :
    (run requests).build.lookup method path = selection.answer ∧
      selection.segments ∈ selection.route.language ∧
      ∀ route ∈ (run requests).routes,
        route.method = selection.route.method →
        route.verb = selection.route.verb →
        selection.segments ∈ route.language →
          ¬ route.language ⊂ selection.route.language := by
  have hgood : (run requests).Consistent := consistent_run requests
  refine ⟨hgood.lookup_of_select? hselect, ?_⟩
  rw [hgood.select?_eq] at hselect
  have hfits := (RouteList.select?_eq_some hselect).2.2.2
  refine ⟨hfits, ?_⟩
  intro route hmem hmethod hverb hfits' hsubset
  have hslot : route.slot = selection.route.slot := by
    rw [Route.slot, Route.slot, hmethod, hverb]
  have hnot := RouteList.not_beats_of_select? hselect hmem hslot hfits'
  have hnarrower : language route.shape ⊆ language selection.route.shape :=
    hsubset.subset
  rcases Fits.precedes hfits' hfits hnarrower with heq | hlt
  · have hsame : route.language = selection.route.language :=
      congrArg HttpRoutes.language heq
    exact hsubset.ne hsame
  · exact hnot (.inl hlt)

theorem not_language_ssubset_of_select?_with_overlap :
    (run [⟨.reject, "GET", "/**", 0⟩, ⟨.reject, "GET", "/*/{b}", 1⟩,
        ⟨.reject, "GET", "/v1/**", 2⟩]).build.select? "GET" "/v1/x" =
      some ⟨⟨"GET", ⟨[.plain (.literal "v1"), .plain .rest], none⟩, 2⟩,
        ["v1", "x"]⟩ ∧
    ∀ route ∈ (run [⟨.reject, "GET", "/**", 0⟩, ⟨.reject, "GET", "/*/{b}", 1⟩,
        ⟨.reject, "GET", "/v1/**", 2⟩]).routes,
      route.method = "GET" → route.verb = none →
        ["v1", "x"] ∈ route.language →
          ¬ route.language ⊂ language [.literal "v1", .rest] := by
  have hselect : (run [⟨.reject, "GET", "/**", 0⟩,
      ⟨.reject, "GET", "/*/{b}", 1⟩,
      ⟨.reject, "GET", "/v1/**", 2⟩]).build.select? "GET" "/v1/x" =
        some ⟨⟨"GET", ⟨[.plain (.literal "v1"), .plain .rest], none⟩, 2⟩,
          ["v1", "x"]⟩ := by
    decide +kernel
  exact ⟨hselect, (not_language_ssubset_of_select? hselect).2.2⟩

end Builder
end HttpRoutes
