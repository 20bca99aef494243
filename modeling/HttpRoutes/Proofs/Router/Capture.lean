import HttpRoutes.Proofs.Router.Cut
import HttpRoutes.Proofs.Router.Selection

/-!
# What a request is answered with

The search selects a route by its shape alone, and the values of the variables
are read off the request afterwards.  Here both are put together for every
table that a run of registrations builds.  If the selected route has no late
variable, the request is an instance of its template and the values are the
texts put in for the variables.  If it has some, the values are missing exactly
when the request is too short for them.
-/

namespace HttpRoutes

variable {α : Type}

theorem Template.IsText.colon_not_mem {text : String} (htext : IsText text) :
    ':' ∉ text.toList :=
  htext.not_mem (by decide)

theorem Builder.Consistent.wellFormed {builder : Builder α}
    (hgood : builder.Consistent) {route : Route α}
    (hmem : route ∈ builder.routes) : route.template.WellFormed := by
  obtain ⟨text, hparse⟩ := hgood.parsed route hmem
  exact Template.parse_wellFormed hparse

namespace Builder

theorem Consistent.lookup_eq_ok {builder : Builder α}
    (hgood : builder.Consistent) {method path : String} {found : Match α}
    (hlookup : builder.build.lookup method path = .ok found) :
    ∃ selection, RouteList.select? builder.routes method path = some selection ∧
      selection.route = found.route ∧
      captures selection.segments found.route.bindings = .ok found.values := by
  rw [hgood.lookup_eq] at hlookup
  cases hselect : RouteList.select? builder.routes method path with
  | none => simp [hselect] at hlookup
  | some selection =>
      simp only [hselect] at hlookup
      refine ⟨selection, rfl, ?_⟩
      cases hcaptures : captures selection.segments selection.route.bindings with
      | error range => simp [hcaptures] at hlookup
      | ok values =>
          simp only [hcaptures, Except.ok.injEq] at hlookup
          subst hlookup
          exact ⟨rfl, hcaptures⟩

theorem Consistent.lookup_ne_notFound {builder : Builder α}
    (hgood : builder.Consistent) {method path : String}
    (hselect : RouteList.select? builder.routes method path ≠ none)
    (name text : String) :
    builder.build.lookup method path ≠ .error (.notFound name text) := by
  obtain ⟨selection, hsome⟩ := Option.ne_none_iff_exists'.mp hselect
  rw [hgood.lookup_eq, hsome]
  cases hcaptures : captures selection.segments selection.route.bindings <;>
    simp [hcaptures]

theorem Consistent.lookup_eq_misfit_iff {builder : Builder α}
    (hgood : builder.Consistent) {method path : String} {range : Misfit} :
    builder.build.lookup method path = .error (.misfit range) ↔
      ∃ selection,
        RouteList.select? builder.routes method path = some selection ∧
        captures selection.segments selection.route.bindings = .error range := by
  rw [hgood.lookup_eq]
  cases hselect : RouteList.select? builder.routes method path with
  | none => simp
  | some selection =>
      cases hcaptures : captures selection.segments selection.route.bindings <;>
        simp [hcaptures]

/-- The request is too short for the variables of the selected route exactly if
it ends before the last late variable. -/
theorem Consistent.exists_misfit_iff {builder : Builder α}
    (hgood : builder.Consistent) {method path : String}
    {selection : Selection α}
    (hselect : RouteList.select? builder.routes method path = some selection) :
    (∃ range, captures selection.segments selection.route.bindings =
        .error range) ↔
      ∃ k, selection.route.template.flatten[k]? = some .rest ∧
        1 ≤ selection.route.template.lateVars.length ∧
        selection.segments.length <
          k + 1 + selection.route.template.lateVars.length := by
  obtain ⟨hmem, _, _, hfits⟩ := RouteList.select?_eq_some hselect
  have hlast := (hgood.wellFormed hmem).restLast
  have hmisfit := hlast.exists_misfit_iff 0 hfits
  rw [Nat.zero_add] at hmisfit
  rw [captures_eq_error_iff]
  exact hmisfit

theorem Consistent.forall_fitsIn {builder : Builder α}
    (hgood : builder.Consistent)
    (hlate : ∀ route ∈ builder.routes, route.template.lateVars = [])
    {method path : String} {selection : Selection α}
    (hselect : RouteList.select? builder.routes method path = some selection) :
    ∀ binding ∈ selection.route.bindings,
      binding.FitsIn selection.segments.length := by
  have hmem := (RouteList.select?_eq_some hselect).1
  have hnone : ¬ ∃ range, captures selection.segments
      selection.route.bindings = .error range := by
    rw [hgood.exists_misfit_iff hselect, hlate _ hmem]
    simp
  intro binding hbinding
  by_contra hnot
  exact hnone (captures_eq_error_iff.mpr ⟨binding, hbinding, hnot⟩)

/-- After every run of registrations, a match without late variables is an
instance of its template: the request can be cut into one block for each
segment, in one way only, and the values are the blocks of the variables.
Conversely, a request that can be cut for some route of its method is found. -/
theorem lookup_run_cut (requests : List (Attempt α)) (method path : String) :
    (∀ found, (run requests).build.lookup method path = .ok found →
      found.route.template.lateVars = [] →
        found.route ∈ (run requests).routes ∧ found.route.method = method ∧
        ∃ segments blocks,
          TakesVerb found.route.verb (requestSegments path) segments ∧
          Cut found.route.template.segments segments blocks ∧
          (∀ segments' blocks',
            TakesVerb found.route.verb (requestSegments path) segments' →
            Cut found.route.template.segments segments' blocks' →
              blocks' = blocks) ∧
          found.values = blockValues found.route.template.segments blocks ∧
          (found.values.map Prod.fst).Nodup) ∧
    (∀ route ∈ (run requests).routes, route.method = method →
      ∀ segments blocks,
        TakesVerb route.verb (requestSegments path) segments →
        Cut route.template.segments segments blocks →
          ∀ name text, (run requests).build.lookup method path ≠
            .error (.notFound name text)) := by
  have hgood : (run requests).Consistent := consistent_run requests
  constructor
  · intro found hlookup hlate
    obtain ⟨selection, hselect, hroute, hcaptures⟩ :=
      hgood.lookup_eq_ok hlookup
    obtain ⟨hmem, hmethod, htakes, hfits⟩ :=
      RouteList.select?_eq_some hselect
    rw [hroute] at hmem hmethod htakes hfits
    have htemplate := hgood.wellFormed hmem
    obtain ⟨blocks, hcut⟩ := htemplate.restLast.exists_cut hlate hfits
    have hvalues : found.values =
        blockValues found.route.template.segments blocks := by
      have hblocks := hcut.captures_eq hlate []
      exact Except.ok.inj (hcaptures.symm.trans hblocks)
    refine ⟨hmem, hmethod, selection.segments, blocks, htakes, hcut, ?_,
      hvalues, ?_⟩
    · intro segments' blocks' htakes' hcut'
      rw [htakes'.unique htakes] at hcut'
      exact hcut.unique hcut'
    · rw [hvalues, hcut.map_fst_blockValues]
      exact htemplate.distinct_text
  · rintro route hmem rfl segments blocks htakes hcut
    have htemplate := hgood.wellFormed hmem
    have hcolon : ∀ verb, route.verb = some verb → ':' ∉ verb.toList :=
      fun verb hverb => (htemplate.verb verb hverb).colon_not_mem
    exact hgood.lookup_ne_notFound
      (RouteList.select?_ne_none hmem hcolon htakes
        (hcut.fits htemplate.restLast))

theorem lookup_run_cut_with_verb :
    (∃ found, (run [⟨.reject, "GET", "/v1/{a=x/*}/{b=**}:go", ()⟩]).build.lookup
        "GET" "/v1/x/y/p/q:go?z" = .ok found ∧
      found.values = [("a", "x/y"), ("b", "p/q")] ∧
      ∃ segments blocks,
        TakesVerb (some "go") ["v1", "x", "y", "p", "q:go"] segments ∧
        Cut found.route.template.segments segments blocks ∧
        found.values = blockValues found.route.template.segments blocks) ∧
    ∀ name text, (run [⟨.reject, "GET", "/v1/{a=x/*}/{b=**}:go", ()⟩]).build.lookup
        "GET" "/v1/x/y/p/q:go?z" ≠ .error (.notFound name text) := by
  have hcut := lookup_run_cut [⟨.reject, "GET", "/v1/{a=x/*}/{b=**}:go", ()⟩]
    "GET" "/v1/x/y/p/q:go?z"
  have hlookup : (run [⟨.reject, "GET", "/v1/{a=x/*}/{b=**}:go", ()⟩]).build.lookup
      "GET" "/v1/x/y/p/q:go?z" = .ok ⟨⟨"GET", ⟨[.plain (.literal "v1"),
        .variable ⟨⟨["a"]⟩, [.literal "x", .any]⟩,
        .variable ⟨⟨["b"]⟩, [.rest]⟩], some "go"⟩, ()⟩,
          [("a", "x/y"), ("b", "p/q")]⟩ := by
    decide +kernel
  have hsegments : requestSegments "/v1/x/y/p/q:go?z" =
      ["v1", "x", "y", "p", "q:go"] := by
    decide +kernel
  rw [hsegments] at hcut
  obtain ⟨hmem, hmethod, segments, blocks, htakes, hblocks, _, hvalues, _⟩ :=
    hcut.1 _ hlookup rfl
  exact ⟨⟨_, hlookup, rfl, segments, blocks, htakes, hblocks, hvalues⟩,
    hcut.2 _ hmem hmethod segments blocks htakes hblocks⟩

/-- After every run of registrations, capturing goes out of range exactly if
the selected route has late variables and the request ends before the last of
them.  In a table without late variables all ranges fit. -/
theorem lookup_run_misfit_iff (requests : List (Attempt α))
    (method path : String) :
    ((∃ range, (run requests).build.lookup method path =
        .error (.misfit range)) ↔
      ∃ selection k,
        (run requests).build.select? method path = some selection ∧
        selection.route.template.flatten[k]? = some .rest ∧
        1 ≤ selection.route.template.lateVars.length ∧
        selection.segments.length <
          k + 1 + selection.route.template.lateVars.length) ∧
    (∀ selection,
      (run requests).build.select? method path = some selection →
        TakesVerb selection.route.verb (requestSegments path)
          selection.segments) ∧
    ((∀ route ∈ (run requests).routes, route.template.lateVars = []) →
      (∀ range, (run requests).build.lookup method path ≠
        .error (.misfit range)) ∧
      ∀ selection,
        (run requests).build.select? method path = some selection →
          ∀ binding ∈ selection.route.bindings,
            binding.FitsIn selection.segments.length) := by
  have hgood : (run requests).Consistent := consistent_run requests
  simp only [hgood.select?_eq, ne_eq, hgood.lookup_eq_misfit_iff]
  refine ⟨?_, ?_, ?_⟩
  · constructor
    · rintro ⟨range, selection, hselect, herror⟩
      obtain ⟨k, hk⟩ :=
        (hgood.exists_misfit_iff hselect).mp ⟨range, herror⟩
      exact ⟨selection, k, hselect, hk⟩
    · rintro ⟨selection, k, hselect, hk⟩
      obtain ⟨range, herror⟩ :=
        (hgood.exists_misfit_iff hselect).mpr ⟨k, hk⟩
      exact ⟨range, selection, hselect, herror⟩
  · intro selection hselect
    exact (RouteList.select?_eq_some hselect).2.2.1
  · intro hlate
    constructor
    · rintro range ⟨selection, hselect, herror⟩
      obtain ⟨binding, hmem, hnot⟩ :=
        captures_eq_error_iff.mp ⟨range, herror⟩
      exact hnot (hgood.forall_fitsIn hlate hselect binding hmem)
    · exact fun selection hselect => hgood.forall_fitsIn hlate hselect

-- The shape of `/**/{x}` fits a request without segments, the variable does not.
example : (run [⟨.reject, "GET", "/**/{x}", ()⟩]).build.lookup "GET" "/" =
    .error (.misfit ⟨"x", 1, 2, 0⟩) := by
  decide +kernel

theorem lookup_run_misfit_iff_with_empty_rest :
    (∀ range, (run [⟨.reject, "GET", "/v1/{a=**}:go", ()⟩]).build.lookup
      "GET" "/v1:go" ≠ .error (.misfit range)) ∧
    ∃ selection, (run [⟨.reject, "GET", "/v1/{a=**}:go", ()⟩]).build.select?
        "GET" "/v1:go" = some selection ∧
      selection.segments = ["v1"] ∧
      ∀ binding ∈ selection.route.bindings, binding.FitsIn 1 := by
  have hlate : ∀ route ∈ (run [⟨.reject, "GET", "/v1/{a=**}:go", ()⟩]).routes,
      route.template.lateVars = [] := by
    decide +kernel
  have hselect : (run [⟨.reject, "GET", "/v1/{a=**}:go", ()⟩]).build.select?
      "GET" "/v1:go" = some ⟨⟨"GET", ⟨[.plain (.literal "v1"),
        .variable ⟨⟨["a"]⟩, [.rest]⟩], some "go"⟩, ()⟩, ["v1"]⟩ := by
    decide +kernel
  obtain ⟨hnever, hfits⟩ := (lookup_run_misfit_iff
    [⟨.reject, "GET", "/v1/{a=**}:go", ()⟩] "GET" "/v1:go").2.2 hlate
  exact ⟨hnever, _, hselect, rfl, hfits _ hselect⟩

end Builder
end HttpRoutes
