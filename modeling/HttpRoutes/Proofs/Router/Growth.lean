import HttpRoutes.Proofs.Router.Conflict
import HttpRoutes.Proofs.Router.Methods

/-!
# One more route

A registration that adds a route touches much that other routes share: nodes of
the trie, the candidates of a slot, and the verbs at which requests are cut.
Still every request either gets what it got before or gets the added route.  In
the plain list of routes this is plain to see: the added route stands last, and
the best of a list is the best of what comes before the last route or that route
itself.  Both tries of a request are such choices, and a request goes on to its
second try only if the first finds nothing.
-/

namespace HttpRoutes

variable {α : Type}

/-- What a request gets from the larger table is what it gets from the smaller
one, or it is the added route. -/
def KeepsOrTakes (added : Route α) (before after : Option (Selection α)) :
    Prop :=
  after = before ∨ ∃ segments, after = some ⟨added, segments⟩

theorem KeepsOrTakes.or {added : Route α}
    {before after before' after' : Option (Selection α)}
    (hfirst : KeepsOrTakes added before after)
    (hsecond : KeepsOrTakes added before' after') :
    KeepsOrTakes added (before.or before') (after.or after') := by
  rcases hfirst with hkept | ⟨segments, htaken⟩
  · subst after
    cases before with
    | none => exact hsecond
    | some selection => exact .inl rfl
  · subst after
    exact .inr ⟨segments, rfl⟩

/-! ## The plain list -/

namespace RouteList

theorem best?_append_singleton (routes : List (Route α)) (added : Route α) :
    best? (routes ++ [added]) = best? routes ∨
      best? (routes ++ [added]) = some added := by
  induction routes with
  | nil => exact .inr rfl
  | cons route routes ih =>
      rw [List.cons_append, best?, best?]
      rcases ih with hkept | htaken
      · rw [hkept]
        exact .inl rfl
      · rw [htaken]
        by_cases hbeats : added.Beats route
        · exact .inr (if_pos hbeats)
        · cases hbest : best? routes with
          | none => exact .inl (if_neg hbeats)
          | some other =>
              -- The added route is no worse than `other`, so neither of them
              -- beats the route in front.
              have hmem : other ∈ routes ++ [added] :=
                List.mem_append_left _ (best?_eq_some hbest).1
              have hworse := (best?_eq_some htaken).2 other hmem
              have hnot : ¬ other.Beats route :=
                fun hother => hbeats (hother.of_not_beats hworse)
              exact .inl ((if_neg hbeats).trans (if_neg hnot).symm)

theorem choose?_append_singleton (slot : Slot) (segments : List String)
    (routes : List (Route α)) (added : Route α) :
    KeepsOrTakes added (choose? slot segments routes)
      (choose? slot segments (routes ++ [added])) := by
  unfold choose? fitting
  rw [List.filter_append]
  by_cases hfits : added.slot = slot ∧ Fits added.shape segments
  · rw [List.filter_cons_of_pos (by simpa using hfits), List.filter_nil]
    rcases best?_append_singleton _ added with hkept | htaken
    · rw [hkept]
      exact .inl rfl
    · rw [htaken]
      exact .inr ⟨segments, rfl⟩
  · rw [List.filter_cons_of_neg (by simpa using hfits), List.filter_nil,
      List.append_nil]
    exact .inl rfl

theorem select?_append_singleton (routes : List (Route α)) (added : Route α)
    (method path : String) :
    KeepsOrTakes added (select? routes method path)
      (select? (routes ++ [added]) method path) := by
  unfold select?
  apply KeepsOrTakes.or
  · cases lastColon? (pathSegments path) with
    | none => exact .inl rfl
    | some split => exact choose?_append_singleton _ _ _ _
  · exact choose?_append_singleton _ _ _ _

end RouteList

/-! ## Listed methods -/

theorem Matcher.allowedMethods_of_at_most_one {table other : Matcher α}
    {path added : String}
    (hkept : ∀ method ∈ table.allowedMethods path,
      method ∈ other.allowedMethods path)
    (hmore : ∀ method ∈ other.allowedMethods path,
      method ∈ table.allowedMethods path ∨ method = added) :
    other.allowedMethods path = table.allowedMethods path ∨
      added ∉ table.allowedMethods path ∧
        (other.allowedMethods path).Perm
          (added :: table.allowedMethods path) := by
  by_cases hsame : added ∈ other.allowedMethods path →
      added ∈ table.allowedMethods path
  · apply Or.inl
    apply allowedMethods_eq_of_mem_iff
    intro method
    constructor
    · intro hmem
      rcases hmore method hmem with hold | hadded
      · exact hold
      · subst method
        exact hsame hmem
    · exact hkept method
  · obtain ⟨hlisted, hnew⟩ := Classical.not_imp.mp hsame
    refine .inr ⟨hnew, ?_⟩
    have hnodup : (added :: table.allowedMethods path).Nodup :=
      List.nodup_cons.mpr ⟨hnew, table.nodup_allowedMethods path⟩
    rw [List.perm_ext_iff_of_nodup (other.nodup_allowedMethods path) hnodup]
    intro method
    rw [List.mem_cons]
    constructor
    · exact fun hmem => (hmore method hmem).symm
    · rintro (rfl | hold)
      · exact hlisted
      · exact hkept method hold

/-! ## Registrations -/

/-- What a request is answered with, once a route is selected for it. -/
def Selection.answer (selection : Selection α) :
    Except LookupError (Match α) :=
  match captures selection.segments selection.route.bindings with
  | .error range => .error (.misfit range)
  | .ok values => .ok ⟨selection.route, values⟩

/-- What a larger table makes of the requests for a path, if `added` is the only
route that the smaller one lacks. -/
structure Matcher.GrowsBy (added : Route α) (table later : Matcher α)
    (path : String) : Prop where
  /-- A request keeps its answer or gets the added route, which it can get only
  if that route is for its method, its verb and its segments. -/
  keeps_or_takes :
    ∀ method,
      later.select? method path = table.select? method path ∧
        later.lookup method path = table.lookup method path ∨
      ∃ selection, later.select? method path = some selection ∧
        later.lookup method path = selection.answer ∧
        selection.route = added ∧ added.method = method ∧
        TakesVerb added.verb (requestSegments path) selection.segments ∧
        Fits added.shape selection.segments
  finds : ∀ method, table.Finds method path → later.Finds method path
  /-- A request that is found can be too short for the variables of its route, but
  not if that route has no late variables. -/
  matches_of_lateVars :
    added.template.lateVars = [] → ∀ method found,
      table.lookup method path = .ok found →
        ∃ found', later.lookup method path = .ok found'
  other_methods :
    ∀ method, method ≠ added.method →
      later.lookup method path = table.lookup method path
  allowedMethods :
    later.allowedMethods path = table.allowedMethods path ∨
      added.method ∉ table.allowedMethods path ∧
        (later.allowedMethods path).Perm
          (added.method :: table.allowedMethods path)

namespace Builder

theorem Consistent.lookup_of_select? {builder : Builder α}
    (hgood : builder.Consistent) {method path : String}
    {selection : Selection α}
    (hselect : builder.build.select? method path = some selection) :
    builder.build.lookup method path = selection.answer := by
  rw [hgood.lookup_eq, ← hgood.select?_eq, hselect]
  rfl

theorem Consistent.lookup_of_captures {builder : Builder α}
    (hgood : builder.Consistent) {method path : String}
    {selection : Selection α}
    (hselect : builder.build.select? method path = some selection)
    (hfits : ¬ ∃ range, captures selection.segments selection.route.bindings =
      .error range) :
    ∃ values, builder.build.lookup method path =
      .ok ⟨selection.route, values⟩ := by
  rw [hgood.lookup_of_select? hselect, Selection.answer]
  cases hcaptures : captures selection.segments selection.route.bindings with
  | error range => exact absurd ⟨range, hcaptures⟩ hfits
  | ok values => exact ⟨values, rfl⟩

theorem Consistent.lookup_of_lateVars {builder : Builder α}
    (hgood : builder.Consistent) {method path : String}
    {selection : Selection α}
    (hselect : builder.build.select? method path = some selection)
    (hlate : selection.route.template.lateVars = []) :
    ∃ found, builder.build.lookup method path = .ok found := by
  have hfits : ¬ ∃ range, captures selection.segments
      selection.route.bindings = .error range := by
    rw [hgood.exists_misfit_iff (hgood.select?_eq method path ▸ hselect), hlate]
    simp
  obtain ⟨values, hmatch⟩ := hgood.lookup_of_captures hselect hfits
  exact ⟨_, hmatch⟩

theorem exists_route_of_added {builder later : Builder α} {request : Attempt α}
    {name pattern : String} {varCount index : Nat}
    (hadded : builder.outcome request =
      (later, .added name pattern varCount index)) :
    ∃ added, request.route? = some added ∧
      later.routes = builder.routes ++ [added] := by
  unfold outcome at hadded
  rcases register_cases request.policy request.method request.template
    request.operation builder with ⟨_, heq⟩ | ⟨_, _, _, heq⟩ |
      ⟨hmethod, parsed, hparse, ⟨_, heq⟩ | ⟨_, _, heq⟩⟩
  · simp [heq] at hadded
  · simp [heq] at hadded
  · rw [heq, Prod.mk.injEq] at hadded
    have hroute : request.route? =
        some ⟨request.method, parsed, request.operation⟩ := by
      rw [Attempt.route?, if_pos hmethod, hparse]
    exact ⟨_, hroute, hadded.1 ▸ rfl⟩
  · rw [heq] at hadded
    cases hpolicy : request.policy <;> simp [hpolicy] at hadded

section Append

variable {builder later : Builder α} {added : Route α}
  (hgood : builder.Consistent) (hgood' : later.Consistent)
  (hroutes : later.routes = builder.routes ++ [added])

include hgood hgood' hroutes

theorem Consistent.select?_of_routes_append (method path : String) :
    later.build.select? method path = builder.build.select? method path ∨
      ∃ selection, later.build.select? method path = some selection ∧
        selection.route = added ∧ added.method = method ∧
        TakesVerb added.verb (requestSegments path) selection.segments ∧
        Fits added.shape selection.segments := by
  rw [hgood.select?_eq, hgood'.select?_eq, hroutes]
  rcases RouteList.select?_append_singleton builder.routes added method path with
    hkept | ⟨segments, htaken⟩
  · exact .inl hkept
  · obtain ⟨_, hmethod, htakes, hfits⟩ := RouteList.select?_eq_some htaken
    exact .inr ⟨⟨added, segments⟩, htaken, rfl, hmethod, htakes, hfits⟩

theorem Consistent.select?_ne_none_of_routes_append {method path : String}
    (hfound : builder.build.select? method path ≠ none) :
    later.build.select? method path ≠ none := by
  rcases hgood.select?_of_routes_append hgood' hroutes method path with
    hkept | ⟨selection, htaken, _⟩
  · rw [hkept]
    exact hfound
  · rw [htaken]
    exact Option.some_ne_none selection

theorem Consistent.select?_eq_of_ne_method {method : String}
    (hother : method ≠ added.method) (path : String) :
    later.build.select? method path = builder.build.select? method path := by
  rcases hgood.select?_of_routes_append hgood' hroutes method path with
    hkept | ⟨_, _, _, hmethod, _⟩
  · exact hkept
  · exact absurd hmethod.symm hother

theorem Consistent.allowedMethods_of_routes_append
    (hslots : builder.trie.DistinctSlots) (hslots' : later.trie.DistinctSlots)
    (path : String) :
    later.build.allowedMethods path = builder.build.allowedMethods path ∨
      added.method ∉ builder.build.allowedMethods path ∧
        (later.build.allowedMethods path).Perm
          (added.method :: builder.build.allowedMethods path) := by
  apply Matcher.allowedMethods_of_at_most_one
  · intro method hmem
    rw [hgood.mem_allowedMethods_iff hslots] at hmem
    rw [hgood'.mem_allowedMethods_iff hslots']
    exact hgood.select?_ne_none_of_routes_append hgood' hroutes hmem
  · intro method hmem
    rw [hgood'.mem_allowedMethods_iff hslots'] at hmem
    rw [hgood.mem_allowedMethods_iff hslots]
    by_cases hmethod : method = added.method
    · exact .inr hmethod
    · rw [hgood.select?_eq_of_ne_method hgood' hroutes hmethod] at hmem
      exact .inl hmem

theorem Consistent.growsBy (hslots : builder.trie.DistinctSlots)
    (hslots' : later.trie.DistinctSlots) (path : String) :
    builder.build.GrowsBy added later.build path := by
  constructor
  · intro method
    rcases hgood.select?_of_routes_append hgood' hroutes method path with
      hkept | ⟨selection, htaken, hfits⟩
    · exact .inl ⟨hkept, Matcher.lookup_eq_of_select?_eq hkept⟩
    · have hanswer := hgood'.lookup_of_select? htaken
      exact .inr ⟨selection, htaken, hanswer, hfits⟩
  · intro method hfinds
    rw [hgood.finds_iff] at hfinds
    rw [hgood'.finds_iff]
    exact hgood.select?_ne_none_of_routes_append hgood' hroutes hfinds
  · intro hlate method found hmatch
    rcases hgood.select?_of_routes_append hgood' hroutes method path with
      hkept | ⟨selection, htaken, hroute, _⟩
    · rw [Matcher.lookup_eq_of_select?_eq hkept]
      exact ⟨found, hmatch⟩
    · exact hgood'.lookup_of_lateVars htaken (hroute ▸ hlate)
  · intro method hother
    apply Matcher.lookup_eq_of_select?_eq
    exact hgood.select?_eq_of_ne_method hgood' hroutes hother path
  · exact hgood.allowedMethods_of_routes_append hgood' hroutes hslots hslots'
      path

end Append

/-- When a registration adds a route, every request keeps its answer or gets the
added route.  What was found is still found, requests for other methods keep
their answers, and a path takes at most the added route's method besides. -/
theorem growsBy_of_added {requests : List (Attempt α)} {request : Attempt α}
    {later : Builder α} {name pattern : String} {varCount index : Nat}
    (hadded : (run requests).outcome request =
      (later, .added name pattern varCount index)) :
    ∃ added, request.route? = some added ∧
      ∀ path, (run requests).build.GrowsBy added later.build path := by
  have hlater : later = run (requests ++ [request]) := by
    rw [run_append_singleton]
    exact (congrArg Prod.fst hadded).symm
  obtain ⟨added, hroute, hroutes⟩ := exists_route_of_added hadded
  have hgood : (run requests).Consistent := consistent_run requests
  have hgood' : later.Consistent := hlater ▸ consistent_run _
  have hslots' : later.trie.DistinctSlots := hlater ▸ distinctSlots_run _
  exact ⟨added, hroute,
    hgood.growsBy hgood' hroutes (distinctSlots_run requests) hslots'⟩

theorem growsBy_of_added_with_new_verb :
    (∀ path,
      (run [⟨.reject, "GET", "/v1/{a}", 0⟩,
          ⟨.reject, "POST", "/v1/{a}:go", 1⟩]).build.lookup "GET" path =
        (run [⟨.reject, "GET", "/v1/{a}", 0⟩]).build.lookup "GET" path) ∧
    (run [⟨.reject, "GET", "/v1/{a}", 0⟩]).build.lookup "GET" "/v1/x:go" =
      .ok ⟨⟨"GET", ⟨[.plain (.literal "v1"), .variable ⟨⟨["a"]⟩, [.any]⟩],
        none⟩, 0⟩, [("a", "x:go")]⟩ := by
  have hadded : (run [(⟨.reject, "GET", "/v1/{a}", 0⟩ : Attempt Nat)]).outcome
      ⟨.reject, "POST", "/v1/{a}:go", 1⟩ =
        (run [⟨.reject, "GET", "/v1/{a}", 0⟩,
          ⟨.reject, "POST", "/v1/{a}:go", 1⟩],
        .added "POST" "/v1/{a}:go" 1 1) :=
    Prod.ext rfl (by decide +kernel)
  obtain ⟨added, hroute, hpath⟩ := growsBy_of_added hadded
  have hmethod : added.method = "POST" := by
    have heq := (Attempt.parse_of_route? hroute).2.2
    rw [heq]
  refine ⟨?_, by decide +kernel⟩
  intro path
  apply (hpath path).other_methods
  rw [hmethod]
  decide

end Builder
end HttpRoutes
