import HttpRoutes.Proofs.Router.Conflict
import HttpRoutes.Proofs.Router.Methods

/-!
# The order of registrations

When no two registrations conflict, their order is of no account.  What a
request is answered with depends on the routes of a table and not on their
order: the selected route beats every other route that fits, so the tie that
the order of registration would break does not occur.

Whether all registrations of a run succeed does not depend on their order
either.  If conflicts are refused, they all succeed exactly when each asks for a
route and no two routes are of one class.
-/

namespace HttpRoutes

variable {α : Type}

namespace Builder

/-! ## Tables with the same routes -/

theorem Consistent.beats_of_choose? {builder : Builder α}
    (hgood : builder.Consistent) {slot : Slot} {segments : List String}
    {selection : Selection α}
    (hchoose : RouteList.choose? slot segments builder.routes =
      some selection) :
    ∀ other ∈ RouteList.fitting slot segments builder.routes,
      other = selection.route ∨ selection.route.Beats other := by
  cases hsearch : builder.trie.search
      (fun node => (node.bound.routesFor slot).head?) segments with
  | none =>
      have hempty := hgood.fitting_eq_nil hsearch
      rw [RouteList.choose?, hempty] at hchoose
      contradiction
  | some index =>
      obtain ⟨route, _, hmem, hbeats⟩ := hgood.beats_of_search hsearch
      have hbest := RouteList.best?_eq_some_of_beats hmem hbeats
      rw [RouteList.choose?, hbest, Option.map_some, Option.some.injEq]
        at hchoose
      subst selection
      exact hbeats

variable {builder builder' : Builder α}

theorem Consistent.choose?_eq_of_same (hgood : builder.Consistent)
    (hsame : ∀ route, route ∈ builder'.routes ↔ route ∈ builder.routes)
    (slot : Slot) (segments : List String) :
    RouteList.choose? slot segments builder'.routes =
      RouteList.choose? slot segments builder.routes := by
  have hfitting (route : Route α) :
      route ∈ RouteList.fitting slot segments builder'.routes ↔
        route ∈ RouteList.fitting slot segments builder.routes := by
    rw [RouteList.mem_fitting_iff, RouteList.mem_fitting_iff, hsame]
  cases hchoose : RouteList.choose? slot segments builder.routes with
  | none =>
      by_contra hsome
      obtain ⟨selection, hselection⟩ := Option.ne_none_iff_exists'.mp hsome
      have hmem := (RouteList.choose?_eq_some hselection).1
      exact RouteList.choose?_ne_none ((hfitting _).mp hmem) hchoose
  | some selection =>
      obtain ⟨hmem, hsegments⟩ := RouteList.choose?_eq_some hchoose
      have hbeats := hgood.beats_of_choose? hchoose
      have hbest := RouteList.best?_eq_some_of_beats
        ((hfitting _).mpr hmem)
        fun other hother => hbeats other ((hfitting other).mp hother)
      rw [RouteList.choose?, hbest, Option.map_some, ← hsegments]

theorem Consistent.select?_eq_of_same (hgood : builder.Consistent)
    (hgood' : builder'.Consistent)
    (hsame : ∀ route, route ∈ builder'.routes ↔ route ∈ builder.routes)
    (method path : String) :
    builder'.build.select? method path = builder.build.select? method path := by
  rw [hgood.select?_eq, hgood'.select?_eq]
  unfold RouteList.select?
  simp only [hgood.choose?_eq_of_same hsame]

theorem Consistent.allowedMethods_eq_of_same (hgood : builder.Consistent)
    (hgood' : builder'.Consistent) (hslots : builder.trie.DistinctSlots)
    (hslots' : builder'.trie.DistinctSlots)
    (hsame : ∀ route, route ∈ builder'.routes ↔ route ∈ builder.routes)
    (path : String) :
    builder'.build.allowedMethods path = builder.build.allowedMethods path := by
  apply Matcher.allowedMethods_eq_of_mem_iff
  intro method
  rw [hgood.mem_allowedMethods_iff hslots,
    hgood'.mem_allowedMethods_iff hslots', hgood.select?_eq_of_same hgood' hsame]

/-! ## Runs in which all registrations succeed -/

/-- What the attempts come to, made in turn. -/
def outcomes (builder : Builder α) : List (Attempt α) → List Registration
  | [] => []
  | request :: requests =>
    (builder.outcome request).2 :: outcomes (builder.attempt request) requests

def Succeeds (registration : Registration) : Prop :=
  registration.error? = none

instance (registration : Registration) : Decidable (Succeeds registration) :=
  inferInstanceAs (Decidable (_ = none))

theorem not_succeeds_of_route?_eq_none {request : Attempt α}
    (hnone : request.route? = none) :
    ¬ Succeeds (builder.outcome request).2 := by
  cases hmethod : isMethodToken request.method with
  | false =>
      rw [outcome_of_not_token hmethod]
      exact Option.some_ne_none _
  | true =>
      cases hparse : Template.parse request.template with
      | error error =>
          rw [outcome_of_parse_error hmethod hparse]
          exact Option.some_ne_none _
      | ok parsed => simp [Attempt.route?, hmethod, hparse] at hnone

theorem Consistent.succeeds_iff (hgood : builder.Consistent)
    {request : Attempt α} (hreject : request.policy = .reject) :
    Succeeds (builder.outcome request).2 ↔
      ∃ route, request.route? = some route ∧
        route.conflictClass ∉ builder.routes.map Route.conflictClass := by
  cases hroute : request.route? with
  | none => simp [not_succeeds_of_route?_eq_none hroute]
  | some route =>
      by_cases hmem : route.conflictClass ∈
          builder.routes.map Route.conflictClass
      · obtain ⟨kept, _, _, heq⟩ := hgood.outcome_of_later hroute hmem
        rw [heq, hreject]
        apply iff_of_false
        · exact Option.some_ne_none _
        · intro hnew
          obtain ⟨other, hother, hnot⟩ := hnew
          obtain rfl := Option.some.inj hother
          exact hnot hmem
      · rw [hgood.outcome_of_first hroute hmem]
        exact iff_of_true rfl ⟨route, rfl, hmem⟩

theorem Consistent.attempt_routes_of_first (hgood : builder.Consistent)
    {request : Attempt α} {route : Route α}
    (hroute : request.route? = some route)
    (hnew : route.conflictClass ∉ builder.routes.map Route.conflictClass) :
    (builder.attempt request).routes = builder.routes ++ [route] := by
  change (builder.outcome request).1.routes = _
  rw [hgood.outcome_of_first hroute hnew]
  rfl

theorem Consistent.nodup_attempt (hgood : builder.Consistent)
    (hdistinct : (builder.routes.map Route.conflictClass).Nodup)
    {request : Attempt α} {route : Route α}
    (hroute : request.route? = some route)
    (hnew : route.conflictClass ∉ builder.routes.map Route.conflictClass) :
    ((builder.attempt request).routes.map Route.conflictClass).Nodup := by
  rw [hgood.attempt_routes_of_first hroute hnew, List.map_append,
    List.map_singleton, ← List.concat_eq_append]
  exact hdistinct.concat hnew

theorem Consistent.forall_succeeds_iff (hgood : builder.Consistent)
    (hdistinct : (builder.routes.map Route.conflictClass).Nodup)
    {requests : List (Attempt α)}
    (hreject : ∀ request ∈ requests, request.policy = .reject) :
    (∀ registration ∈ outcomes builder requests, Succeeds registration) ↔
      (∀ request ∈ requests, request.route? ≠ none) ∧
        ((builder.routes ++ requests.filterMap Attempt.route?).map
          Route.conflictClass).Nodup := by
  induction requests generalizing builder with
  | nil => simpa [outcomes] using hdistinct
  | cons request requests ih =>
      obtain ⟨hrequest, hothers⟩ := List.forall_mem_cons.mp hreject
      have hnext := hgood.attempt request
      rw [outcomes, List.forall_mem_cons, List.forall_mem_cons,
        hgood.succeeds_iff hrequest]
      constructor
      · intro hsucceed
        obtain ⟨⟨route, hroute, hnew⟩, hlater⟩ := hsucceed
        have hclasses := hgood.nodup_attempt hdistinct hroute hnew
        rw [ih hnext hclasses hothers,
          hgood.attempt_routes_of_first hroute hnew, List.append_assoc,
          List.singleton_append, ← List.filterMap_cons_some hroute] at hlater
        exact ⟨⟨by simp [hroute], hlater.1⟩, hlater.2⟩
      · intro hroutes
        obtain ⟨⟨hsome, hlater⟩, hnodup⟩ := hroutes
        obtain ⟨route, hroute⟩ := Option.ne_none_iff_exists'.mp hsome
        have hnew : route.conflictClass ∉
            builder.routes.map Route.conflictClass := by
          intro hmem
          rw [List.filterMap_cons_some hroute, List.map_append, List.map_cons,
            List.nodup_append] at hnodup
          exact hnodup.2.2 _ hmem _ List.mem_cons_self rfl
        have hclasses := hgood.nodup_attempt hdistinct hroute hnew
        rw [ih hnext hclasses hothers,
          hgood.attempt_routes_of_first hroute hnew, List.append_assoc,
          List.singleton_append, ← List.filterMap_cons_some hroute]
        exact ⟨⟨route, hroute, hnew⟩, hlater, hnodup⟩

theorem firstOfClass_eq_self {routes : List (Route α)}
    (hdistinct : (routes.map Route.conflictClass).Nodup) :
    firstOfClass routes = routes := by
  induction routes with
  | nil => rfl
  | cons route routes ih =>
      rw [List.map_cons, List.nodup_cons] at hdistinct
      rw [firstOfClass, ih hdistinct.2]
      congr 1
      rw [List.filter_eq_self]
      intro later hmem
      rw [decide_eq_true_eq]
      intro heq
      exact hdistinct.1 (heq ▸ List.mem_map_of_mem hmem)

/-- If all registrations of a run succeed where conflicts are refused, they
succeed in every order, and the tables give the same answers. -/
theorem lookup_run_perm {requests requests' : List (Attempt α)}
    (hperm : requests'.Perm requests)
    (hreject : ∀ request ∈ requests, request.policy = .reject)
    (hsucceed : ∀ registration ∈ outcomes empty requests,
      Succeeds registration) :
    (∀ registration ∈ outcomes empty requests', Succeeds registration) ∧
      ∀ method path,
        (run requests').build.lookup method path =
            (run requests).build.lookup method path ∧
          (run requests').build.allowedMethods path =
            (run requests).build.allowedMethods path := by
  have hreject' : ∀ request ∈ requests', request.policy = .reject :=
    fun request hmem => hreject request (hperm.mem_iff.mp hmem)
  have hnone : ((empty : Builder α).routes.map Route.conflictClass).Nodup :=
    List.nodup_nil
  obtain ⟨hroutes, hdistinct⟩ :=
    (consistent_empty.forall_succeeds_iff hnone hreject).mp hsucceed
  rw [show (empty : Builder α).routes = [] from rfl, List.nil_append]
    at hdistinct
  have hperm' : (requests'.filterMap Attempt.route?).Perm
      (requests.filterMap Attempt.route?) :=
    hperm.filterMap _
  have hdistinct' : ((requests'.filterMap Attempt.route?).map
      Route.conflictClass).Nodup :=
    (hperm'.map _).nodup_iff.mpr hdistinct
  have hsame (route : Route α) :
      route ∈ (run requests').routes ↔ route ∈ (run requests).routes := by
    rw [routes_run, routes_run, firstOfClass_eq_self hdistinct,
      firstOfClass_eq_self hdistinct']
    exact hperm'.mem_iff
  have hgood : (run requests).Consistent := consistent_run requests
  have hgood' : (run requests').Consistent := consistent_run requests'
  refine ⟨?_, ?_⟩
  · rw [consistent_empty.forall_succeeds_iff hnone hreject']
    exact ⟨fun request hmem => hroutes request (hperm.mem_iff.mp hmem),
      hdistinct'⟩
  · intro method path
    constructor
    · exact Matcher.lookup_eq_of_select?_eq
        (hgood.select?_eq_of_same hgood' hsame method path)
    · exact hgood.allowedMethods_eq_of_same hgood'
        (distinctSlots_run requests) (distinctSlots_run requests') hsame path

theorem lookup_run_perm_with_equal_shapes :
    (∀ registration ∈ outcomes empty
        [⟨.reject, "GET", "/v1/{a}:go", 1⟩, ⟨.reject, "GET", "/v1/*:go", 0⟩],
      Succeeds registration) ∧
    (run [⟨.reject, "GET", "/v1/{a}:go", 1⟩,
        ⟨.reject, "GET", "/v1/*:go", 0⟩]).build.lookup "GET" "/v1/x:go" =
      .ok ⟨⟨"GET", ⟨[.plain (.literal "v1"), .variable ⟨⟨["a"]⟩, [.any]⟩],
        some "go"⟩, 1⟩, [("a", "x")]⟩ := by
  have hreject : ∀ request ∈ ([⟨.reject, "GET", "/v1/*:go", 0⟩,
      ⟨.reject, "GET", "/v1/{a}:go", 1⟩] : List (Attempt Nat)),
        request.policy = .reject := by
    decide
  have hsucceed : ∀ registration ∈ outcomes empty
      ([⟨.reject, "GET", "/v1/*:go", 0⟩, ⟨.reject, "GET", "/v1/{a}:go", 1⟩] :
        List (Attempt Nat)), Succeeds registration := by
    decide +kernel
  obtain ⟨hsucceed', hsame⟩ :=
    lookup_run_perm (List.Perm.swap _ _ []) hreject hsucceed
  refine ⟨hsucceed', (hsame "GET" "/v1/x:go").1.trans ?_⟩
  decide +kernel

end Builder
end HttpRoutes
