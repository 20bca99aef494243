import HttpRoutes.Proofs.Router.Registration
import HttpRoutes.Proofs.Template.Canonical
import Mathlib.Data.List.Induction

/-!
# Which registrations are kept

Routes fall into classes: those of one class have the same method and verb, the
same shape and as many variables, so that no request could tell them apart.  A
run of registrations keeps the first route of every class, in the order of the
attempts, whatever the duplicate policies are; every other attempt leaves the
builder as it was.

A builder looks for conflicts twice, by canonical text and at the node of the
shape.  Canonical texts tell templates apart, so routes with the same method and
canonical text are of one class, and the second look alone would do.
-/

namespace HttpRoutes

variable {α : Type}

/-- What routes have in common that no request can tell apart. -/
structure ConflictClass where
  method : String
  verb : Option String
  shape : List Element
  varCount : Nat
deriving DecidableEq

def Route.conflictClass (route : Route α) : ConflictClass :=
  ⟨route.method, route.verb, route.shape, route.template.vars.length⟩

/-- The routes that are the first of their class. -/
def firstOfClass : List (Route α) → List (Route α)
  | [] => []
  | route :: routes =>
    route :: (firstOfClass routes).filter fun later =>
      later.conflictClass ≠ route.conflictClass

theorem mem_map_firstOfClass {cls : ConflictClass} {routes : List (Route α)} :
    cls ∈ (firstOfClass routes).map Route.conflictClass ↔
      cls ∈ routes.map Route.conflictClass := by
  induction routes with
  | nil => rfl
  | cons route routes ih =>
      rw [firstOfClass, List.map_cons, List.map_cons, List.mem_cons,
        List.mem_cons, ← ih]
      by_cases hcls : cls = route.conflictClass
      · simp [hcls]
      · have hfilter : cls ∈ ((firstOfClass routes).filter fun later =>
              later.conflictClass ≠ route.conflictClass).map
                Route.conflictClass ↔
            cls ∈ (firstOfClass routes).map Route.conflictClass := by
          simp only [List.mem_map, List.mem_filter, decide_eq_true_eq]
          constructor
          · rintro ⟨later, ⟨hmem, _⟩, heq⟩
            exact ⟨later, hmem, heq⟩
          · rintro ⟨later, hmem, heq⟩
            exact ⟨later, ⟨hmem, heq ▸ hcls⟩, heq⟩
        rw [hfilter]

theorem firstOfClass_append_singleton (routes : List (Route α))
    (route : Route α) :
    firstOfClass (routes ++ [route]) =
      if route.conflictClass ∈ routes.map Route.conflictClass then
        firstOfClass routes
      else firstOfClass routes ++ [route] := by
  induction routes with
  | nil => rfl
  | cons first routes ih =>
      rw [List.cons_append, firstOfClass, ih, List.map_cons, firstOfClass]
      by_cases hmem : route.conflictClass ∈ routes.map Route.conflictClass
      · rw [if_pos hmem, if_pos (List.mem_cons_of_mem _ hmem)]
      · rw [if_neg hmem, List.filter_append]
        by_cases hfirst : route.conflictClass = first.conflictClass
        · have hdropped : ([route].filter fun later =>
              later.conflictClass ≠ first.conflictClass) = [] := by
            simp [hfirst]
          rw [hdropped, List.append_nil, if_pos (by simp [hfirst])]
        · have hkept : ([route].filter fun later =>
              later.conflictClass ≠ first.conflictClass) = [route] := by
            simp [hfirst]
          have hnew : route.conflictClass ∉
              first.conflictClass :: routes.map Route.conflictClass := by
            rw [List.mem_cons, not_or]
            exact ⟨hfirst, hmem⟩
          rw [hkept, if_neg hnew, List.cons_append]

/-- No route before one that is kept is of its class. -/
theorem exists_append_of_mem_firstOfClass {route : Route α}
    {routes : List (Route α)} (hmem : route ∈ firstOfClass routes) :
    ∃ front back, routes = front ++ route :: back ∧
      ∀ earlier ∈ front, earlier.conflictClass ≠ route.conflictClass := by
  induction routes with
  | nil => simp [firstOfClass] at hmem
  | cons first routes ih =>
      rw [firstOfClass, List.mem_cons, List.mem_filter] at hmem
      rcases hmem with heq | ⟨hlater, hclass⟩
      · exact ⟨[], routes, by rw [heq, List.nil_append], by simp⟩
      · obtain ⟨front, back, hroutes, hfront⟩ := ih hlater
        have hfirst : route.conflictClass ≠ first.conflictClass :=
          of_decide_eq_true hclass
        refine ⟨first :: front, back, by rw [hroutes, List.cons_append], ?_⟩
        rw [List.forall_mem_cons]
        exact ⟨hfirst.symm, hfront⟩

/-! ## Conflicts of a consistent builder -/

theorem Route.variableCount_eq (route : Route α) :
    route.variableCount = route.template.vars.length :=
  length_bindingsFrom 0 route.template.segments

theorem Route.conflictClass_eq_iff {route other : Route α} :
    route.conflictClass = other.conflictClass ↔
      route.shape = other.shape ∧ route.slot = other.slot ∧
        route.variableCount = other.variableCount := by
  simp only [conflictClass, ConflictClass.mk.injEq, slot, Slot.mk.injEq,
    variableCount_eq]
  tauto

/-- Routes with the same method and canonical text are of one class. -/
theorem Route.conflictClass_eq_of_pattern {route other : Route α}
    {text text' : String} (hparse : Template.parse text = .ok route.template)
    (hparse' : Template.parse text' = .ok other.template)
    (hmethod : route.method = other.method)
    (hpattern : route.pattern = other.pattern) :
    route.conflictClass = other.conflictClass := by
  have htemplate : route.template = other.template :=
    Template.text_injective_of_parse hparse hparse' hpattern
  simp only [conflictClass, Route.verb, Route.shape, hmethod, htemplate]

namespace Builder

/-- Only a route of the same class is bound at the node of a route's shape with
as many variables. -/
theorem Consistent.exists_kept_of_candidate {builder : Builder α}
    (hgood : builder.Consistent) {route : Route α} {index : Nat}
    (hmem : index ∈ builder.trie.routesAt route.shape route.slot)
    (hcount : variableCount builder.routes index = route.variableCount) :
    ∃ kept, builder.routes[index]? = some kept ∧
      kept.conflictClass = route.conflictClass := by
  obtain ⟨kept, hkept, hshape, hslot⟩ := (hgood.mem_routesAt _ _ _).mp hmem
  rw [variableCount_of_getElem? hkept] at hcount
  exact ⟨kept, hkept, Route.conflictClass_eq_iff.mpr ⟨hshape, hslot, hcount⟩⟩

theorem Consistent.exists_candidate_of_kept {builder : Builder α}
    (hgood : builder.Consistent) {route kept : Route α}
    (hmem : kept ∈ builder.routes)
    (hclass : kept.conflictClass = route.conflictClass) :
    ∃ index ∈ builder.trie.routesAt route.shape route.slot,
      variableCount builder.routes index = route.variableCount := by
  obtain ⟨hshape, hslot, hcount⟩ := Route.conflictClass_eq_iff.mp hclass
  obtain ⟨index, hindex⟩ := List.getElem?_of_mem hmem
  refine ⟨index, (hgood.mem_routesAt _ _ _).mpr
    ⟨kept, hindex, hshape, hslot⟩, ?_⟩
  rw [variableCount_of_getElem? hindex, hcount]

/-- What a conflict is found with is the canonical text of a route of the same
class. -/
theorem Consistent.exists_kept_of_conflict? {builder : Builder α}
    (hgood : builder.Consistent) {route : Route α} {text existing : String}
    (hparse : Template.parse text = .ok route.template)
    (hconflict : builder.conflict? route = some existing) :
    ∃ kept ∈ builder.routes, kept.conflictClass = route.conflictClass ∧
      kept.pattern = existing := by
  rw [conflict?, routesOf_flatten] at hconflict
  split at hconflict
  next hregistered =>
    obtain ⟨kept, hmem, hkey⟩ := (hgood.mem_registered _).mp hregistered
    obtain ⟨text', hparse'⟩ := hgood.parsed kept hmem
    simp only [Prod.mk.injEq] at hkey
    have hclass := Route.conflictClass_eq_of_pattern hparse' hparse hkey.1 hkey.2
    exact ⟨kept, hmem, hclass, hkey.2.trans (Option.some.inj hconflict)⟩
  next =>
    obtain ⟨index, hfind, hconflict⟩ := Option.bind_eq_some_iff.mp hconflict
    obtain ⟨kept, hkept, hconflict⟩ := Option.bind_eq_some_iff.mp hconflict
    have hcount := List.find?_some hfind
    rw [decide_eq_true_eq] at hcount
    obtain ⟨other, hother, hclass⟩ := hgood.exists_kept_of_candidate
      (List.mem_of_find?_eq_some hfind) hcount
    have hsame : other = kept := Option.some.inj (hother.symm.trans hkept)
    subst hsame
    exact ⟨other, List.mem_of_getElem? hother, hclass,
      Option.some.inj hconflict⟩

theorem Consistent.conflict?_eq_none_iff {builder : Builder α}
    (hgood : builder.Consistent) {route : Route α} {text : String}
    (hparse : Template.parse text = .ok route.template) :
    builder.conflict? route = none ↔
      route.conflictClass ∉ builder.routes.map Route.conflictClass := by
  constructor
  · intro hnone hmem
    obtain ⟨kept, hkept, hclass⟩ := List.mem_map.mp hmem
    obtain ⟨index, hindex, hcount⟩ := hgood.exists_candidate_of_kept hkept hclass
    exact hgood.count_ne_of_conflict?_eq_none hnone index hindex hcount
  · intro hnew
    cases hconflict : builder.conflict? route with
    | none => rfl
    | some existing =>
        obtain ⟨kept, hkept, hclass, _⟩ :=
          hgood.exists_kept_of_conflict? hparse hconflict
        exact absurd (List.mem_map.mpr ⟨kept, hkept, hclass⟩) hnew

/-! ## Runs -/

/-- The route that an attempt asks for, if its method and template are well
formed. -/
def Attempt.route? (request : Attempt α) : Option (Route α) :=
  if isMethodToken request.method then
    match Template.parse request.template with
    | .error _ => none
    | .ok parsed => some ⟨request.method, parsed, request.operation⟩
  else
    none

/-- What one more attempt comes to. -/
def outcome (builder : Builder α) (request : Attempt α) :
    Builder α × Registration :=
  builder.register request.policy request.method request.template
    request.operation

theorem Attempt.parse_of_route? {request : Attempt α} {route : Route α}
    (hroute : request.route? = some route) :
    isMethodToken request.method = true ∧
      Template.parse request.template = .ok route.template ∧
      route = ⟨request.method, route.template, request.operation⟩ := by
  unfold route? at hroute
  split at hroute
  next hmethod =>
    split at hroute
    · simp at hroute
    next parsed hparse =>
      have heq := Option.some.inj hroute
      subst heq
      exact ⟨hmethod, hparse, rfl⟩
  next => simp at hroute

theorem outcome_of_route? {builder : Builder α} {request : Attempt α}
    {route : Route α} (hroute : request.route? = some route) :
    builder.outcome request = builder.registerRoute request.policy route := by
  obtain ⟨hmethod, hparse, heq⟩ := Attempt.parse_of_route? hroute
  rw [outcome, register, if_pos hmethod, hparse]
  exact congrArg (builder.registerRoute request.policy) heq.symm

theorem outcome_of_not_token {builder : Builder α} {request : Attempt α}
    (hmethod : isMethodToken request.method = false) :
    builder.outcome request =
      (builder, .refused (.invalidMethod request.method)) := by
  rw [outcome, register, hmethod]
  rfl

theorem outcome_of_parse_error {builder : Builder α} {request : Attempt α}
    {error : ParseError} (hmethod : isMethodToken request.method = true)
    (hparse : Template.parse request.template = .error error) :
    builder.outcome request = (builder, .refused (.parse error)) := by
  rw [outcome, register, if_pos hmethod, hparse]

theorem attempt_eq_of_route?_eq_none {builder : Builder α}
    {request : Attempt α} (hnone : request.route? = none) :
    builder.attempt request = builder := by
  change (builder.outcome request).1 = builder
  cases hmethod : isMethodToken request.method with
  | false => rw [outcome_of_not_token hmethod]
  | true =>
      cases hparse : Template.parse request.template with
      | error error => rw [outcome_of_parse_error hmethod hparse]
      | ok parsed => simp [Attempt.route?, hmethod, hparse] at hnone

theorem Consistent.outcome_of_first {builder : Builder α}
    (hgood : builder.Consistent) {request : Attempt α} {route : Route α}
    (hroute : request.route? = some route)
    (hnew : route.conflictClass ∉ builder.routes.map Route.conflictClass) :
    builder.outcome request =
      (builder.add route,
        .added route.method route.pattern route.variableCount builder.size) := by
  have hparse := (Attempt.parse_of_route? hroute).2.1
  have hnone := (hgood.conflict?_eq_none_iff hparse).mpr hnew
  rw [outcome_of_route? hroute, registerRoute, hnone]

theorem Consistent.outcome_of_later {builder : Builder α}
    (hgood : builder.Consistent) {request : Attempt α} {route : Route α}
    (hroute : request.route? = some route)
    (hmem : route.conflictClass ∈ builder.routes.map Route.conflictClass) :
    ∃ kept ∈ builder.routes, kept.conflictClass = route.conflictClass ∧
      builder.outcome request =
        (builder,
          match request.policy with
          | .reject => .refused (.conflict route.method route.pattern)
          | .keepFirst => .dropped route.method route.pattern kept.pattern) := by
  have hparse := (Attempt.parse_of_route? hroute).2.1
  have hsome : builder.conflict? route ≠ none :=
    fun hnone => (hgood.conflict?_eq_none_iff hparse).mp hnone hmem
  obtain ⟨existing, hconflict⟩ := Option.ne_none_iff_exists'.mp hsome
  obtain ⟨kept, hkept, hclass, hpattern⟩ :=
    hgood.exists_kept_of_conflict? hparse hconflict
  refine ⟨kept, hkept, hclass, ?_⟩
  rw [outcome_of_route? hroute, registerRoute, hconflict, hpattern]
  cases request.policy <;> rfl

theorem run_append_singleton (requests : List (Attempt α))
    (request : Attempt α) :
    run (requests ++ [request]) = (run requests).attempt request := by
  rw [run, List.foldl_append]
  rfl

theorem routes_run (requests : List (Attempt α)) :
    (run requests).routes =
      firstOfClass (requests.filterMap Attempt.route?) := by
  -- Whether a route is kept depends on what came before it, so the runs grow at
  -- the end.
  induction requests using List.reverseRecOn with
  | nil => rfl
  | append_singleton requests request ih =>
      have hgood : (run requests).Consistent := consistent_run requests
      rw [run_append_singleton, List.filterMap_append]
      cases hroute : request.route? with
      | none =>
          rw [attempt_eq_of_route?_eq_none hroute, List.filterMap_cons_none hroute,
            List.filterMap_nil, List.append_nil, ih]
      | some route =>
          have hclass : route.conflictClass ∈
                (run requests).routes.map Route.conflictClass ↔
              route.conflictClass ∈
                (requests.filterMap Attempt.route?).map Route.conflictClass := by
            rw [ih, mem_map_firstOfClass]
          rw [List.filterMap_cons_some hroute, List.filterMap_nil,
            firstOfClass_append_singleton, ← ih]
          change ((run requests).outcome request).1.routes = _
          by_cases hmem : route.conflictClass ∈
              (run requests).routes.map Route.conflictClass
          · obtain ⟨kept, _, _, heq⟩ := hgood.outcome_of_later hroute hmem
            rw [heq, if_pos (hclass.mp hmem)]
          · rw [hgood.outcome_of_first hroute hmem,
              if_neg (fun hearlier => hmem (hclass.mpr hearlier))]
            rfl

/-- A run keeps the routes that are the first of their class.  One more attempt
with an invalid method, with a text that is no template, or for a class that has
a route already leaves everything as it was, whatever its policy is; looking
for the canonical text finds no conflict that the node of the shape does not
show as well. -/
theorem routes_run_eq_firstOfClass (requests : List (Attempt α)) :
    (run requests).routes =
        firstOfClass (requests.filterMap Attempt.route?) ∧
      ∀ request : Attempt α,
        (isMethodToken request.method = false →
          (run requests).outcome request =
            (run requests, .refused (.invalidMethod request.method))) ∧
        (∀ error, isMethodToken request.method = true →
          Template.parse request.template = .error error →
            (run requests).outcome request =
              (run requests, .refused (.parse error))) ∧
        ∀ parsed, isMethodToken request.method = true →
          Template.parse request.template = .ok parsed →
            let route : Route α := ⟨request.method, parsed, request.operation⟩
            let earlier := requests.filterMap Attempt.route?
            (route.conflictClass ∉ earlier.map Route.conflictClass →
              (run requests).outcome request =
                ((run requests).add route,
                  .added request.method parsed.text parsed.vars.length
                    (run requests).size)) ∧
            (route.conflictClass ∈ earlier.map Route.conflictClass →
              ∃ kept ∈ (run requests).routes,
                kept.conflictClass = route.conflictClass ∧
                (run requests).outcome request =
                  (run requests,
                    match request.policy with
                    | .reject => .refused (.conflict request.method parsed.text)
                    | .keepFirst =>
                      .dropped request.method parsed.text kept.pattern)) ∧
            (∀ other ∈ earlier, other.method = request.method →
              other.pattern = parsed.text →
                other.conflictClass = route.conflictClass) ∧
            ((request.method, parsed.text) ∈ (run requests).registered →
              ∃ index ∈ (run requests).trie.routesAt route.shape route.slot,
                variableCount (run requests).routes index =
                  parsed.vars.length) := by
  have hgood : (run requests).Consistent := consistent_run requests
  refine ⟨routes_run requests, fun request =>
    ⟨outcome_of_not_token, fun error => outcome_of_parse_error, ?_⟩⟩
  intro parsed hmethod hparse route earlier
  have hroute : request.route? = some route := by
    simp [Attempt.route?, hmethod, hparse, route]
  have hclass : route.conflictClass ∈
        (run requests).routes.map Route.conflictClass ↔
      route.conflictClass ∈ earlier.map Route.conflictClass := by
    rw [routes_run, mem_map_firstOfClass]
  refine ⟨?_, ?_, ?_, ?_⟩
  · intro hnew
    have hfirst := hgood.outcome_of_first hroute fun hmem => hnew (hclass.mp hmem)
    rw [hfirst, route.variableCount_eq]
    rfl
  · intro hmem
    exact hgood.outcome_of_later hroute (hclass.mpr hmem)
  · intro other hother hsame hpattern
    obtain ⟨request', _, hroute'⟩ := List.mem_filterMap.mp hother
    have hparse' := (Attempt.parse_of_route? hroute').2.1
    exact Route.conflictClass_eq_of_pattern hparse' hparse hsame hpattern
  · intro hregistered
    obtain ⟨kept, hkept, hkey⟩ := (hgood.mem_registered _).mp hregistered
    obtain ⟨text, hparse'⟩ := hgood.parsed kept hkept
    simp only [Prod.mk.injEq] at hkey
    have hsame : kept.conflictClass = route.conflictClass :=
      Route.conflictClass_eq_of_pattern hparse' hparse hkey.1 hkey.2
    rw [← show route.variableCount = parsed.vars.length from
      route.variableCount_eq]
    exact hgood.exists_candidate_of_kept hkept hsame

theorem routes_run_eq_firstOfClass_with_renamed_variable :
    (run [⟨.keepFirst, "GET", "/v1/{a}", 0⟩,
        ⟨.reject, "G T", "/", 1⟩]).routes =
      firstOfClass [⟨"GET", ⟨[.plain (.literal "v1"),
        .variable ⟨⟨["a"]⟩, [.any]⟩], none⟩, 0⟩] ∧
    (run [⟨.keepFirst, "GET", "/v1/{a}", 0⟩, ⟨.reject, "G T", "/", 1⟩]).outcome
        ⟨.reject, "GET", "/v1/{b=*}", 2⟩ =
      (run [⟨.keepFirst, "GET", "/v1/{a}", 0⟩, ⟨.reject, "G T", "/", 1⟩],
        .refused (.conflict "GET" "/v1/{b}")) := by
  obtain ⟨hroutes, hanswers⟩ := routes_run_eq_firstOfClass
    [⟨.keepFirst, "GET", "/v1/{a}", 0⟩, ⟨.reject, "G T", "/", 1⟩]
  have hvalid : ([⟨.keepFirst, "GET", "/v1/{a}", 0⟩, ⟨.reject, "G T", "/", 1⟩] :
      List (Attempt Nat)).filterMap Attempt.route? =
        [⟨"GET", ⟨[.plain (.literal "v1"),
          .variable ⟨⟨["a"]⟩, [.any]⟩], none⟩, 0⟩] := by
    decide +kernel
  rw [hvalid] at hroutes hanswers
  have hparse : Template.parse "/v1/{b=*}" = .ok ⟨[.plain (.literal "v1"),
      .variable ⟨⟨["b"]⟩, [.any]⟩], none⟩ := by
    decide +kernel
  have hlater := ((hanswers ⟨.reject, "GET", "/v1/{b=*}", 2⟩).2.2 _
    (by decide +kernel) hparse).2.1 (by decide +kernel)
  obtain ⟨kept, _, _, houtcome⟩ := hlater
  exact ⟨hroutes, houtcome⟩

end Builder
end HttpRoutes
