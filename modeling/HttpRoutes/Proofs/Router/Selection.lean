import HttpRoutes.Proofs.Request.Path
import HttpRoutes.Proofs.Router.Registration
import HttpRoutes.Proofs.Router.Search

/-!
# Selecting from a plain list of routes

A route table can be read as the list of its routes, without the trie.  Among
the routes of the right method and verb whose shapes fit the request, the best
one has the shape of least rank, then the largest number of variables, then the
earliest registration.  A request is first tried with the text after the last
colon as its verb and then as it stands.

After every run of registrations the trie selects what the plain list selects.
The argument is the same for both tries of a request: the search answers with
the first candidate at the fitting node of least rank, the candidates of a node
never tie, and so no fitting route is better.
-/

namespace HttpRoutes

variable {α : Type}

/-- A route is better than another if its shape has a smaller rank, or the same
rank and more variables. -/
def Route.Beats (route other : Route α) : Prop :=
  shapeRank route.shape < shapeRank other.shape ∨
    shapeRank route.shape = shapeRank other.shape ∧
      other.variableCount < route.variableCount

instance (route other : Route α) : Decidable (route.Beats other) :=
  inferInstanceAs (Decidable (_ ∨ _))

namespace RouteList

/-- The best of a list of routes, the earliest one where several are best. -/
def best? : List (Route α) → Option (Route α)
  | [] => none
  | route :: routes =>
    match best? routes with
    | none => some route
    | some other => if other.Beats route then some other else some route

/-- The routes for a method and a verb whose shapes fit the segments. -/
def fitting (slot : Slot) (segments : List String) (routes : List (Route α)) :
    List (Route α) :=
  routes.filter fun route => route.slot = slot ∧ Fits route.shape segments

/-- The path up to its query or fragment, without one leading slash, split at
its slashes. -/
def pathSegments (path : String) : List String :=
  let counted := path.toList.takeWhile fun c => c ∉ ['?', '#']
  let text := if counted.head? = some '/' then counted.tail else counted
  if text = [] then [] else (text.splitOn '/').map String.ofList

def lastColon? (segments : List String) : Option (List String × String) :=
  segments.getLast?.bind fun last =>
    if ':' ∈ last.toList then
      some (segments.dropLast ++
          [String.ofList (last.toList.rdropWhile (· != ':')).dropLast],
        String.ofList (last.toList.rtakeWhile (· != ':')))
    else none

def choose? (slot : Slot) (segments : List String) (routes : List (Route α)) :
    Option (Selection α) :=
  (best? (fitting slot segments routes)).map fun route => ⟨route, segments⟩

/-- The route that the plain list selects for a request. -/
def select? (routes : List (Route α)) (method path : String) :
    Option (Selection α) :=
  let segments := pathSegments path
  ((lastColon? segments).bind fun (stripped, verb) =>
    choose? ⟨method, some verb⟩ stripped routes).or
  (choose? ⟨method, none⟩ segments routes)

end RouteList

/-! ## The two cuts of a request -/

theorem requestSegments_eq_pathSegments (path : String) :
    requestSegments path = RouteList.pathSegments path := by
  have hcounted : (path.toList.takeWhile fun c => c != '?' && c != '#') =
      path.toList.takeWhile fun c => c ∉ ['?', '#'] := by
    congr 1
    funext c
    rw [Bool.eq_iff_iff]
    simp
  unfold requestSegments RouteList.pathSegments
  rw [hcounted]
  cases path.toList.takeWhile fun c => c ∉ ['?', '#'] with
  | nil => rfl
  | cons c cs =>
      by_cases hc : c = '/'
      · subst c
        simp [Text.splitOn_eq_list_splitOn]
      · simp [Text.splitOn_eq_list_splitOn, hc]

theorem rtakeWhile_append_colon {head verb : List Char}
    (hverb : ':' ∉ verb) :
    (head ++ ':' :: verb).rtakeWhile (· != ':') = verb := by
  have hall : ∀ c ∈ verb.reverse, (c != ':') = true := by
    intro c hc
    rw [bne_iff_ne]
    rintro rfl
    exact hverb (List.mem_reverse.mp hc)
  rw [List.rtakeWhile, List.reverse_append, List.reverse_cons,
    List.append_assoc, List.takeWhile_append_of_pos hall]
  simp

theorem rdropWhile_append_colon {head verb : List Char}
    (hverb : ':' ∉ verb) :
    (head ++ ':' :: verb).rdropWhile (· != ':') = head ++ [':'] := by
  have hsplit := List.rdropWhile_append_rtakeWhile
    (p := (· != ':')) (l := head ++ ':' :: verb)
  rw [rtakeWhile_append_colon hverb, List.append_cons head] at hsplit
  rw [List.append_cons]
  exact List.append_cancel_right hsplit

theorem lastColon?_eq_some_iff {segments stripped : List String}
    {verb : String} :
    RouteList.lastColon? segments = some (stripped, verb) ↔
      ':' ∉ verb.toList ∧ TakesVerb (some verb) segments stripped := by
  unfold RouteList.lastColon?
  constructor
  · intro hcut
    obtain ⟨last, hlast, hcut⟩ := Option.bind_eq_some_iff.mp hcut
    obtain ⟨front, rfl⟩ := List.getLast?_eq_some_iff.mp hlast
    split at hcut
    next hcolon =>
      obtain ⟨⟨head, tail⟩, hsplit⟩ := Option.ne_none_iff_exists'.mp
        fun hnone => Text.splitLast?_eq_none_iff.mp hnone hcolon
      obtain ⟨htext, hnot⟩ := Text.splitLast?_eq_some_iff.mp hsplit
      rw [htext, rtakeWhile_append_colon hnot, rdropWhile_append_colon hnot,
        List.dropLast_concat, List.dropLast_concat, Option.some.injEq,
        Prod.mk.injEq] at hcut
      obtain ⟨rfl, rfl⟩ := hcut
      refine ⟨by simpa using hnot, front, String.ofList head, ?_, rfl⟩
      rw [toList_eq_append_colon_iff.mp htext]
    next => contradiction
  · rintro ⟨hnot, front, head, rfl, rfl⟩
    simp [rtakeWhile_append_colon hnot, rdropWhile_append_colon hnot]

/-! ## The best route -/

theorem Route.not_beats_self (route : Route α) : ¬ route.Beats route := by
  simp [Beats]

theorem Route.Beats.asymm {route other : Route α} (hbeats : route.Beats other) :
    ¬ other.Beats route := by
  rintro (hlt | ⟨heq, hlt⟩)
  · rcases hbeats with hlt' | ⟨heq', _⟩
    · exact lt_asymm hlt hlt'
    · exact absurd hlt (by rw [heq']; exact lt_irrefl _)
  · rcases hbeats with hlt' | ⟨_, hlt'⟩
    · exact absurd hlt' (by rw [heq]; exact lt_irrefl _)
    · omega

theorem Route.Beats.of_not_beats {route middle other : Route α}
    (hbeats : route.Beats other) (hmiddle : ¬ route.Beats middle) :
    middle.Beats other := by
  simp only [Beats, not_or, not_and, not_lt] at hmiddle
  obtain ⟨hle, hcount⟩ := hmiddle
  rcases hbeats with hlt | ⟨heq, hlt⟩
  · exact .inl (lt_of_le_of_lt hle hlt)
  · rcases lt_or_eq_of_le hle with hlt' | heq'
    · exact .inl (heq ▸ hlt')
    · have := hcount heq'.symm
      exact .inr ⟨heq'.trans heq, by omega⟩

namespace RouteList

theorem best?_eq_none_iff {routes : List (Route α)} :
    best? routes = none ↔ routes = [] := by
  cases routes with
  | nil => simp [best?]
  | cons route routes =>
      rw [best?]
      split
      · simp
      · split <;> simp

theorem best?_eq_some {routes : List (Route α)} {best : Route α}
    (hbest : best? routes = some best) :
    best ∈ routes ∧ ∀ route ∈ routes, ¬ route.Beats best := by
  induction routes generalizing best with
  | nil => simp [best?] at hbest
  | cons route routes ih =>
      rw [best?] at hbest
      split at hbest
      next hnone =>
        rw [best?_eq_none_iff] at hnone
        simp only [Option.some.injEq] at hbest
        subst hbest
        subst hnone
        simpa using route.not_beats_self
      next other hother =>
        obtain ⟨hmem, hbeaten⟩ := ih hother
        split at hbest
        next hbeats =>
          simp only [Option.some.injEq] at hbest
          subst best
          refine ⟨List.mem_cons_of_mem _ hmem, ?_⟩
          intro found hfound
          rcases List.mem_cons.mp hfound with heq | hlater
          · exact heq ▸ hbeats.asymm
          · exact hbeaten found hlater
        next hnot =>
          simp only [Option.some.injEq] at hbest
          subst best
          refine ⟨by simp, ?_⟩
          intro found hfound
          rcases List.mem_cons.mp hfound with heq | hlater
          · exact heq ▸ route.not_beats_self
          · exact fun hbeats =>
              hnot (hbeats.of_not_beats (hbeaten found hlater))

theorem best?_eq_some_of_beats {routes : List (Route α)} {route : Route α}
    (hmem : route ∈ routes)
    (hbeats : ∀ other ∈ routes, other = route ∨ route.Beats other) :
    best? routes = some route := by
  cases hbest : best? routes with
  | none =>
      rw [best?_eq_none_iff.mp hbest] at hmem
      contradiction
  | some best =>
      obtain ⟨hin, hbeaten⟩ := best?_eq_some hbest
      rcases hbeats best hin with heq | hlt
      · rw [heq]
      · exact absurd hlt (hbeaten route hmem)

theorem choose?_eq_none {slot : Slot} {routes : List (Route α)}
    (hnone : ∀ route ∈ routes, route.slot ≠ slot) (segments : List String) :
    choose? slot segments routes = none := by
  have hempty : fitting slot segments routes = [] := by
    rw [fitting, List.filter_eq_nil_iff]
    intro route hmem
    simp [hnone route hmem]
  rw [choose?, hempty]
  rfl

theorem mem_fitting_iff {slot : Slot} {segments : List String}
    {routes : List (Route α)} {route : Route α} :
    route ∈ fitting slot segments routes ↔
      route ∈ routes ∧ route.slot = slot ∧ Fits route.shape segments := by
  simp [fitting]

theorem choose?_eq_some {slot : Slot} {segments : List String}
    {routes : List (Route α)} {selection : Selection α}
    (hchoose : choose? slot segments routes = some selection) :
    selection.route ∈ fitting slot segments routes ∧
      selection.segments = segments := by
  obtain ⟨route, hbest, rfl⟩ := Option.map_eq_some_iff.mp hchoose
  exact ⟨(best?_eq_some hbest).1, rfl⟩

theorem choose?_ne_none {slot : Slot} {segments : List String}
    {routes : List (Route α)} {route : Route α}
    (hmem : route ∈ fitting slot segments routes) :
    choose? slot segments routes ≠ none := by
  intro hnone
  rw [choose?, Option.map_eq_none_iff, best?_eq_none_iff] at hnone
  rw [hnone] at hmem
  contradiction

/-- The selected route is for the method of the request, and its shape fits
what remains of the segments without its verb. -/
theorem select?_eq_some {routes : List (Route α)} {method path : String}
    {selection : Selection α}
    (hselect : select? routes method path = some selection) :
    selection.route ∈ routes ∧ selection.route.method = method ∧
      TakesVerb selection.route.verb (requestSegments path)
        selection.segments ∧
      Fits selection.route.shape selection.segments := by
  rw [select?, Option.or_eq_some_iff] at hselect
  rcases hselect with hverb | ⟨_, hplain⟩
  · obtain ⟨⟨stripped, verb⟩, hcolon, hchoose⟩ :=
      Option.bind_eq_some_iff.mp hverb
    obtain ⟨hmem, hsegments⟩ := choose?_eq_some hchoose
    obtain ⟨hin, hslot, hfits⟩ := mem_fitting_iff.mp hmem
    have htakes := (lastColon?_eq_some_iff.mp hcolon).2
    rw [hsegments, show selection.route.verb = some verb from
      congrArg Slot.verb hslot, requestSegments_eq_pathSegments]
    exact ⟨hin, congrArg Slot.method hslot, htakes, hfits⟩
  · obtain ⟨hmem, hsegments⟩ := choose?_eq_some hplain
    obtain ⟨hin, hslot, hfits⟩ := mem_fitting_iff.mp hmem
    rw [hsegments, show selection.route.verb = none from
      congrArg Slot.verb hslot, requestSegments_eq_pathSegments]
    exact ⟨hin, congrArg Slot.method hslot, rfl, hfits⟩

theorem select?_ne_none {routes : List (Route α)} {route : Route α}
    {path : String} {segments : List String} (hmem : route ∈ routes)
    (hcolon : ∀ verb, route.verb = some verb → ':' ∉ verb.toList)
    (htakes : TakesVerb route.verb (requestSegments path) segments)
    (hfits : Fits route.shape segments) :
    select? routes route.method path ≠ none := by
  have hfitting : route ∈
      fitting ⟨route.method, route.verb⟩ segments routes :=
    mem_fitting_iff.mpr ⟨hmem, rfl, hfits⟩
  have hchoose := choose?_ne_none hfitting
  rw [requestSegments_eq_pathSegments] at htakes
  rw [select?, ne_eq, Option.or_eq_none_iff]
  rintro ⟨hverb, hplain⟩
  cases hroute : route.verb with
  | none =>
      rw [hroute] at htakes hchoose
      rw [show segments = pathSegments path from htakes] at hchoose
      exact hchoose hplain
  | some verb =>
      rw [hroute] at htakes hchoose
      rw [lastColon?_eq_some_iff.mpr ⟨hcolon verb hroute, htakes⟩] at hverb
      exact hchoose hverb

end RouteList

/-! ## The trie selects the best route -/

namespace Builder

theorem Consistent.routesFor_of_find? {builder : Builder α}
    (hgood : builder.Consistent) {path : List Element} {node : Trie}
    {slot : Slot} {index : Nat} (hfind : builder.trie.find? path = some node) :
    index ∈ node.bound.routesFor slot ↔
      ∃ route, builder.routes[index]? = some route ∧
        route.shape = path ∧ route.slot = slot := by
  rw [← hgood.mem_routesAt, Trie.routesAt, hfind]

theorem Consistent.exists_node {builder : Builder α}
    (hgood : builder.Consistent) {index : Nat} {route : Route α}
    (hroute : builder.routes[index]? = some route) :
    ∃ node, builder.trie.find? route.shape = some node ∧
      index ∈ node.bound.routesFor route.slot := by
  have hmem : index ∈ builder.trie.routesAt route.shape route.slot :=
    (hgood.mem_routesAt _ _ _).mpr ⟨route, hroute, rfl, rfl⟩
  unfold Trie.routesAt at hmem
  cases hfind : builder.trie.find? route.shape with
  | none => simp [hfind] at hmem
  | some node =>
      rw [hfind] at hmem
      exact ⟨node, rfl, hmem⟩

/-- The first candidate of a node beats all others. -/
theorem Consistent.eq_of_head? {builder : Builder α}
    (hgood : builder.Consistent) {path : List Element} {slot : Slot}
    {index other : Nat}
    (hhead : (builder.trie.routesAt path slot).head? = some index)
    (hmem : other ∈ builder.trie.routesAt path slot) :
    other = index ∨
      variableCount builder.routes other < variableCount builder.routes index := by
  have hdecreasing := hgood.decreasing path slot
  cases hlist : builder.trie.routesAt path slot with
  | nil => simp [hlist] at hmem
  | cons first others =>
      rw [hlist, List.head?_cons, Option.some.injEq] at hhead
      subst first
      rw [hlist] at hmem hdecreasing
      rcases List.mem_cons.mp hmem with heq | hlater
      · exact .inl heq
      · exact .inr ((List.pairwise_cons.mp hdecreasing).1 other hlater)

theorem Consistent.fitting_eq_nil {builder : Builder α}
    (hgood : builder.Consistent) {slot : Slot} {segments : List String}
    (hsearch : builder.trie.search
      (fun node => (node.bound.routesFor slot).head?) segments = none) :
    RouteList.fitting slot segments builder.routes = [] := by
  rw [List.eq_nil_iff_forall_not_mem]
  intro route hmem
  obtain ⟨hroute, rfl, hfits⟩ := RouteList.mem_fitting_iff.mp hmem
  obtain ⟨index, hindex⟩ := List.getElem?_of_mem hroute
  obtain ⟨node, hfind, hcandidate⟩ := hgood.exists_node hindex
  have hnone := Trie.search_eq_none_iff.mp hsearch _ node hfits hfind
  rw [List.head?_eq_none_iff] at hnone
  simp [hnone] at hcandidate

/-- The route that a search answers with fits and beats all others that fit. -/
theorem Consistent.beats_of_search {builder : Builder α}
    (hgood : builder.Consistent) {slot : Slot} {segments : List String}
    {index : Nat}
    (hsearch : builder.trie.search
      (fun node => (node.bound.routesFor slot).head?) segments = some index) :
    ∃ route, builder.routes[index]? = some route ∧
      route ∈ RouteList.fitting slot segments builder.routes ∧
      ∀ other ∈ RouteList.fitting slot segments builder.routes,
        other = route ∨ route.Beats other := by
  obtain ⟨path, node, hfits, hfind, haccept, hleast⟩ :=
    Trie.search_eq_some hsearch
  obtain ⟨route, hroute, rfl, rfl⟩ :=
    (hgood.routesFor_of_find? hfind).mp (List.mem_of_head? haccept)
  refine ⟨route, hroute, RouteList.mem_fitting_iff.mpr
    ⟨List.mem_of_getElem? hroute, rfl, hfits⟩, ?_⟩
  intro other hmem
  obtain ⟨hin, hslot, hfits'⟩ := RouteList.mem_fitting_iff.mp hmem
  obtain ⟨index', hindex'⟩ := List.getElem?_of_mem hin
  obtain ⟨node', hfind', hcandidate⟩ := hgood.exists_node hindex'
  have haccept' : (node'.bound.routesFor route.slot).head? ≠ none := by
    rw [← hslot, ne_eq, List.head?_eq_none_iff]
    exact List.ne_nil_of_mem hcandidate
  rcases hleast other.shape node' hfits' hfind' haccept' with hshape | hlt
  · -- Both are candidates of one node, whose first candidate was taken.
    have hhead : (builder.trie.routesAt route.shape
        route.slot).head? = some index := by
      simpa only [Trie.routesAt, hfind] using haccept
    have hroutesAt : index' ∈ builder.trie.routesAt route.shape route.slot :=
      (hgood.mem_routesAt _ _ _).mpr ⟨other, hindex', hshape, hslot⟩
    rcases hgood.eq_of_head? hhead hroutesAt with rfl | hlt
    · exact .inl (Option.some.inj (hindex'.symm.trans hroute))
    · rw [variableCount_of_getElem? hindex',
        variableCount_of_getElem? hroute] at hlt
      exact .inr (.inr ⟨by rw [hshape], hlt⟩)
  · exact .inr (.inl hlt)

theorem Consistent.find?_eq_choose? {builder : Builder α}
    (hgood : builder.Consistent) (slot : Slot) (segments : List String) :
    builder.build.find? slot segments =
      RouteList.choose? slot segments builder.routes := by
  unfold Matcher.find? RouteList.choose?
  cases hsearch : builder.build.trie.search
      (fun node => (node.bound.routesFor slot).head?) segments with
  | none =>
      rw [hgood.fitting_eq_nil hsearch]
      rfl
  | some index =>
      obtain ⟨route, hroute, hmem, hbeats⟩ := hgood.beats_of_search hsearch
      rw [RouteList.best?_eq_some_of_beats hmem hbeats]
      simp [build, hroute]

/-- Only a verb that some route has needs to be taken off a request. -/
theorem Consistent.bind_splitVerb {builder : Builder α}
    (hgood : builder.Consistent) (method : String) (segments : List String) :
    ((splitVerb builder.verbs segments).bind fun (stripped, verb) =>
        RouteList.choose? ⟨method, some verb⟩ stripped builder.routes) =
      (RouteList.lastColon? segments).bind fun (stripped, verb) =>
        RouteList.choose? ⟨method, some verb⟩ stripped builder.routes := by
  cases hcolon : RouteList.lastColon? segments with
  | none =>
      cases hsplit : splitVerb builder.verbs segments with
      | none => rfl
      | some split =>
          obtain ⟨stripped, verb⟩ := split
          obtain ⟨_, htakes⟩ := splitVerb_eq_some_iff.mp hsplit
          rw [lastColon?_eq_some_iff.mpr htakes] at hcolon
          contradiction
  | some split =>
      obtain ⟨stripped, verb⟩ := split
      have htakes := lastColon?_eq_some_iff.mp hcolon
      by_cases hverb : verb ∈ builder.verbs
      · rw [splitVerb_eq_some_iff.mpr ⟨hverb, htakes⟩]
      · have hnoRoute : RouteList.choose? ⟨method, some verb⟩ stripped
            builder.routes = none := by
          apply RouteList.choose?_eq_none
          intro route hmem hslot
          exact hverb ((hgood.mem_verbs verb).mpr
            ⟨route, hmem, congrArg Slot.verb hslot⟩)
        have hsplit : splitVerb builder.verbs segments = none := by
          rw [Option.eq_none_iff_forall_ne_some]
          rintro ⟨stripped', verb'⟩ hsome
          obtain ⟨hmem, htakes'⟩ := splitVerb_eq_some_iff.mp hsome
          rw [lastColon?_eq_some_iff.mpr htakes', Option.some.injEq,
            Prod.mk.injEq] at hcolon
          exact hverb (hcolon.2 ▸ hmem)
        rw [hsplit]
        exact hnoRoute.symm

theorem Consistent.select?_eq {builder : Builder α}
    (hgood : builder.Consistent) (method path : String) :
    builder.build.select? method path =
      RouteList.select? builder.routes method path := by
  unfold Matcher.select? RouteList.select?
  simp only [hgood.find?_eq_choose?, requestSegments_eq_pathSegments]
  exact congrArg (Option.or · _)
    (hgood.bind_splitVerb method (RouteList.pathSegments path))

theorem Consistent.select?_eq_none_of_not_token {builder : Builder α}
    (hgood : builder.Consistent) {method : String}
    (hmethod : isMethodToken method = false) (path : String) :
    RouteList.select? builder.routes method path = none := by
  rw [Option.eq_none_iff_forall_ne_some]
  intro selection hselect
  obtain ⟨hmem, rfl, _⟩ := RouteList.select?_eq_some hselect
  rw [hgood.method selection.route hmem] at hmethod
  contradiction

/-- A request is answered with what the selected route captures.  A method that
is no token needs no test, since no route has one. -/
theorem Consistent.lookup_eq {builder : Builder α}
    (hgood : builder.Consistent) (method path : String) :
    builder.build.lookup method path =
      match RouteList.select? builder.routes method path with
      | none => .error (.notFound method path)
      | some selection =>
        match captures selection.segments selection.route.bindings with
        | .error range => .error (.misfit range)
        | .ok values => .ok ⟨selection.route, values⟩ := by
  rw [Matcher.lookup, hgood.select?_eq]
  cases hmethod : isMethodToken method with
  | true => rfl
  | false =>
      rw [hgood.select?_eq_none_of_not_token hmethod]
      rfl

/-- After every run of registrations, a request gets the route that the plain
list of registered routes selects. -/
theorem select?_run_eq_routeList (requests : List (Attempt α))
    (method path : String) :
    (run requests).build.select? method path =
        RouteList.select? (run requests).routes method path ∧
      (run requests).build.lookup method path =
        match RouteList.select? (run requests).routes method path with
        | none => .error (.notFound method path)
        | some selection =>
          match captures selection.segments selection.route.bindings with
          | .error range => .error (.misfit range)
          | .ok values => .ok ⟨selection.route, values⟩ := by
  have hgood : (run requests).Consistent := consistent_run requests
  exact ⟨hgood.select?_eq method path, hgood.lookup_eq method path⟩

/-- Of two routes with one shape the one that captures more is selected. -/
example :
    ((run [⟨.reject, "GET", "/a/*", "any"⟩, ⟨.reject, "GET", "/a/{x}", "named"⟩,
      ⟨.reject, "GET", "/a/b", "b"⟩]).build.lookup "GET" "/a/c").toOption.map
        (fun found => (found.route.operation, found.values)) =
      some ("named", [("x", "c")]) := by
  decide +kernel

end Builder
end HttpRoutes
